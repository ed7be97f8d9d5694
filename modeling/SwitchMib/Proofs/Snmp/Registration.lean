import Mathlib.Data.List.Perm.Basic
import SwitchMib.Proofs.Bisect
import SwitchMib.Proofs.Order.Subtree
import SwitchMib.Snmp.Tree

/-!
# The order of registered tables

Registration keeps the tables of a tree in the order of their roots, no root leading another. At
most one table can therefore hold an object, and all objects of one table come before all objects
of the next.

* `Arranged`: the tables of a list are in such an order.
* `exists_place_of_register`: where a registered table stands.
* `arranged_of_register`: what one registration keeps; `arranged_of_registers`: what any number of
  them establishes.
* `ShowsIn`, `Shows`: an object has a value in a table, or in one of several.
* `get_eq_some_iff`: the value answered for an object is the one that a table shows.
-/

namespace SwitchMib.Snmp
set_option autoImplicit false

open KeyOrder

namespace Oid

theorem startsWith_iff {oid top : Oid} :
    oid.startsWith top = true ↔ ∃ sub, oid = top.append sub := by
  rw [startsWith, List.isPrefixOf_iff_prefix]
  constructor
  · rintro ⟨sub, h⟩
    exact ⟨sub, congrArg Oid.mk h.symm⟩
  · rintro ⟨sub, rfl⟩
    exact ⟨sub, rfl⟩

end Oid

namespace MibTree

/-! ## Roots that do not lead each other -/

theorem overlaps_comm (a b : Oid) : overlaps a b = overlaps b a := Bool.or_comm _ _

theorem overlaps_self (a : Oid) : overlaps a a = true := by
  rw [overlaps, Oid.startsWith_iff.2 ⟨[], by simp [Oid.append]⟩]
  rfl

theorem overlaps_of_append {a b : Oid} {s t : SubId} (h : a.append s = b.append t) :
    overlaps a b = true := by
  have hlist : a.arcs ++ s = b.arcs ++ t := congrArg Oid.arcs h
  rw [overlaps, Bool.or_eq_true, Oid.startsWith, Oid.startsWith, List.isPrefixOf_iff_prefix,
    List.isPrefixOf_iff_prefix]
  exact List.prefix_or_prefix_of_prefix ⟨t, hlist.symm⟩ ⟨s, rfl⟩

/-- Everything below the earlier of two such roots comes before everything below the later. -/
theorem append_before_append {a b : Oid} (h : before a b = true) (ho : overlaps a b = false)
    (s t : SubId) : before (a.append s) (b.append t) = true := by
  have hb : b.below? a = none := by
    cases hs : b.below? a with
    | none => rfl
    | some r =>
      have hr : b.append [] = a.append r := by
        rw [← Oid.below?_eq_some_iff.1 hs]
        simp [Oid.append]
      rw [overlaps_comm, overlaps_of_append hr] at ho
      cases ho
  exact Oid.before_append_of_before (Oid.append_before_of_not_before hb (KeyOrder.asymm h) s) t

variable {υ : Type} [Mib υ]

/-- The tables are in the order of their roots, and no root leads another. -/
def Arranged (mibs : List υ) : Prop :=
  mibs.Pairwise fun u v =>
    before (Mib.top u) (Mib.top v) = true ∧ overlaps (Mib.top u) (Mib.top v) = false

def rootBefore (top : Oid) (v : υ) : Bool := before (Mib.top v) top

theorem register_eq_ok_iff {tree tree' : MibTree υ} {u : υ} :
    tree.register u = .ok tree' ↔
      (∀ v ∈ tree.mibs, overlaps (Mib.top v) (Mib.top u) = false) ∧
        tree' = ⟨tree.mibs.insertIdx (partitionPoint (rootBefore (Mib.top u)) tree.mibs) u⟩ := by
  rw [register]
  cases hfind : tree.mibs.find? fun v => overlaps (Mib.top v) (Mib.top u) with
  | some v =>
    have hv : overlaps (Mib.top v) (Mib.top u) = true :=
      List.find?_some (p := fun v => overlaps (Mib.top v) (Mib.top u)) hfind
    have hmem : v ∈ tree.mibs := List.mem_of_find?_eq_some hfind
    constructor
    · intro h
      cases h
    · rintro ⟨hall, -⟩
      rw [hall v hmem] at hv
      cases hv
  | none =>
    rw [List.find?_eq_none] at hfind
    constructor
    · intro h
      cases h
      exact ⟨fun v hv => Bool.eq_false_iff.2 (hfind v hv), rfl⟩
    · rintro ⟨-, rfl⟩
      rfl

theorem perm_of_register {tree tree' : MibTree υ} {u : υ} (h : tree.register u = .ok tree') :
    tree'.mibs.Perm (u :: tree.mibs) := by
  obtain ⟨-, rfl⟩ := register_eq_ok_iff.1 h
  exact List.perm_insertIdx _ _ (partitionPoint_le_length _ _)

theorem mem_of_register {tree tree' : MibTree υ} {u : υ} (h : tree.register u = .ok tree')
    {w : υ} : w ∈ tree'.mibs ↔ w = u ∨ w ∈ tree.mibs := by
  rw [(perm_of_register h).mem_iff, List.mem_cons]

/-- A registered table has those with smaller roots before it and those with greater roots after
it. -/
theorem exists_place_of_register {tree tree' : MibTree υ} (h : Arranged tree.mibs) {u : υ}
    (hreg : tree.register u = .ok tree') :
    ∃ earlier later, tree.mibs = earlier ++ later ∧ tree'.mibs = earlier ++ u :: later ∧
      (∀ v ∈ earlier, before (Mib.top v) (Mib.top u) = true) ∧
      ∀ v ∈ later, before (Mib.top u) (Mib.top v) = true := by
  obtain ⟨hfree, rfl⟩ := register_eq_ok_iff.1 hreg
  have hgap : Gap (fun v => if rootBefore (Mib.top u) v then .lt else .gt) tree.mibs
      (partitionPoint (rootBefore (Mib.top u)) tree.mibs) :=
    gap_partitionPoint (h.imp fun huv hv => KeyOrder.trans huv.1 hv)
  refine ⟨_, _, (List.take_append_drop _ _).symm, insertIdx_eq_append hgap.bound, fun v hv => ?_,
    fun v hv => ?_⟩
  · by_contra hnot
    have hlt := hgap.below v hv
    simp [rootBefore, hnot] at hlt
  · have hnot : rootBefore (Mib.top u) v = false := by simpa using hgap.above v hv
    refine before_of_not_before_of_ne hnot fun hsame => ?_
    have hvu := hfree v (List.mem_of_mem_drop hv)
    rw [hsame, overlaps_self] at hvu
    cases hvu

theorem arranged_of_register {tree tree' : MibTree υ} {u : υ} (h : Arranged tree.mibs)
    (hreg : tree.register u = .ok tree') : Arranged tree'.mibs := by
  obtain ⟨hfree, -⟩ := register_eq_ok_iff.1 hreg
  obtain ⟨earlier, later, hsplit, htree, hbefore, hafter⟩ := exists_place_of_register h hreg
  rw [hsplit] at h hfree
  obtain ⟨hearlier, hlater, hacross⟩ := List.pairwise_append.1 h
  rw [htree, Arranged, List.pairwise_append, List.pairwise_cons]
  refine ⟨hearlier, ⟨fun v hv => ⟨hafter v hv, ?_⟩, hlater⟩, fun v hv w hw => ?_⟩
  · exact (overlaps_comm _ _).trans (hfree v (List.mem_append_right _ hv))
  · rcases List.mem_cons.1 hw with rfl | hw
    · exact ⟨hbefore v hv, hfree v (List.mem_append_left _ hv)⟩
    · exact hacross v hv w hw

/-- Successive registrations leave the tables arranged, those of before and the new ones. -/
theorem arranged_of_registers {us : List υ} {tree tree' : MibTree υ} (h : Arranged tree.mibs)
    (hreg : us.foldlM register tree = .ok tree') :
    Arranged tree'.mibs ∧ ∀ w, w ∈ tree'.mibs ↔ w ∈ us ∨ w ∈ tree.mibs := by
  induction us generalizing tree with
  | nil =>
    cases hreg
    exact ⟨h, fun w => by simp⟩
  | cons u us ih =>
    rw [List.foldlM_cons] at hreg
    cases hu : tree.register u with
    | error e =>
      rw [hu] at hreg
      cases hreg
    | ok mid =>
      rw [hu] at hreg
      obtain ⟨harr, hmem⟩ := ih (arranged_of_register h hu) hreg
      refine ⟨harr, fun w => ?_⟩
      rw [hmem, mem_of_register hu, List.mem_cons, or_left_comm, or_assoc]

/-! ## Objects -/

/-- The object `oid` has the value `v` in the table `u`. -/
def ShowsIn (u : υ) (oid : Oid) (v : Value) : Prop :=
  ∃ sub, oid = (Mib.top u).append sub ∧ Mib.valueAt u sub = some v

/-- The object `oid` has the value `v` in one of the tables. -/
def Shows (mibs : List υ) (oid : Oid) (v : Value) : Prop := ∃ u ∈ mibs, ShowsIn u oid v

theorem showsIn_append {u : υ} {sub : SubId} {v : Value} :
    ShowsIn u ((Mib.top u).append sub) v ↔ Mib.valueAt u sub = some v := by
  constructor
  · rintro ⟨s, he, hs⟩
    have hsub : sub = s := List.append_cancel_left (congrArg Oid.arcs he)
    rw [hsub]
    exact hs
  · intro h
    exact ⟨sub, rfl, h⟩

theorem shows_cons {u : υ} {mibs : List υ} {oid : Oid} {v : Value} :
    Shows (u :: mibs) oid v ↔ ShowsIn u oid v ∨ Shows mibs oid v := by
  simp only [Shows, List.mem_cons, exists_eq_or_imp]

theorem append_before_of_shows {u : υ} {mibs : List υ} (h : Arranged (u :: mibs)) (sub : SubId)
    {oid : Oid} {v : Value} (hs : Shows mibs oid v) :
    before ((Mib.top u).append sub) oid = true := by
  obtain ⟨w, hw, t, rfl, -⟩ := hs
  obtain ⟨hb, ho⟩ := (List.pairwise_cons.1 h).1 w hw
  exact append_before_append hb ho sub t

theorem get_eq_some_iff {tree : MibTree υ} (h : Arranged tree.mibs) {oid : Oid} {v : Value} :
    tree.get oid = some v ↔ Shows tree.mibs oid v := by
  obtain ⟨mibs⟩ := tree
  simp only [get, read]
  induction mibs with
  | nil => simp [Shows]
  | cons u mibs ih =>
    have ih' := ih (List.pairwise_cons.1 h).2
    rw [shows_cons, List.findSome?_cons]
    cases hb : oid.below? (Mib.top u) with
    | none =>
      have hnot : ¬ ShowsIn u oid v := by
        rintro ⟨sub, rfl, -⟩
        simp at hb
      simp only [Option.bind_none, or_iff_right hnot]
      exact ih'
    | some sub =>
      rw [Oid.below?_eq_some_iff] at hb
      subst hb
      -- no later table has anything at this object
      have hlater : ¬ Shows mibs ((Mib.top u).append sub) v := by
        intro hs
        have hloop := append_before_of_shows h sub hs
        rw [KeyOrder.irrefl] at hloop
        cases hloop
      rw [showsIn_append, or_iff_left hlater, Option.bind_some]
      cases hval : Mib.valueAt u sub with
      | some x => rfl
      | none =>
        simp only [ih']
        exact iff_of_false hlater fun e => by cases e

end MibTree

end SwitchMib.Snmp
