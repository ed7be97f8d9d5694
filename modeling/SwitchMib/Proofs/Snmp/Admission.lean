import Mathlib.Data.List.Pairwise
import SwitchMib.Proofs.Snmp.Walk

/-!
# Registrations that may be refused

Tables are offered to a tree one after the other. A table whose root leads that of a registered
one, or is led by it, is refused and the tree stays as it is; any other is put at its place. So the
tree never depends on the order of the offers, except for which of two tables that are in each
other's way came first.

* `InWay`: the table that a refusal names.
* `register_eq_error_iff`: what one refusal says.
* `registers_eq_ok_iff`: registrations that all succeed. They leave the one arrangement of the old
  tables and the new ones.
* `enrol`, `enrolAll`: offers that may be refused.
* `enrolAll_invariant`: what any offers lead to.
-/

namespace SwitchMib.Snmp.MibTree
set_option autoImplicit false

open KeyOrder

/-! ## Roots that lead each other -/

theorem overlaps_iff {a b : Oid} : overlaps a b = true ↔ a.arcs <+: b.arcs ∨ b.arcs <+: a.arcs := by
  rw [overlaps, Bool.or_eq_true, Oid.startsWith, Oid.startsWith, List.isPrefixOf_iff_prefix,
    List.isPrefixOf_iff_prefix, or_comm]

theorem overlaps_of_startsWith {a b oid : Oid} (ha : oid.startsWith a = true)
    (hb : oid.startsWith b = true) : overlaps a b = true := by
  obtain ⟨s, rfl⟩ := Oid.startsWith_iff.1 ha
  obtain ⟨t, ht⟩ := Oid.startsWith_iff.1 hb
  exact overlaps_of_append ht

variable {υ : Type} [Mib υ]

/-- The roots of two tables do not lead each other. -/
def Apart (u v : υ) : Prop := overlaps (Mib.top u) (Mib.top v) = false

instance : Std.Symm (Apart (υ := υ)) := ⟨fun _ _ h => (overlaps_comm _ _).trans h⟩

theorem arranged_empty : Arranged (empty : MibTree υ).mibs := List.Pairwise.nil

theorem Arranged.apart {mibs : List υ} (h : Arranged mibs) : mibs.Pairwise Apart :=
  h.imp fun huv => huv.2

/-- The same tables can be arranged in one way only. -/
theorem Arranged.eq_of_perm {mibs mibs' : List υ} (h : Arranged mibs) (h' : Arranged mibs')
    (hperm : mibs.Perm mibs') : mibs = mibs' := by
  refine List.Perm.eq_of_pairwise ?_ h h' hperm
  intro u v _ _ huv hvu
  have hback := KeyOrder.asymm huv.1
  rw [hvu.1] at hback
  cases hback

theorem Arranged.ascending {mibs : List υ} (h : Arranged mibs) :
    Ascending (mibs.map Mib.top) := List.pairwise_map.2 (h.imp fun huv => huv.1)

theorem Arranged.length_holders_le {mibs : List υ} (h : Arranged mibs) (oid : Oid) :
    (mibs.filter fun u => oid.startsWith (Mib.top u)).length ≤ 1 := by
  have hsub := List.Pairwise.sublist (List.filter_sublist (p := fun u => oid.startsWith (Mib.top u)))
    h.apart
  have hall : ∀ u ∈ mibs.filter fun u => oid.startsWith (Mib.top u),
      oid.startsWith (Mib.top u) = true := fun u hu => (List.mem_filter.1 hu).2
  revert hsub hall
  cases mibs.filter fun u => oid.startsWith (Mib.top u) with
  | nil => simp
  | cons u rest =>
    cases rest with
    | nil => simp
    | cons v rest =>
      intro hsub hall
      have hapart : overlaps (Mib.top u) (Mib.top v) = false :=
        (List.pairwise_cons.1 hsub).1 v List.mem_cons_self
      rw [overlaps_of_startsWith (hall u (by simp)) (hall v (by simp))] at hapart
      cases hapart

/-! ## One registration -/

/-- Among the tables in the way of `u` the table `v` has the first root. -/
def InWay (mibs : List υ) (u v : υ) : Prop :=
  v ∈ mibs ∧ overlaps (Mib.top v) (Mib.top u) = true ∧
    ∀ w ∈ mibs, overlaps (Mib.top w) (Mib.top u) = true → before (Mib.top w) (Mib.top v) = false

theorem InWay.congr {mibs mibs' : List υ} {u v : υ} (h : InWay mibs u v)
    (hmem : ∀ w, w ∈ mibs ↔ w ∈ mibs') : InWay mibs' u v := by
  obtain ⟨hv, ho, hfirst⟩ := h
  exact ⟨(hmem v).1 hv, ho, fun w hw => hfirst w ((hmem w).2 hw)⟩

theorem find?_eq_some_iff_inWay {mibs : List υ} (h : Arranged mibs) {u v : υ} :
    mibs.find? (fun w => overlaps (Mib.top w) (Mib.top u)) = some v ↔ InWay mibs u v := by
  constructor
  · intro hfind
    obtain ⟨ho, earlier, later, rfl, hnone⟩ := List.find?_eq_some_iff_append.1 hfind
    refine ⟨by simp, ho, fun w hw how => ?_⟩
    rw [List.mem_append, List.mem_cons] at hw
    rcases hw with hw | rfl | hw
    · have hnot := hnone w hw
      rw [how] at hnot
      cases hnot
    · exact KeyOrder.irrefl _
    · obtain ⟨-, htail, -⟩ := List.pairwise_append.1 h
      exact KeyOrder.asymm ((List.pairwise_cons.1 htail).1 w hw).1
  · rintro ⟨hv, ho, hfirst⟩
    cases hfind : mibs.find? fun w => overlaps (Mib.top w) (Mib.top u) with
    | none => exact absurd ho (List.find?_eq_none.1 hfind v hv)
    | some w =>
      obtain ⟨how, earlier, later, rfl, hnone⟩ := List.find?_eq_some_iff_append.1 hfind
      have hw : w ∈ earlier ++ w :: later := by simp
      -- `v` stands where `w` does, since nothing before `w` is in the way and `v` is the first
      rw [List.mem_append, List.mem_cons] at hv
      rcases hv with hv | rfl | hv
      · have hnot := hnone v hv
        rw [ho] at hnot
        cases hnot
      · rfl
      · obtain ⟨-, htail, -⟩ := List.pairwise_append.1 h
        have hwv := ((List.pairwise_cons.1 htail).1 v hv).1
        rw [hfirst w hw how] at hwv
        cases hwv

/-- A refusal names the new table and the first one in its way. -/
theorem register_eq_error_iff {tree : MibTree υ} (h : Arranged tree.mibs) {u : υ} {e : AgentError} :
    tree.register u = .error e ↔ ∃ v, InWay tree.mibs u v ∧
      e = .config (.overlap (Mib.name u) (Mib.top u) (Mib.name v) (Mib.top v)) := by
  simp only [← find?_eq_some_iff_inWay h]
  rw [register]
  cases tree.mibs.find? fun v => overlaps (Mib.top v) (Mib.top u) with
  | none => simp
  | some v => simp [eq_comm]

theorem exists_register {tree : MibTree υ} {u : υ}
    (h : ∀ v ∈ tree.mibs, overlaps (Mib.top v) (Mib.top u) = false) :
    ∃ tree', tree.register u = .ok tree' := ⟨_, register_eq_ok_iff.2 ⟨h, rfl⟩⟩

theorem exists_error_iff {tree : MibTree υ} {u : υ} :
    (∃ e, tree.register u = .error e) ↔
      ∃ v ∈ tree.mibs, overlaps (Mib.top v) (Mib.top u) = true := by
  cases hreg : tree.register u with
  | ok tree' =>
    obtain ⟨hfree, -⟩ := register_eq_ok_iff.1 hreg
    simpa using hfree
  | error e =>
    refine iff_of_true ⟨e, rfl⟩ ?_
    by_contra hnone
    obtain ⟨tree', hok⟩ := exists_register (u := u) fun v hv =>
      Bool.eq_false_iff.2 fun ho => hnone ⟨v, hv, ho⟩
    rw [hreg] at hok
    cases hok

/-! ## Registrations that all succeed -/

theorem registers_perm {us : List υ} {tree tree' : MibTree υ}
    (hreg : us.foldlM register tree = .ok tree') :
    tree'.mibs.Perm (us ++ tree.mibs) ∧ us.Pairwise Apart ∧
      ∀ u ∈ us, ∀ v ∈ tree.mibs, Apart v u := by
  induction us generalizing tree with
  | nil =>
    cases hreg
    exact ⟨.refl _, .nil, fun u hu => absurd hu List.not_mem_nil⟩
  | cons u us ih =>
    rw [List.foldlM_cons] at hreg
    cases hu : tree.register u with
    | error e =>
      rw [hu] at hreg
      cases hreg
    | ok mid =>
      rw [hu] at hreg
      obtain ⟨hperm, hus, hfree⟩ := ih hreg
      obtain ⟨hufree, -⟩ := register_eq_ok_iff.1 hu
      have hmid := perm_of_register hu
      refine ⟨?_, List.pairwise_cons.2 ⟨fun v hv => ?_, hus⟩, ?_⟩
      · exact hperm.trans ((hmid.append_left us).trans List.perm_middle)
      · exact hfree v hv u (hmid.mem_iff.2 List.mem_cons_self)
      · refine List.forall_mem_cons.2 ⟨hufree, fun w hw v hv => ?_⟩
        exact hfree w hw v (hmid.mem_iff.2 (List.mem_cons_of_mem u hv))

theorem exists_registers {us : List υ} {tree : MibTree υ} (hus : us.Pairwise Apart)
    (hfree : ∀ u ∈ us, ∀ v ∈ tree.mibs, Apart v u) :
    ∃ tree', us.foldlM register tree = .ok tree' := by
  induction us generalizing tree with
  | nil => exact ⟨tree, rfl⟩
  | cons u us ih =>
    obtain ⟨hhead, htail⟩ := List.pairwise_cons.1 hus
    obtain ⟨hufree, hrest⟩ := List.forall_mem_cons.1 hfree
    obtain ⟨mid, hu⟩ := exists_register hufree
    have hmid := perm_of_register hu
    obtain ⟨tree', htree'⟩ := ih htail fun w hw v hv => by
      rcases List.mem_cons.1 (hmid.mem_iff.1 hv) with rfl | hv
      · exact hhead w hw
      · exact hrest w hw v hv
    refine ⟨tree', ?_⟩
    rw [List.foldlM_cons, hu]
    exact htree'

/-- Registrations all succeed just when none of the tables is in the way of another. They lead to
the arrangement of all tables. -/
theorem registers_eq_ok_iff {us : List υ} {tree tree' : MibTree υ} (h : Arranged tree.mibs) :
    us.foldlM register tree = .ok tree' ↔
      us.Pairwise Apart ∧ (∀ u ∈ us, ∀ v ∈ tree.mibs, Apart v u) ∧
        Arranged tree'.mibs ∧ tree'.mibs.Perm (us ++ tree.mibs) := by
  constructor
  · intro hreg
    obtain ⟨hperm, hus, hfree⟩ := registers_perm hreg
    exact ⟨hus, hfree, (arranged_of_registers h hreg).1, hperm⟩
  · rintro ⟨hus, hfree, harr, hperm⟩
    obtain ⟨tree'', hreg⟩ := exists_registers hus hfree
    obtain ⟨hperm'', -, -⟩ := registers_perm hreg
    have hsame : tree''.mibs = tree'.mibs :=
      (arranged_of_registers h hreg).1.eq_of_perm harr (hperm''.trans hperm.symm)
    rw [hreg]
    exact congrArg (fun mibs => Except.ok (MibTree.mk mibs)) hsame

/-! ## Registrations that may be refused -/

/-- The tree after a registration. A refusal leaves the tree that was there. -/
def enrol (tree : MibTree υ) (u : υ) : MibTree υ :=
  match tree.register u with
  | .ok tree' => tree'
  | .error _ => tree

/-- The tree after any number of registrations. -/
def enrolAll (tree : MibTree υ) (us : List υ) : MibTree υ := us.foldl enrol tree

theorem arranged_enrol {tree : MibTree υ} (h : Arranged tree.mibs) (u : υ) :
    Arranged (tree.enrol u).mibs := by
  rw [enrol]
  cases hreg : tree.register u with
  | ok tree' => exact arranged_of_register h hreg
  | error e => exact h

theorem arranged_enrolAll {tree : MibTree υ} (h : Arranged tree.mibs) (us : List υ) :
    Arranged (tree.enrolAll us).mibs := by
  induction us generalizing tree with
  | nil => exact h
  | cons u us ih => exact ih (arranged_enrol h u)

theorem enrolAll_of_registers {us : List υ} {tree tree' : MibTree υ}
    (h : us.foldlM register tree = .ok tree') : tree.enrolAll us = tree' := by
  induction us generalizing tree with
  | nil => exact Except.ok.inj h
  | cons u us ih =>
    rw [List.foldlM_cons] at h
    cases hu : tree.register u with
    | error e =>
      rw [hu] at h
      cases h
    | ok mid =>
      rw [hu] at h
      rw [enrolAll, List.foldl_cons, enrol, hu]
      exact ih h

/-- After any registrations, of which some may have been refused, the roots strictly ascend, none
leads another and at most one leads a given object. One more table is refused just when its root
leads a registered one or is led by it; then the tree stays as it is and the error names the first
table in the way, and otherwise the table is put between those with smaller and those with greater
roots. Tables of which none is in the way of another are all accepted, and lead to the same tree in
every order. -/
theorem enrolAll_invariant {us : List υ} {tree : MibTree υ}
    (h : (empty : MibTree υ).enrolAll us = tree) :
    Ascending (tree.mibs.map Mib.top) ∧
    (tree.mibs.Pairwise fun u v =>
      ¬ (Mib.top u).arcs <+: (Mib.top v).arcs ∧ ¬ (Mib.top v).arcs <+: (Mib.top u).arcs) ∧
    (∀ oid : Oid, (tree.mibs.filter fun u => oid.startsWith (Mib.top u)).length ≤ 1) ∧
    (∀ u, (∃ e, tree.register u = .error e) ↔ ∃ v ∈ tree.mibs,
      (Mib.top v).arcs <+: (Mib.top u).arcs ∨ (Mib.top u).arcs <+: (Mib.top v).arcs) ∧
    (∀ u e, tree.register u = .error e → tree.enrol u = tree ∧ ∃ v, InWay tree.mibs u v ∧
      e = .config (.overlap (Mib.name u) (Mib.top u) (Mib.name v) (Mib.top v))) ∧
    (∀ u tree', tree.register u = .ok tree' → tree.enrol u = tree' ∧
      ∃ earlier later, tree.mibs = earlier ++ later ∧ tree'.mibs = earlier ++ u :: later ∧
        (∀ v ∈ earlier, before (Mib.top v) (Mib.top u) = true) ∧
        ∀ v ∈ later, before (Mib.top u) (Mib.top v) = true) ∧
    (∀ vs, us.Perm vs → us.Pairwise Apart →
      us.foldlM register empty = .ok tree ∧ vs.foldlM register empty = .ok tree ∧
        (empty : MibTree υ).enrolAll vs = tree) := by
  have harr : Arranged tree.mibs := h ▸ arranged_enrolAll arranged_empty us
  refine ⟨harr.ascending, ?_, harr.length_holders_le, ?_, ?_, ?_, ?_⟩
  · refine harr.apart.imp fun {u v} hapart => ?_
    rw [← not_or, ← overlaps_iff]
    exact Bool.eq_false_iff.1 hapart
  · intro u
    simp only [exists_error_iff, overlaps_iff]
  · intro u e herror
    refine ⟨?_, (register_eq_error_iff harr).1 herror⟩
    rw [enrol, herror]
  · intro u tree' hreg
    refine ⟨?_, exists_place_of_register harr hreg⟩
    rw [enrol, hreg]
  · intro vs hperm hus
    have hvs : vs.Pairwise Apart := (hperm.pairwise_iff fun h => symm h).1 hus
    have hnone : ∀ u ∈ us, ∀ v ∈ (empty : MibTree υ).mibs, Apart v u :=
      fun _ _ _ hv => absurd hv List.not_mem_nil
    obtain ⟨tree', hreg⟩ := exists_registers hus hnone
    obtain rfl : tree = tree' := h.symm.trans (enrolAll_of_registers hreg)
    obtain ⟨hmembers, -, -⟩ := registers_perm hreg
    have hreg' : vs.foldlM register empty = .ok tree :=
      (registers_eq_ok_iff arranged_empty).2 ⟨hvs, fun u _ v hv => absurd hv List.not_mem_nil, harr,
        hmembers.trans (hperm.append_right _)⟩
    exact ⟨hreg, hreg', enrolAll_of_registers hreg'⟩

/-- Two tables come to the same tree in both orders. A third one whose root leads one of theirs is
refused. -/
theorem enrolAll_invariant_of_leading_root :
    let us : List Mib.Updater := [.forwarding forwardingOfTwo, .routes routesOfOne]
    let tree : MibTree Mib.Updater := ⟨[.routes routesOfOne, .forwarding forwardingOfTwo]⟩
    let leading : Mib.Updater := .overlay ⟨⟨[1, 3, 6, 1, 2, 1, 17]⟩, .fresh .empty, .fresh⟩
    us.Perm us.reverse ∧ us.Pairwise Apart ∧ (empty : MibTree Mib.Updater).enrolAll us = tree ∧
      us.reverse.foldlM register empty = .ok tree ∧
      tree.register leading = .error (.config (.overlap "overlay" ⟨[1, 3, 6, 1, 2, 1, 17]⟩ "fdb"
        Mib.Forwarding.top)) ∧
      tree.enrol leading = tree ∧ ∃ v, InWay tree.mibs leading v := by
  intro us tree leading
  have hperm : us.Perm us.reverse := (List.reverse_perm us).symm
  have hapart : us.Pairwise Apart := by
    show us.Pairwise fun u v => overlaps (Mib.top u) (Mib.top v) = false
    decide
  have htree : (empty : MibTree Mib.Updater).enrolAll us = tree := by
    with_unfolding_all rfl
  obtain ⟨-, -, -, -, hrefused, -, horder⟩ := enrolAll_invariant htree
  have hleading : tree.register leading = .error (.config (.overlap "overlay"
      ⟨[1, 3, 6, 1, 2, 1, 17]⟩ "fdb" Mib.Forwarding.top)) := rfl
  obtain ⟨hsame, v, hv, -⟩ := hrefused leading _ hleading
  exact ⟨hperm, hapart, htree, (horder us.reverse hperm hapart).2.1, hleading, hsame, v, hv⟩

end SwitchMib.Snmp.MibTree
