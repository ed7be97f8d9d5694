import SwitchMib.Mib.Updater
import SwitchMib.Proofs.Snmp.Registration

/-!
# Walks over a tree of tables

A tree answers as if all its tables were one ordered list of objects, although each table finds its
next cell on its own and some cells have no value.

* `Serves`: what the tree relies on of a table; `Serves.reached`: it comes to all its cells.
* `Scans`, `Walks`: the two loops, followed to their ends without a bound on the steps.
* `firstValue_scans`, `walkFrom_walks`: the number of cells is bound enough for both.
* `Scans.isSuccessor`, `seekIn_finds`: the search finds the least object with a value.
* `Walks.exact`: a walk lists every object with a value, in order.
* `getNext_walk_of_registers`: both hold of every tree made by registering tables.
-/

namespace SwitchMib.Snmp
set_option autoImplicit false

open KeyOrder

variable {υ : Type} [Mib υ]

/-- What the tree relies on of a table: its cells are a finite set without the empty
sub-identifier, `next` goes to the least cell above, and only cells have values. -/
structure Serves (u : υ) : Prop where
  nil_not_mem : [] ∉ Mib.cells u
  next_isSuccessor : ∀ sub, IsSuccessor (· ∈ Mib.cells u) sub (Mib.next u sub)
  mem_of_value : ∀ sub v, Mib.valueAt u sub = some v → sub ∈ Mib.cells u

theorem Serves.of_index {ν : Type} {u : υ} (index : SubIdIndex ν) (hnil : [] ∉ index.keys)
    (hcells : Mib.cells u = index.keys) (hnext : ∀ sub, Mib.next u sub = index.above? sub)
    (hvalue : ∀ sub v, Mib.valueAt u sub = some v → (index.get? sub).isSome) : Serves u where
  nil_not_mem := hcells ▸ hnil
  next_isSuccessor sub := by
    rw [hcells, hnext]
    exact index.above?_isSuccessor sub
  mem_of_value sub v h := by
    rw [hcells, Dict.mem_keys_iff]
    exact hvalue sub v h

/-- Asked for the next cell again and again, a table comes to each of its cells above the start. -/
theorem Serves.reached {u : υ} (hu : Serves u) {start sub : SubId} (hsub : sub ∈ Mib.cells u)
    (hstart : before start sub = true) :
    Relation.TransGen (fun a b => Mib.next u a = some b) start sub := by
  -- every step leaves fewer cells above
  induction hn : (keysAbove (Mib.cells u) start).length using Nat.strongRecOn generalizing start with
  | ind n ih =>
    have hleast := hu.next_isSuccessor start
    cases hnext : Mib.next u start with
    | none =>
      rw [hnext] at hleast
      have hnot := hleast sub hsub
      rw [hstart] at hnot
      cases hnot
    | some mid =>
      rw [hnext] at hleast
      by_cases hmid : mid = sub
      · subst hmid
        exact Relation.TransGen.single hnext
      · have hbefore : before mid sub = true :=
          before_of_not_before_of_ne (hleast.2.2 sub hsub hstart) hmid
        have hfewer := length_keysAbove_lt hleast.1 hleast.2.1
        have hlater := ih _ (hn ▸ hfewer) hbefore rfl
        have hstep : Relation.TransGen (fun a b => Mib.next u a = some b) start mid :=
          Relation.TransGen.single hnext
        exact hstep.trans hlater

/-! ## Passing over cells without a value -/

/-- `Scans u cursor r`: going from cell to cell after `cursor`, the first one with a value is `r`;
`r` is nothing when the cells end before. -/
inductive Scans (u : υ) : SubId → Option (SubId × Value) → Prop where
  | ended {cursor : SubId} : Mib.next u cursor = none → Scans u cursor none
  | found {cursor sub : SubId} {v : Value} : Mib.next u cursor = some sub →
      Mib.valueAt u sub = some v → Scans u cursor (some (sub, v))
  | passed {cursor sub : SubId} {r : Option (SubId × Value)} : Mib.next u cursor = some sub →
      Mib.valueAt u sub = none → Scans u sub r → Scans u cursor r

namespace Scans

variable {u : υ} {cursor : SubId} {r : Option (SubId × Value)}

theorem isSuccessor (hu : Serves u) (h : Scans u cursor r) :
    IsSuccessor (fun sub => ∃ v, Mib.valueAt u sub = some v) cursor (r.map (·.1)) := by
  induction h with
  | @ended cursor hnext =>
    have hnone := hu.next_isSuccessor cursor
    rw [hnext] at hnone
    rintro j ⟨v, hv⟩
    exact hnone j (hu.mem_of_value j v hv)
  | @found cursor sub v hnext hval =>
    have hsome := hu.next_isSuccessor cursor
    rw [hnext] at hsome
    refine ⟨⟨v, hval⟩, hsome.2.1, ?_⟩
    rintro j ⟨w, hw⟩ hj
    exact hsome.2.2 j (hu.mem_of_value j w hw) hj
  | @passed cursor sub r hnext hval _ ih =>
    have hsome := hu.next_isSuccessor cursor
    rw [hnext] at hsome
    -- the cell passed over has no value, so the cells with one lie above both or above neither
    refine ih.of_start ?_
    rintro j ⟨w, hw⟩
    have hne : sub ≠ j := by
      rintro rfl
      rw [hval] at hw
      cases hw
    cases hj : before cursor j with
    | true =>
      have hjs : before j sub = false := hsome.2.2 j (hu.mem_of_value j w hw) hj
      exact (before_of_not_before_of_ne hjs hne).symm
    | false =>
      cases hsj : before sub j with
      | false => rfl
      | true =>
        rw [KeyOrder.trans hsome.2.1 hsj] at hj
        cases hj

theorem value {sub : SubId} {v : Value} (h : Scans u cursor r) (hr : r = some (sub, v)) :
    Mib.valueAt u sub = some v := by
  induction h with
  | ended _ => cases hr
  | found _ hval =>
    cases hr
    exact hval
  | passed _ _ _ ih => exact ih hr

end Scans

/-- As many steps as there are cells above suffice to follow the scan to its end. -/
theorem firstValue_scans {u : υ} (hu : Serves u) {steps : Nat} {cursor : SubId}
    (hsteps : (keysAbove (Mib.cells u) cursor).length < steps) :
    ∃ r, Scans u cursor r ∧
      (firstValue u steps cursor).answer = r.map fun p => ((Mib.top u).append p.1, p.2) := by
  induction steps generalizing cursor with
  | zero => exact absurd hsteps (Nat.not_lt_zero _)
  | succ steps ih =>
    rw [firstValue]
    cases hnext : Mib.next u cursor with
    | none => exact ⟨none, Scans.ended hnext, rfl⟩
    | some sub =>
      cases hval : Mib.valueAt u sub with
      | some v => exact ⟨some (sub, v), Scans.found hnext hval, by simp [hval]⟩
      | none =>
        have hsome := hu.next_isSuccessor cursor
        rw [hnext] at hsome
        have hfewer := length_keysAbove_lt hsome.1 hsome.2.1
        have hleft : (keysAbove (Mib.cells u) sub).length < steps := by omega
        obtain ⟨r, hscan, hr⟩ := ih hleft
        exact ⟨r, Scans.passed hnext hval hscan, by simpa [hval] using hr⟩

/-! ## The least object with a value -/

/-- `Finds P oid answer`: the answer is the least object above `oid` for which `P` gives a value,
with such a value. -/
def Finds (P : Oid → Value → Prop) (oid : Oid) (answer : Option (Oid × Value)) : Prop :=
  IsSuccessor (fun o => ∃ v, P o v) oid (answer.map (·.1)) ∧
    ∀ o v, answer = some (o, v) → P o v

namespace Finds

variable {P Q : Oid → Value → Prop} {oid : Oid}

theorem congr {answer : Option (Oid × Value)} (h : Finds P oid answer)
    (hPQ : ∀ o v, P o v ↔ Q o v) : Finds Q oid answer := by
  refine ⟨h.1.congr fun o _ => ?_, fun o v ho => (hPQ o v).1 (h.2 o v ho)⟩
  simp only [hPQ]

theorem or_left {o : Oid} {v : Value} (h : Finds P oid (some (o, v)))
    (hQ : ∀ x w, Q x w → before o x = true) :
    Finds (fun x w => P x w ∨ Q x w) oid (some (o, v)) := by
  have hleft := h.1.or_left (Q := fun x => ∃ w, Q x w) (by
    rintro j ⟨w, hw⟩ _
    exact KeyOrder.asymm (hQ j w hw))
  refine ⟨hleft.congr fun x _ => exists_or.symm, fun x w hx => Or.inl (h.2 x w hx)⟩

theorem or_right {answer : Option (Oid × Value)} (h : Finds P oid none)
    (hQ : Finds Q oid answer) : Finds (fun x w => P x w ∨ Q x w) oid answer :=
  ⟨(h.1.or_right hQ.1).congr fun _ _ => exists_or.symm, fun x w hx => Or.inr (hQ.2 x w hx)⟩

end Finds

namespace MibTree

/-! ## From table to table -/

/-- Where a search for what comes after `oid` enters a table, if it has not passed it. -/
def startIn (oid : Oid) (u : υ) : Option SubId :=
  match oid.below? (Mib.top u) with
  | some sub => some sub
  | none => if before oid (Mib.top u) then some [] else none

theorem seekIn_cons (oid : Oid) (u : υ) (mibs : List υ) :
    seekIn oid (u :: mibs) =
      match startIn oid u with
      | none => seekIn oid mibs
      | some start =>
        let found := firstValue u ((Mib.cells u).length + 1) start
        match found.answer with
        | some _ => found
        | none => ⟨(seekIn oid mibs).answer, found.reads ++ (seekIn oid mibs).reads⟩ := rfl

theorem not_before_of_passed {oid : Oid} {u : υ} (h : startIn oid u = none) (sub : SubId) :
    before oid ((Mib.top u).append sub) = false := by
  unfold startIn at h
  cases hb : oid.below? (Mib.top u) with
  | some s => simp [hb] at h
  | none =>
    cases ho : before oid (Mib.top u) with
    | true => simp [hb, ho] at h
    | false => exact KeyOrder.asymm (Oid.append_before_of_not_before hb ho sub)

theorem before_append_of_startIn {oid : Oid} {u : υ} {start sub : SubId}
    (h : startIn oid u = some start) (hsub : sub ≠ []) :
    before oid ((Mib.top u).append sub) = before start sub := by
  unfold startIn at h
  cases hb : oid.below? (Mib.top u) with
  | some s =>
    simp only [hb, Option.some.injEq] at h
    rw [Oid.below?_eq_some_iff.1 hb, Oid.before_append_append, h]
  | none =>
    cases ho : before oid (Mib.top u) with
    | true =>
      simp only [hb, ho, if_true, Option.some.injEq] at h
      rw [Oid.before_append_of_before ho, ← h, before_nil_left.2 hsub]
    | false => simp [hb, ho] at h

theorem firstValue_finds {u : υ} (hu : Serves u) {oid : Oid} {start : SubId}
    (h : startIn oid u = some start) :
    Finds (ShowsIn u) oid (firstValue u ((Mib.cells u).length + 1) start).answer := by
  obtain ⟨r, hscan, hr⟩ := firstValue_scans hu
    (Nat.lt_succ_of_le (length_keysAbove_le (Mib.cells u) start))
  rw [hr]
  constructor
  · have hmap := (hscan.isSuccessor hu).map (f := (Mib.top u).append)
      (Oid.before_append_append (Mib.top u))
    have hhere : IsSuccessor (fun o => ∃ v, ShowsIn u o v) ((Mib.top u).append start)
        ((r.map (·.1)).map (Mib.top u).append) := by
      refine hmap.congr fun o _ => ⟨?_, ?_⟩
      · rintro ⟨sub, ⟨v, hv⟩, rfl⟩
        exact ⟨v, sub, rfl, hv⟩
      · rintro ⟨v, sub, rfl, hv⟩
        exact ⟨sub, ⟨v, hv⟩, rfl⟩
    rw [Option.map_map] at hhere ⊢
    refine hhere.of_start ?_
    rintro o ⟨v, sub, rfl, hv⟩
    have hsub : sub ≠ [] := fun e => hu.nil_not_mem (e ▸ hu.mem_of_value sub v hv)
    rw [before_append_of_startIn h hsub, Oid.before_append_append]
  · intro o v ho
    obtain ⟨⟨sub, w⟩, hp, he⟩ := Option.map_eq_some_iff.1 ho
    obtain ⟨rfl, rfl⟩ := Prod.mk.inj he
    exact ⟨sub, rfl, hscan.value hp⟩

/-- The search over arranged tables finds the least of all their objects after `oid`. -/
theorem seekIn_finds {mibs : List υ} (harr : Arranged mibs) (hs : ∀ u ∈ mibs, Serves u)
    (oid : Oid) : Finds (Shows mibs) oid (seekIn oid mibs).answer := by
  induction mibs with
  | nil =>
    refine ⟨IsSuccessor.none_of_forall ?_, fun o v h => by simp [seekIn] at h⟩
    rintro o ⟨v, u, hu, -⟩
    exact List.not_mem_nil hu
  | cons u mibs ih =>
    have hlater := ih (List.pairwise_cons.1 harr).2 fun w hw => hs w (List.mem_cons_of_mem u hw)
    rw [seekIn_cons]
    cases hstart : startIn oid u with
    | none =>
      have hpassed : Finds (ShowsIn u) oid none := by
        refine ⟨?_, fun o v h => by cases h⟩
        rintro o ⟨v, sub, rfl, -⟩
        exact not_before_of_passed hstart sub
      exact (hpassed.or_right hlater).congr fun o v => shows_cons.symm
    | some start =>
      have hhere := firstValue_finds (hs u List.mem_cons_self) hstart
      cases hanswer : (firstValue u ((Mib.cells u).length + 1) start).answer with
      | none =>
        rw [hanswer] at hhere
        simp only [hanswer]
        exact (hhere.or_right hlater).congr fun o v => shows_cons.symm
      | some p =>
        rw [hanswer] at hhere
        simp only [hanswer]
        refine (hhere.or_left ?_).congr fun o v => shows_cons.symm
        intro x w hx
        obtain ⟨sub, hsub, -⟩ := hhere.2 p.1 p.2 rfl
        rw [hsub]
        exact append_before_of_shows harr sub hx

theorem getNext_finds {tree : MibTree υ} (harr : Arranged tree.mibs)
    (hs : ∀ u ∈ tree.mibs, Serves u) (oid : Oid) :
    Finds (fun o v => tree.get o = some v) oid (tree.getNext oid) :=
  (seekIn_finds harr hs oid).congr fun _ _ => (get_eq_some_iff harr).symm

/-! ## The whole walk -/

/-- `Walks tree cursor rows`: asked for the next object again and again from `cursor` on, the tree
answers with `rows` and then with nothing. -/
inductive Walks (tree : MibTree υ) : Oid → List (Oid × Value) → Prop where
  | ended {cursor : Oid} : tree.getNext cursor = none → Walks tree cursor []
  | went {cursor oid : Oid} {v : Value} {rows : List (Oid × Value)} :
      tree.getNext cursor = some (oid, v) → Walks tree oid rows →
      Walks tree cursor ((oid, v) :: rows)

/-- The cells of all tables as identifiers. -/
def objects (tree : MibTree υ) : List Oid :=
  tree.mibs.flatMap fun u => (Mib.cells u).map (Mib.top u).append

theorem length_objects (tree : MibTree υ) : tree.objects.length = tree.cellCount := by
  simp [objects, cellCount, List.length_flatMap]

theorem mem_objects_of_shows {tree : MibTree υ} (hs : ∀ u ∈ tree.mibs, Serves u) {oid : Oid}
    {v : Value} (h : Shows tree.mibs oid v) : oid ∈ tree.objects := by
  obtain ⟨u, hu, sub, rfl, hv⟩ := h
  exact List.mem_flatMap.2 ⟨u, hu, List.mem_map.2 ⟨sub, (hs u hu).mem_of_value sub v hv, rfl⟩⟩

/-- As many steps as there are objects above suffice to follow the walk to its end. -/
theorem walkFrom_walks {tree : MibTree υ} (harr : Arranged tree.mibs)
    (hs : ∀ u ∈ tree.mibs, Serves u) {steps : Nat} {cursor : Oid}
    (hsteps : (keysAbove tree.objects cursor).length < steps) :
    Walks tree cursor (tree.walkFrom steps cursor).1 := by
  induction steps generalizing cursor with
  | zero => exact absurd hsteps (Nat.not_lt_zero _)
  | succ steps ih =>
    rw [walkFrom]
    cases hnext : (tree.seek cursor).answer with
    | none => exact Walks.ended hnext
    | some p =>
      obtain ⟨oid, v⟩ := p
      obtain ⟨hleast, hshows⟩ := seekIn_finds harr hs cursor
      rw [seek] at hnext
      rw [hnext] at hleast hshows
      have hmem := mem_objects_of_shows hs (hshows oid v rfl)
      have hfewer := length_keysAbove_lt hmem hleast.2.1
      exact Walks.went hnext (ih (by omega))

/-- A walk lists the objects above its start that have a value, in order. -/
theorem Walks.exact {tree : MibTree υ}
    (hfinds : ∀ oid, Finds (fun o v => tree.get o = some v) oid (tree.getNext oid))
    {cursor : Oid} {rows : List (Oid × Value)} (h : Walks tree cursor rows) :
    rows.Pairwise (fun a b => before a.1 b.1 = true) ∧
      ∀ o v, (o, v) ∈ rows ↔ before cursor o = true ∧ tree.get o = some v := by
  induction h with
  | @ended cursor hnext =>
    have hnone := hfinds cursor
    rw [hnext] at hnone
    refine ⟨List.Pairwise.nil, fun o v => iff_of_false List.not_mem_nil ?_⟩
    rintro ⟨hb, hv⟩
    have hnot := hnone.1 o ⟨v, hv⟩
    rw [hb] at hnot
    cases hnot
  | @went cursor oid v rows hnext _ ih =>
    have hsome := hfinds cursor
    rw [hnext] at hsome
    have hval := hsome.2 oid v rfl
    obtain ⟨-, habove, hleast⟩ := hsome.1
    obtain ⟨hsorted, hrows⟩ := ih
    constructor
    · exact List.pairwise_cons.2 ⟨fun p hp => ((hrows p.1 p.2).1 hp).1, hsorted⟩
    · intro o w
      rw [List.mem_cons, hrows, Prod.mk.injEq]
      constructor
      · rintro (⟨rfl, rfl⟩ | ⟨hb, hw⟩)
        · exact ⟨habove, hval⟩
        · exact ⟨KeyOrder.trans habove hb, hw⟩
      · rintro ⟨hb, hw⟩
        by_cases ho : o = oid
        · subst ho
          rw [hval] at hw
          exact Or.inl ⟨rfl, (Option.some.inj hw).symm⟩
        · have hnot : before o oid = false := hleast o ⟨w, hw⟩ hb
          exact Or.inr ⟨before_of_not_before_of_ne hnot (Ne.symm ho), hw⟩

theorem before_root_of_get {tree : MibTree υ} (harr : Arranged tree.mibs)
    (hs : ∀ u ∈ tree.mibs, Serves u) {oid : Oid} {v : Value} (h : tree.get oid = some v) :
    before Oid.root oid = true := by
  obtain ⟨u, hu, sub, rfl, hv⟩ := (get_eq_some_iff harr).1 h
  have hsub : sub ≠ [] := fun e => (hs u hu).nil_not_mem (e ▸ (hs u hu).mem_of_value sub v hv)
  refine before_nil_left.2 ?_
  simp [Oid.append, hsub]

/-- In a tree of registered tables GET-NEXT finds the least object above any identifier that GET
has a value for, with that value, and nothing where there is none; and the walk comes to an end,
in strictly increasing order, having listed exactly the objects that GET has values for. -/
theorem getNext_walk_of_registers {us : List υ} {tree : MibTree υ}
    (hreg : us.foldlM register empty = .ok tree) (hs : ∀ u ∈ us, Serves u) :
    (∀ oid, Finds (fun o v => tree.get o = some v) oid (tree.getNext oid)) ∧
      Walks tree Oid.root tree.walk ∧
      tree.walk.Pairwise (fun a b => before a.1 b.1 = true) ∧
      ∀ o v, (o, v) ∈ tree.walk ↔ tree.get o = some v := by
  have hnone : Arranged (empty : MibTree υ).mibs := List.Pairwise.nil
  obtain ⟨harr, hmem⟩ := arranged_of_registers hnone hreg
  have hserves : ∀ u ∈ tree.mibs, Serves u := by
    intro u hu
    rcases (hmem u).1 hu with hu | hu
    · exact hs u hu
    · exact absurd hu List.not_mem_nil
  have hfinds := getNext_finds harr hserves
  have hsteps : (keysAbove tree.objects Oid.root).length < tree.cellCount + 1 := by
    have := length_keysAbove_le tree.objects Oid.root
    rw [length_objects] at this
    omega
  have hwalks : Walks tree Oid.root tree.walk := walkFrom_walks harr hserves hsteps
  obtain ⟨hsorted, hrows⟩ := hwalks.exact hfinds
  refine ⟨hfinds, hwalks, hsorted, fun o v => (hrows o v).trans ?_⟩
  exact and_iff_right_of_imp (before_root_of_get harr hserves)

/-- A forwarding table of two rows. The index in the first is too large to be shown. -/
def forwardingOfTwo : Mib.Forwarding where
  identity := .empty
  cell := ⟨Dict.ofList [([1, 0, 17, 34, 51, 68, 85], 2147483648), ([20, 0, 17, 34, 51, 68, 85], 5)],
    .seeded⟩
  warned := .fresh
  bridgePortsWarned := .fresh

/-- A default route with one next hop. -/
def routesOfOne : Mib.Routes :=
  ⟨Dict.ofList [([0, 0, 0, 0, 0, 0, 0, 0, 10, 0, 0, 1], Net.Ipv4Block.everything.network)], .seeded⟩

/-- The walk over two tables enters them in the order of their roots, whichever was registered
first, and passes over the row without a value. -/
theorem getNext_walk_of_two_tables :
    let us : List Mib.Updater := [.forwarding forwardingOfTwo, .routes routesOfOne]
    let tree : MibTree Mib.Updater := ⟨[.routes routesOfOne, .forwarding forwardingOfTwo]⟩
    us.foldlM register empty = .ok tree ∧ (∀ u ∈ us, Serves u) ∧
      tree.walk.map (·.1) =
        [⟨[1, 3, 6, 1, 2, 1, 4, 24, 4, 1, 1, 0, 0, 0, 0, 0, 0, 0, 0, 10, 0, 0, 1]⟩,
          ⟨[1, 3, 6, 1, 2, 1, 17, 7, 1, 2, 2, 1, 2, 20, 0, 17, 34, 51, 68, 85]⟩] ∧
      (∀ oid, Finds (fun o v => tree.get o = some v) oid (tree.getNext oid)) ∧
      ∀ o v, (o, v) ∈ tree.walk ↔ tree.get o = some v := by
  intro us tree
  have hreg : us.foldlM register empty = .ok tree := by with_unfolding_all rfl
  have hs : ∀ u ∈ us, Serves u := by
    intro u hu
    rcases List.mem_cons.1 hu with rfl | hu
    · refine Serves.of_index forwardingOfTwo.cell.current (by decide) rfl (fun _ => rfl) ?_
      intro sub v hv
      obtain ⟨index, hindex, -⟩ := Option.bind_eq_some_iff.1 hv
      rw [hindex]
      rfl
    · obtain rfl := List.mem_singleton.1 hu
      refine Serves.of_index routesOfOne.cell.current (by decide) rfl (fun _ => rfl) ?_
      intro sub v hv
      obtain ⟨hop, hhop, -⟩ := Option.map_eq_some_iff.1 hv
      rw [hhop]
      rfl
  have hall := getNext_walk_of_registers hreg hs
  exact ⟨hreg, hs, by decide, hall.1, hall.2.2.2⟩

end MibTree

end SwitchMib.Snmp
