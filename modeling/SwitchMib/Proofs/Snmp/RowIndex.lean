import Mathlib.Data.List.Basic
import Mathlib.Data.List.Nodup
import SwitchMib.Proofs.Bisect
import SwitchMib.Proofs.Dict
import SwitchMib.Snmp.RowIndex

/-!
# An index is the ordered map of its rows

Binary search is only right on a vector that is in order, and the vector is only in order because
binary search put every key at its place. So one insertion is followed through both halves of an
index at once.

* `HashOrder.sort_keys`: the order in which a hash map lists its keys does not survive the sort.
* `RowIndex.ofDict`: the index with given rows. `RowIndex.insert_ofDict`,
  `RowIndex.successor_ofDict`, `RowIndex.rows_ofDict`: it does what the finite map does.
* `RowIndex.Indexes`, `RowIndex.insertAll_indexes`: an index as the ordered map of the rows.
-/

namespace SwitchMib
set_option autoImplicit false

open KeyOrder

namespace Snmp

namespace HashOrder

/-- Sorting the keys of a map takes them out of the order in which a hash map lists them. -/
theorem sort_keys {ν : Type} (order : HashOrder ν) (d : Dict SubId ν) :
    ((order.keys d).mergeSort fun a b => !before b a) = d.keys := by
  have hsorted : InOrder ((order.keys d).mergeSort fun a b => !before b a) := by
    refine List.Pairwise.imp (fun hab => by simpa using hab)
      (List.pairwise_mergeSort (fun a b c hab hbc => ?_) (fun a b => ?_) _)
    · rw [Bool.not_eq_true'] at hab hbc ⊢
      exact not_before_trans hab hbc
    · cases hba : before b a with
      | true => simp [KeyOrder.asymm hba]
      | false => rfl
  have hperm := (List.mergeSort_perm (order.keys d) fun a b => !before b a).trans (order.perm d)
  exact (d.keys_ascending.eq_of_perm hsorted hperm.symm).symm

end HashOrder

namespace RowIndex

variable {ν : Type}

/-- The index that holds the rows of a map. -/
def ofDict (d : SubIdIndex ν) : RowIndex ν := ⟨d, d.keys⟩

theorem insert_ofDict (d : SubIdIndex ν) (sub : SubId) (value : ν) :
    (ofDict d).insert sub value = ofDict (d.insert sub value) := by
  have hkeys : Ascending (ofDict d).sorted := d.keys_ascending
  have hkeys' := (d.insert sub value).keys_ascending
  have hsorted : ((ofDict d).insert sub value).sorted = (d.insert sub value).keys := by
    unfold insert
    dsimp only
    cases hi : bisect (fun row => KeyOrder.compare row sub) (ofDict d).sorted with
    -- The hash map replaces the value, and the vector stays.
    | ok i =>
      refine hkeys.ext hkeys' fun k => ?_
      rw [Dict.mem_keys_insert]
      refine ⟨Or.inr, ?_⟩
      rintro (rfl | hk)
      · exact mem_of_bisect hkeys hi
      · exact hk
    | error i =>
      have hgap := found_bisect (hkeys.rising_compare sub)
      rw [hi] at hgap
      refine (hgap.ascending_insertIdx hkeys).ext hkeys' fun k => ?_
      rw [List.mem_insertIdx hgap.bound, Dict.mem_keys_insert]
      rfl
  exact congrArg (RowIndex.mk (d.insert sub value)) hsorted

theorem insertAll_ofDict (d : SubIdIndex ν) (rows : List (SubId × ν)) :
    (ofDict d).insertAll rows = ofDict (d.insertAll rows) := by
  induction rows generalizing d with
  | nil => rfl
  | cons row rows ih =>
    rw [Dict.insertAll_cons, ← ih, ← insert_ofDict]
    rfl

theorem insertAll_empty (rows : List (SubId × ν)) :
    empty.insertAll rows = ofDict (Dict.ofList rows) := by
  rw [Dict.ofList_eq_insertAll]
  exact insertAll_ofDict Dict.empty rows

theorem ofRows_eq (order : HashOrder ν) (rows : List (SubId × ν)) :
    ofRows order rows = ofDict (Dict.ofList rows) := by
  rw [ofRows, order.sort_keys, Dict.ofList_eq_insertAll]
  rfl

theorem successor_ofDict (d : SubIdIndex ν) (sub : SubId) :
    (ofDict d).successor sub = d.above? sub :=
  d.keys_ascending.inOrder.getElem?_partitionPoint sub

theorem rows_ofDict (d : SubIdIndex ν) : (ofDict d).rows = d.toList := by
  have hrow : ∀ row ∈ d.toList, (d.get? row.1).map (row.1, ·) = some row := fun row hrow => by
    rw [Dict.mem_toList_iff.1 hrow]
    rfl
  calc (ofDict d).rows = d.toList.filterMap fun row => (d.get? row.1).map (row.1, ·) := by
        rw [rows, ofDict, Dict.keys, List.filterMap_map]
        rfl
    _ = d.toList.filterMap some := List.filterMap_congr hrow
    _ = d.toList := List.filterMap_some

/-- An index of rows: their sub-identifiers in walk order, once each, and for each of them the value
of its last row. -/
structure Indexes (rows : List (SubId × ν)) (index : RowIndex ν) : Prop where
  ascending : Ascending index.keys
  mem_keys_iff : ∀ k, k ∈ index.keys ↔ k ∈ rows.map Prod.fst
  lookup_eq_some_iff : ∀ k v, index.lookup k = some v ↔
    ∃ earlier later, rows = earlier ++ (k, v) :: later ∧ k ∉ later.map Prod.fst
  successor : ∀ s, IsSuccessor (· ∈ rows.map Prod.fst) s (index.successor s)
  size_eq : index.size = index.keys.length
  isEmpty_iff : index.isEmpty = true ↔ index.keys = []
  keys_rows : index.rows.map Prod.fst = index.keys
  mem_rows_iff : ∀ k v, (k, v) ∈ index.rows ↔ index.lookup k = some v
  isSome_lookup : ∀ k ∈ index.keys, (index.lookup k).isSome

theorem indexes_ofDict (rows : List (SubId × ν)) : Indexes rows (ofDict (Dict.ofList rows)) where
  ascending := Dict.keys_ascending _
  mem_keys_iff k := Dict.mem_keys_ofList_iff
  lookup_eq_some_iff k v := by
    rw [lookup, ofDict, Dict.get?_ofList]
    exact Bindings.last?_eq_some_iff
  successor s := by
    rw [successor_ofDict]
    exact (Dict.above?_isSuccessor _ s).congr fun k _ => Dict.mem_keys_ofList_iff
  size_eq := rfl
  isEmpty_iff := List.isEmpty_iff
  keys_rows := by
    rw [rows_ofDict]
    rfl
  mem_rows_iff k v := by
    rw [rows_ofDict]
    exact Dict.mem_toList_iff
  isSome_lookup k hk := Dict.mem_keys_iff.1 hk

theorem ofList_eq_of_perm {rows rows' : List (SubId × ν)} (h : rows.Perm rows')
    (hrows : (rows.map Prod.fst).Nodup) : Dict.ofList rows' = Dict.ofList rows := by
  have hsole : ∀ k v v', (k, v) ∈ rows → (k, v') ∈ rows → v = v' := fun k v v' hv hv' =>
    congrArg Prod.snd (List.inj_on_of_nodup_map hrows hv hv' rfl)
  refine Dict.ext_get? fun k => Option.ext fun v => ?_
  have hsole' : ∀ v v', (k, v) ∈ rows' → (k, v') ∈ rows' → v = v' := fun v v' hv hv' =>
    hsole k v v' (h.mem_iff.2 hv) (h.mem_iff.2 hv')
  rw [Dict.get?_ofList, Dict.get?_ofList, Bindings.last?_eq_some_iff_mem (hsole k),
    Bindings.last?_eq_some_iff_mem hsole', h.mem_iff]

/-- Rows that are entered in turn, each where a binary search puts it, give the same index as rows
that are collected and sorted, and it is the ordered map of the rows. Where no two rows have one
sub-identifier, their order does not matter. -/
theorem insertAll_indexes (order : HashOrder ν) (rows : List (SubId × ν)) :
    empty.insertAll rows = ofRows order rows ∧ Indexes rows (empty.insertAll rows) ∧
      ((rows.map Prod.fst).Nodup → ∀ rows', rows.Perm rows' → ∀ order',
        empty.insertAll rows' = empty.insertAll rows ∧
          ofRows order' rows' = empty.insertAll rows) := by
  refine ⟨?_, ?_, fun hdistinct rows' hperm order' => ?_⟩
  · rw [insertAll_empty, ofRows_eq]
  · rw [insertAll_empty]
    exact indexes_ofDict rows
  · rw [insertAll_empty, insertAll_empty, ofRows_eq, ofList_eq_of_perm hperm hdistinct]
    exact ⟨rfl, rfl⟩

/-- Three rows of a neighbour table. -/
def neighbourRows : List (SubId × String) :=
  [([5, 10, 0, 0, 2], "b"), ([1, 10, 0, 0, 1], "a"), ([5, 10, 0, 0, 10], "c")]

theorem insertAll_indexes_of_three :
    (neighbourRows.map Prod.fst).Nodup ∧ neighbourRows.Perm neighbourRows.reverse ∧
      (ofRows default neighbourRows).keys =
        [[1, 10, 0, 0, 1], [5, 10, 0, 0, 2], [5, 10, 0, 0, 10]] ∧
      ofRows default neighbourRows.reverse = empty.insertAll neighbourRows := by
  have hdistinct : (neighbourRows.map Prod.fst).Nodup := by decide
  have hperm := (List.reverse_perm neighbourRows).symm
  refine ⟨hdistinct, hperm, ?_, ?_⟩
  · rw [ofRows_eq]
    decide
  · exact ((insertAll_indexes default neighbourRows).2.2 hdistinct _ hperm default).2

end RowIndex

end Snmp

end SwitchMib
