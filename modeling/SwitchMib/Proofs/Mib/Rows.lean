import SwitchMib.Mib.Interfaces
import SwitchMib.Proofs.Dict
import SwitchMib.Proofs.Log

/-!
# What the rows of the interface table are read from

A snapshot is filled by loops over the identity. Seen from the store, a row has the settings of the
interface that is shown at its index, and a counter is read under the key of its object.

* `InterfaceSnapshot.shownAt`, `InterfaceSnapshot.get?_rows`: the row at an index.
* `InterfaceSnapshot.counterOf`: a counter as the store has it, with `portCounter_read`,
  `vlanCounter_read` and `rifErrors_read` for the counters of a snapshot.
* `InterfaceSnapshot.rowColumn_congr`: what the columns of a row depend on.
-/

namespace SwitchMib
set_option autoImplicit false

theorem Bindings.last?_map {κ ν μ : Type} [KeyOrder κ] (k : κ) (f : ν → μ) (l : List (κ × ν)) :
    last? k (l.map fun p => (p.1, f p.2)) = (last? k l).map f := by
  induction l with
  | nil => rfl
  | cons p l ih =>
    rw [List.map_cons, last?, ih, last?]
    cases last? k l with
    | some v => rfl
    | none => cases KeyOrder.same k p.1 <;> rfl

namespace Mib.InterfaceSnapshot

open Identity Store

variable (n : Namespaces) (identity : InterfaceMaps)

/-! ## Rows -/

/-- The interface that is shown at an index. -/
def shownAt (i : UInt32) : Option (RowKind × String) := Bindings.last? i (named identity)

theorem shownAt_eq (i : UInt32) :
    shownAt identity i =
      ((identity.management.nameByIndex.get? i).map (RowKind.management, ·)).or
        (((identity.vlans.nameByIndex.get? i).map (RowKind.vlan, ·)).or
          (((identity.lags.lagByIndex.get? i).map (RowKind.lag, ·)).or
            ((identity.ports.nameByIndex.get? i).map (RowKind.port, ·)))) := by
  have hpart : ∀ (d : Dict UInt32 String) (kind : RowKind),
      Bindings.last? i (d.toList.map fun p => (p.1, kind, p.2)) = (d.get? i).map (kind, ·) := by
    intro d kind
    rw [Bindings.last?_map i (kind, ·), Bindings.last?_of_sorted d.sorted]
    rfl
  rw [shownAt, named, Bindings.last?_append, Bindings.last?_append, Bindings.last?_append, hpart,
    hpart, hpart, hpart]

/-- The row of an interface, with the settings that are read for it. -/
def rowOf (shown : RowKind × String) : InterfaceRow :=
  ⟨shown.1, shown.2, (readEntry n shown.1 shown.2).value⟩

theorem get?_rows (i : UInt32) :
    (read n identity).value.rows.get? i = (shownAt identity i).map (rowOf n) := by
  have hrows : (read n identity).value.rows = (named identity).foldl
      (fun rows item => rows.insert item.1 (rowOf n item.2)) Dict.empty :=
    Logged.value_foldlM (addRow n) Dict.empty (named identity)
  have hget := Dict.get?_foldl_insert (ρ := Dict UInt32 InterfaceRow) id
    (fun item : UInt32 × RowKind × String => some (item.1, rowOf n item.2)) (fun _ _ => rfl)
    (named identity) Dict.empty i
  rw [hrows]
  refine hget.trans (Option.or_none.trans ?_)
  rw [shownAt, ← Bindings.last?_map, List.filterMap_eq_map']

/-! ## Counters -/

/-- A counter of an object, if there is an object and it has the counter. -/
def counterOf (id? : Option String) (counter : String) : Option UInt64 :=
  id?.bind fun id => counterIn (n.getAll .counters (Schema.counterKey id)).value counter

/-- A loop that reads an object unless it has been read has read every object after it. -/
theorem get?_foldl_read {f : String → Fields}
    {step : Dict String Fields → String → Dict String Fields}
    (hstep : ∀ d id, step d id = d.insert id (f id) ∨ d.contains id = true ∧ step d id = d)
    {ids : List String} {d : Dict String Fields}
    (hd : ∀ id fields, d.get? id = some fields → fields = f id) {id : String}
    (hid : id ∈ ids ∨ d.contains id = true) : (ids.foldl step d).get? id = some (f id) := by
  induction ids generalizing d with
  | nil =>
    have hbound : d.contains id = true := hid.resolve_left List.not_mem_nil
    obtain ⟨fields, hfields⟩ := Option.isSome_iff_exists.1 hbound
    rw [List.foldl_nil, hfields, hd id fields hfields]
  | cons first ids ih =>
    rw [List.foldl_cons]
    rcases hstep d first with hread | ⟨hbound, hkept⟩
    · rw [hread]
      have hnew : ∀ id fields, (d.insert first (f first)).get? id = some fields →
          fields = f id := by
        intro id fields hget
        rw [Dict.get?_insert] at hget
        by_cases hsame : KeyOrder.same id first = true
        · rw [if_pos hsame] at hget
          rw [← Option.some.inj hget, KeyOrder.same_iff.1 hsame]
        · rw [if_neg hsame] at hget
          exact hd id fields hget
      refine ih hnew ?_
      by_cases hfirst : id = first
      · refine .inr ?_
        rw [hfirst, Dict.contains, Dict.get?_insert, KeyOrder.same_self]
        rfl
      · rcases hid with hmem | hbound
        · exact .inl ((List.mem_cons.1 hmem).resolve_left hfirst)
        · refine .inr ?_
          rw [Dict.contains, Dict.get?_insert, KeyOrder.same_eq_false_iff.2 hfirst]
          exact hbound
    · rw [hkept]
      refine ih hd ?_
      rcases hid with hmem | hbound'
      · rcases List.mem_cons.1 hmem with rfl | hmem
        · exact .inr hbound
        · exact .inl hmem
      · exact .inr hbound'

theorem get?_portCounters {port id : String} (h : identity.ports.idByName.get? port = some id) :
    (read n identity).value.portCounters.get? id =
      some (n.getAll .counters (Schema.counterKey id)).value := by
  have hcounters : (read n identity).value.portCounters = identity.ports.idByName.values.foldl
      (fun d id => (addPortCounters n d id).value) Dict.empty := Logged.value_foldlM _ _ _
  have hempty : ∀ id fields, (Dict.empty : Dict String Fields).get? id = some fields →
      fields = (n.getAll .counters (Schema.counterKey id)).value := by
    intro id fields hget
    cases hget
  rw [hcounters]
  exact get?_foldl_read (fun d id => .inl rfl) hempty (.inl (Dict.mem_values_iff.2 ⟨port, h⟩))

theorem get?_rifCounters {id : String} (h : id ∈ rifIds identity) :
    (read n identity).value.rifCounters.get? id =
      some (n.getAll .counters (Schema.counterKey id)).value := by
  have hcounters : (read n identity).value.rifCounters = (rifIds identity).foldl
      (fun d id => (addRifCounters n d id).value) Dict.empty := Logged.value_foldlM _ _ _
  have hempty : ∀ id fields, (Dict.empty : Dict String Fields).get? id = some fields →
      fields = (n.getAll .counters (Schema.counterKey id)).value := by
    intro id fields hget
    cases hget
  rw [hcounters]
  refine get?_foldl_read (fun d id => ?_) hempty (.inl h)
  unfold addRifCounters
  by_cases hbound : d.contains id = true
  · rw [if_pos hbound]
    exact .inr ⟨hbound, rfl⟩
  · rw [if_neg hbound]
    exact .inl rfl

theorem portCounter_read (port counter : String) :
    (read n identity).value.portCounter port counter =
      counterOf n (identity.ports.idByName.get? port) counter := by
  show (identity.ports.idByName.get? port).bind (fun id =>
    ((read n identity).value.portCounters.get? id).bind (counterIn · counter)) = _
  cases hid : identity.ports.idByName.get? port with
  | none => rfl
  | some id =>
    rw [Option.bind_some, get?_portCounters n identity hid]
    rfl

theorem rifCounter_read {id : String} (h : id ∈ rifIds identity) (counter : String) :
    (read n identity).value.rifCounter id counter = counterOf n (some id) counter := by
  show ((read n identity).value.rifCounters.get? id).bind (counterIn · counter) = _
  rw [get?_rifCounters n identity h]
  rfl

theorem vlanCounter_read (i : UInt32) (counter : String) :
    (read n identity).value.vlanCounter i counter =
      counterOf n (identity.vlans.idByIndex.get? i) counter := by
  show (identity.vlans.idByIndex.get? i).bind ((read n identity).value.rifCounter · counter) = _
  cases hid : identity.vlans.idByIndex.get? i with
  | none => rfl
  | some id =>
    have hmem : id ∈ identity.vlans.idByIndex.values := Dict.mem_values_iff.2 ⟨i, hid⟩
    exact rifCounter_read n identity (List.mem_append_right _ hmem) counter

/-- The errors of the router interface on an object, where every router interface that is found by
its port is found by itself. -/
theorem rifErrors_read
    (h : ∀ id rif, identity.rifs.rifByPort.get? id = some rif → rif ∈ identity.rifs.portByRif.keys)
    (id? : Option String) (counter : String) :
    (read n identity).value.rifErrors id? counter =
      ((addedRifCounter.lookup counter).bind fun added =>
        counterOf n (id?.bind identity.rifs.rifByPort.get?) added).getD 0 := by
  show ((addedRifCounter.lookup counter).bind fun added => id?.bind fun id =>
    (identity.rifs.rifByPort.get? id).bind fun rif =>
      (read n identity).value.rifCounter rif added).getD 0 = _
  congr
  funext added
  cases id? with
  | none => rfl
  | some id =>
    rw [Option.bind_some, Option.bind_some]
    cases hrif : identity.rifs.rifByPort.get? id with
    | none => rfl
    | some rif => exact rifCounter_read n identity (List.mem_append_left _ (h id rif hrif)) added

/-! ## Columns -/

/-- Besides the row itself, its columns depend on what describes it and on its counters. -/
theorem rowColumn_congr {snap snap' : InterfaceSnapshot} {i : UInt32} {row : InterfaceRow}
    (hdescription : snap.description row = snap'.description row)
    (hcounter : ∀ counter, snap.rowCounter i row counter = snap'.rowCounter i row counter)
    (column : Nat) : snap.rowColumn column i row = snap'.rowColumn column i row := by
  unfold rowColumn
  simp only [hdescription, hcounter]

end Mib.InterfaceSnapshot

end SwitchMib
