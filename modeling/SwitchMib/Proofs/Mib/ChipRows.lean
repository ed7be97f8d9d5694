import SwitchMib.Proofs.Identity.Own
import SwitchMib.Proofs.Mib.Counters
import SwitchMib.Proofs.Mib.Rows

/-!
# The interface rows of a chip

Where the chips of a device are apart, an index of a chip has the row in the table of the device
that it has in the table of that chip alone.

* `Interfaces.servedRow?`: a row with the cells of all its columns.
* `Interfaces.ReadFrom`, `Interfaces.exists_build`: a table that has been built.
* `Interfaces.exists_place_of_servedRow?`: its rows are those of indexes of the namespaces.
* `Interfaces.servedRow?_of_mem`: a row of the device is that of the chip that has the index.
-/

namespace SwitchMib.Mib
set_option autoImplicit false

open Identity Snmp Store Store.Namespaces

namespace InterfaceSnapshot

/-- Whatever is shown, management ports apart, is an interface of one of the namespaces. -/
theorem exists_place_of_shownAt {maps : InterfaceMaps} {places : List Namespace}
    (h : maps.Within places) {i : UInt32} {kind : RowKind} {name : String}
    (hshown : shownAt maps i = some (kind, name)) (hkind : kind ≠ .management) :
    ∃ c ∈ places, name ∈ c.interfaceNames ∧ Net.IfName.index? name = some i := by
  rw [shownAt_eq] at hshown
  rcases Option.or_eq_some_iff.1 hshown with hmanagement | ⟨-, hshown⟩
  · obtain ⟨_, -, hpair⟩ := Option.map_eq_some_iff.1 hmanagement
    exact absurd (Prod.mk.inj hpair).1.symm hkind
  rcases Option.or_eq_some_iff.1 hshown with hvlan | ⟨-, hshown⟩
  · obtain ⟨_, hname, hpair⟩ := Option.map_eq_some_iff.1 hvlan
    obtain ⟨rfl, rfl⟩ := Prod.mk.inj hpair
    exact h.vlanNames i _ hname
  rcases Option.or_eq_some_iff.1 hshown with hlag | ⟨-, hport⟩
  · obtain ⟨_, hname, hpair⟩ := Option.map_eq_some_iff.1 hlag
    obtain ⟨rfl, rfl⟩ := Prod.mk.inj hpair
    exact h.groups i _ hname
  · obtain ⟨_, hname, hpair⟩ := Option.map_eq_some_iff.1 hport
    obtain ⟨rfl, rfl⟩ := Prod.mk.inj hpair
    exact h.portNames i _ hname

section Chip

variable {n : Namespaces} {maps own : InterfaceMaps} {c : Namespace}

theorem shownAt_own (h : maps.OwnOf own c) {i : UInt32} (hi : i ∈ c.indexes)
    (hnone : maps.management.nameByIndex.get? i = none)
    (hnone' : own.management.nameByIndex.get? i = none) : shownAt maps i = shownAt own i := by
  rw [shownAt_eq, shownAt_eq, hnone, hnone', h.portNames i hi, h.groups i hi, h.vlanNames i hi]

variable (h : n.Separate) (hc : c ∈ n.chips)

include h hc

theorem rowOf_own {kind : RowKind} {name : String} (hkind : kind ≠ .management)
    (hname : name ∈ c.interfaceNames) : rowOf n (kind, name) = rowOf (alone c) (kind, name) := by
  have hentry : (readEntry n kind name).value = (readEntry (alone c) kind name).value := by
    cases kind with
    | port => exact h.getAll_eq hc (Namespace.tableKey_mem_objectKeys hname (by simp))
    | lag => exact h.getAll_eq hc (Namespace.tableKey_mem_objectKeys hname (by simp))
    | vlan => exact h.getAll_eq hc (Namespace.tableKey_mem_objectKeys hname (by simp))
    | management => exact absurd rfl hkind
  rw [rowOf, rowOf, hentry]

theorem counterOf_own {id? : Option String} (hid : ∀ id, id? = some id → id ∈ c.objectIds)
    (counter : String) : counterOf n id? counter = counterOf (alone c) id? counter := by
  cases id? with
  | none => rfl
  | some id =>
    rw [counterOf, counterOf, Option.bind_some, Option.bind_some,
      h.getAll_eq hc (Namespace.counterKey_mem_objectKeys (hid id rfl))]

variable (hmaps : (InterfaceMaps.load n).outcome = .ok maps)
  (hown : (InterfaceMaps.load (alone c)).outcome = .ok own)

include hmaps hown

theorem portCounter_own {name : String} (hname : name ∈ c.interfaceNames) (counter : String) :
    (read n maps).value.portCounter name counter =
      (read (alone c) own).value.portCounter name counter := by
  have hid : ∀ id, own.ports.idByName.get? name = some id → id ∈ c.objectIds :=
    fun id hget => by simpa using (InterfaceMaps.within_alone hown).portIds name id hget
  rw [portCounter_read, portCounter_read,
    (InterfaceMaps.ownOf_load h hc hmaps hown).portIds name hname, counterOf_own h hc hid]

theorem rifErrors_own {id? : Option String} (hid : ∀ id, id? = some id → id ∈ c.objectIds)
    (counter : String) :
    (read n maps).value.rifErrors id? counter =
      (read (alone c) own).value.rifErrors id? counter := by
  have hfound : ∀ id, id? = some id →
      maps.rifs.rifByPort.get? id = own.rifs.rifByPort.get? id := fun id hget =>
    (InterfaceMaps.ownOf_load h hc hmaps hown).rifs id (hid id hget)
  have hrif : ∀ rif, id?.bind own.rifs.rifByPort.get? = some rif → rif ∈ c.objectIds := by
    intro rif hget
    obtain ⟨id, -, hget⟩ := Option.bind_eq_some_iff.1 hget
    simpa using (InterfaceMaps.within_alone hown).rifs id rif hget
  obtain ⟨-, -, -, hrifs, -⟩ := InterfaceMaps.load_eq_ok hmaps
  obtain ⟨-, -, -, hrifs', -⟩ := InterfaceMaps.load_eq_ok hown
  rw [rifErrors_read n maps (fun _ _ => RifMaps.portByRif_of_rifByPort hrifs),
    rifErrors_read (alone c) own (fun _ _ => RifMaps.portByRif_of_rifByPort hrifs'),
    Option.bind_congr hfound]
  simp only [counterOf_own h hc hrif]

theorem vlanCounter_own {i : UInt32} (hi : i ∈ c.indexes) (counter : String) :
    (read n maps).value.vlanCounter i counter =
      (read (alone c) own).value.vlanCounter i counter := by
  have hid : ∀ id, own.vlans.idByIndex.get? i = some id → id ∈ c.objectIds :=
    fun id hget => by simpa using (InterfaceMaps.within_alone hown).vlanIds i id hget
  rw [vlanCounter_read, vlanCounter_read, (InterfaceMaps.ownOf_load h hc hmaps hown).vlanIds i hi,
    counterOf_own h hc hid]

theorem memberSum_own {name : String} {i : UInt32} (hname : name ∈ c.interfaceNames)
    (hindex : Net.IfName.index? name = some i) (counter : String) :
    (read n maps).value.memberSum (maps.lags.members name) counter =
      (read (alone c) own).value.memberSum (own.lags.members name) counter := by
  have hmembers : maps.lags.members name = own.lags.members name := by
    rw [LagMaps.members, LagMaps.members, (InterfaceMaps.ownOf_load h hc hmaps hown).members name
      hname (Option.isSome_of_eq_some hindex)]
  have hmember : ∀ member ∈ own.lags.members name, member ∈ c.interfaceNames := by
    intro member hmem
    rw [LagMaps.members] at hmem
    cases hbound : own.lags.membersByLag.get? name with
    | none =>
      rw [hbound] at hmem
      cases hmem
    | some members =>
      rw [hbound] at hmem
      have hall : ∀ name ∈ members, name ∈ c.interfaceNames := by
        simpa using (InterfaceMaps.within_alone hown).members name members hbound
      exact hall member hmem
  rw [hmembers, memberSum, memberSum, List.filterMap_congr fun member hmem =>
    portCounter_own h hc hmaps hown (hmember member hmem) counter]

theorem rowCounter_own {row : InterfaceRow} {i : UInt32} (hname : row.name ∈ c.interfaceNames)
    (hindex : Net.IfName.index? row.name = some i) (counter : String) :
    (read n maps).value.rowCounter i row counter =
      (read (alone c) own).value.rowCounter i row counter := by
  have hagree := InterfaceMaps.ownOf_load h hc hmaps hown
  unfold rowCounter
  cases row.kind with
  | port =>
    have hid : ∀ id, own.ports.idByName.get? row.name = some id → id ∈ c.objectIds :=
      fun id hget => by simpa using (InterfaceMaps.within_alone hown).portIds row.name id hget
    show ((read n maps).value.portCounter row.name counter).map (fun v => lowHalf
      (v + (read n maps).value.rifErrors (maps.ports.idByName.get? row.name) counter)) = _
    rw [portCounter_own h hc hmaps hown hname, hagree.portIds row.name hname,
      rifErrors_own h hc hmaps hown hid]
    rfl
  | lag =>
    have hid : ∀ id, own.lags.idByLag.get? row.name = some id → id ∈ c.objectIds :=
      fun id hget => by simpa using (InterfaceMaps.within_alone hown).groupIds row.name id hget
    show some (lowHalf ((read n maps).value.memberSum (maps.lags.members row.name) counter +
      (read n maps).value.rifErrors (maps.lags.idByLag.get? row.name) counter)) = _
    rw [memberSum_own h hc hmaps hown hname hindex,
      hagree.groupIds row.name hname (Option.isSome_of_eq_some hindex),
      rifErrors_own h hc hmaps hown hid]
    rfl
  | vlan =>
    have hi := Namespace.mem_indexes hname hindex
    simp only [vlanCounter_own h hc hmaps hown hi]
  | management => rfl

theorem description_own {row : InterfaceRow} (hkind : row.kind ≠ .management)
    (hname : row.name ∈ c.interfaceNames) :
    (read n maps).value.description row = (read (alone c) own).value.description row := by
  unfold description
  cases hrow : row.kind with
  | port =>
    show maps.ports.aliasOf row.name = own.ports.aliasOf row.name
    rw [PortMaps.aliasOf, PortMaps.aliasOf,
      (InterfaceMaps.ownOf_load h hc hmaps hown).aliases row.name hname]
  | lag => rfl
  | vlan => rfl
  | management => exact absurd hrow hkind

end Chip

end InterfaceSnapshot

namespace Interfaces

open InterfaceSnapshot

/-- The row of a port, a group or a VLAN interface, with the cells of all its columns. -/
def servedRow? (t : Interfaces) (i : UInt32) : Option (InterfaceRow × (UInt32 → Option Value)) :=
  ((t.cell.current.rows.get? i).filter (·.kind ≠ .management)).map fun row =>
    (row, fun column => t.valueAt [2, 1, column, i])

/-- The table shows what is read from the namespaces by their own identity. -/
def ReadFrom (t : Interfaces) (n : Namespaces) : Prop :=
  ∃ maps, (InterfaceMaps.load n).outcome = .ok maps ∧ t.cell.current = (read n maps).value

theorem exists_build {out : Outside} (h : out.namespaces.Healthy)
    (hhost : out.namespaces.host.Healthy) (hports : ∀ c ∈ out.namespaces.members, c.HasPort) :
    ∃ t, (build out).outcome = .ok t ∧ t.ReadFrom out.namespaces := by
  obtain ⟨maps, hmaps⟩ := InterfaceMaps.succeeds_load h hhost hports
  exact ⟨_, Load.outcome_bind_eq_ok_iff.2 ⟨maps, hmaps, rfl⟩, maps, hmaps, rfl⟩

theorem exists_place_of_servedRow? {t : Interfaces} {n : Namespaces} (ht : t.ReadFrom n)
    {i : UInt32} {row : InterfaceRow × (UInt32 → Option Value)} (hrow : t.servedRow? i = some row) :
    ∃ c ∈ n.members, i ∈ c.indexes := by
  obtain ⟨maps, hmaps, hcell⟩ := ht
  obtain ⟨shown, hshown, -⟩ := Option.map_eq_some_iff.1 hrow
  obtain ⟨hget, hkind⟩ := Option.filter_eq_some_iff.1 hshown
  rw [hcell, get?_rows] at hget
  obtain ⟨⟨kind, name⟩, hat, rfl⟩ := Option.map_eq_some_iff.1 hget
  obtain ⟨c, hc, hname, hindex⟩ :=
    exists_place_of_shownAt (InterfaceMaps.within_load hmaps) hat (of_decide_eq_true hkind)
  exact ⟨c, hc, Namespace.mem_indexes hname hindex⟩

/-- Tables that show the same interface, with the same settings and counters, serve one row. -/
theorem servedRow?_congr {t t' : Interfaces} {i : UInt32}
    (hrows : t.cell.current.rows.get? i = t'.cell.current.rows.get? i)
    (hcells : ∀ row, t'.cell.current.rows.get? i = some row → row.kind ≠ .management →
      ∀ column, t.cell.current.rowColumn column i row = t'.cell.current.rowColumn column i row) :
    t.servedRow? i = t'.servedRow? i := by
  rw [servedRow?, servedRow?, hrows]
  refine Option.map_congr fun row hrow => ?_
  obtain ⟨hget, hkind⟩ := Option.filter_eq_some_iff.1 hrow
  refine Prod.ext rfl (funext fun column => ?_)
  show t.valueAt [2, 1, column, i] = t'.valueAt [2, 1, column, i]
  rw [valueAt, valueAt, valueAt_cell, valueAt_cell, InterfaceSnapshot.column,
    InterfaceSnapshot.column, hrows, hget, Option.bind_some, Option.bind_some,
    hcells row hget (of_decide_eq_true hkind)]

/-- At an index of a chip the table of the device serves what that of the chip alone serves. -/
theorem servedRow?_of_mem {n : Namespaces} {t t' : Interfaces} {c : Namespace} {i : UInt32}
    (h : n.Separate) (hc : c ∈ n.chips) (ht : t.ReadFrom n) (ht' : t'.ReadFrom (alone c))
    (hi : i ∈ c.indexes) (hhost : ¬ n.host.ManagesIndex i) (hchip : ¬ c.ManagesIndex i) :
    t.servedRow? i = t'.servedRow? i := by
  obtain ⟨maps, hmaps, hcell⟩ := ht
  obtain ⟨own, hown, hcell'⟩ := ht'
  obtain ⟨-, -, -, -, hmanagement⟩ := InterfaceMaps.load_eq_ok hmaps
  obtain ⟨-, -, -, -, hmanagement'⟩ := InterfaceMaps.load_eq_ok hown
  have hnone := ManagementMaps.get?_of_not_managesIndex hmanagement hhost
  have hnone' := ManagementMaps.get?_of_not_managesIndex hmanagement' hchip
  have hshown : shownAt maps i = shownAt own i :=
    shownAt_own (InterfaceMaps.ownOf_load h hc hmaps hown) hi hnone hnone'
  have hplace : ∀ kind name, shownAt own i = some (kind, name) → kind ≠ .management ∧
      name ∈ c.interfaceNames ∧ Net.IfName.index? name = some i := by
    intro kind name hat
    have hkind : kind ≠ .management := by
      rintro rfl
      rw [shownAt_eq, hnone'] at hat
      simp [Option.or_eq_some_iff] at hat
    have hname := exists_place_of_shownAt (InterfaceMaps.within_alone hown) hat hkind
    exact ⟨hkind, by simpa using hname⟩
  refine servedRow?_congr ?_ fun row hrow hkind column => ?_
  · rw [hcell, hcell', get?_rows, get?_rows, hshown]
    refine Option.map_congr fun shown hat => ?_
    obtain ⟨hkind, hname, -⟩ := hplace shown.1 shown.2 hat
    exact rowOf_own h hc hkind hname
  · rw [hcell', get?_rows] at hrow
    obtain ⟨⟨kind, name⟩, hat, rfl⟩ := Option.map_eq_some_iff.1 hrow
    obtain ⟨-, hname, hindex⟩ := hplace kind name hat
    rw [hcell, hcell']
    exact rowColumn_congr (description_own h hc hmaps hown hkind hname)
      (rowCounter_own h hc hmaps hown hname hindex) column

end Interfaces

end SwitchMib.Mib
