import Mathlib.Data.Finset.Card
import SwitchMib.Proofs.Identity.Visits
import SwitchMib.Proofs.Mib.Cells
import SwitchMib.Proofs.Mib.ChipRows

/-!
# Whose row it is

Interfaces of several kinds can have one index, and only one of them is shown there. Its columns are
found by its name, by the index and by the identifier of an object, and all of them lead to it.

* `VlanMaps.exists_entry_of_nameByIndex`: the name and the object at an index are those of one
  VLAN interface.
* `InterfaceSnapshot.Holds`, `InterfaceSnapshot.shownAt_eq_some_iff`: the interface that is shown at
  an index.
* `InterfaceSnapshot.objectAt`, `InterfaceSnapshot.OwnObject`: the object it counts by, which is
  stored under its own name.
* `InterfaceSnapshot.portStat`, `rifStat`, `errorStat`, `settingsOf`: the counters of the columns
  and the settings of an interface.
* `InterfaceSnapshot.countOf`, `InterfaceSnapshot.cellOf`: a cell told from one interface alone.
* `Interfaces.rows_of_holders`: the cells after a refresh.
-/

namespace SwitchMib
set_option autoImplicit false

open Identity Snmp Store

namespace Identity

/-! ## Objects under their names -/

/-- Some namespace has the identifier of an object under a name. -/
def StoredAs (n : Namespaces) (map name id : String) : Prop :=
  ∃ ns ∈ n.members, ∃ text, (ns.hash .counters map).get? name = some text ∧
    Schema.bareId text = id

variable {n : Namespaces}

namespace PortMaps

variable {maps : PortMaps}

/-- A port that is found by its index has an object, and that is stored under its name. -/
theorem exists_id_of_nameByIndex (h : (loadAll n).outcome = .ok maps) {i : UInt32} {name : String}
    (hname : maps.nameByIndex.get? i = some name) :
    ∃ id, maps.idByName.get? name = some id ∧ StoredAs n Schema.portNameMap name id := by
  rw [get?_nameByIndex_loadAll h] at hname
  obtain ⟨port, hport, hpair⟩ := List.mem_map.1 (Bindings.mem_of_last? hname)
  obtain ⟨-, rfl⟩ := Prod.mk.inj hpair
  have hbound : Bindings.last? port.name (bindings n) ≠ none := by
    rw [ne_eq, Bindings.last?_eq_none_iff, not_not, bindings, List.map_map]
    exact List.mem_map.2 ⟨port, hport, rfl⟩
  obtain ⟨id, hid⟩ := Option.ne_none_iff_exists'.1 hbound
  obtain ⟨other, hother, hpair⟩ := List.mem_map.1 (Bindings.mem_of_last? hid)
  obtain ⟨hsame, rfl⟩ := Prod.mk.inj hpair
  obtain ⟨ns, hns, hin⟩ := List.mem_flatMap.1 hother
  obtain ⟨entry, hentry, hport⟩ := mem_portsIn_iff.1 hin
  obtain ⟨index, -, rfl⟩ := Option.map_eq_some_iff.1 hport
  refine ⟨_, (get?_idByName_loadAll h _).trans hid, ns, hns, entry.2, ?_, rfl⟩
  rw [← hsame]
  exact Dict.mem_toList_iff.1 hentry

end PortMaps

namespace LagMaps

variable {maps : LagMaps}

theorem storedAs_of_idByLag (h : (loadAll n).outcome = .ok maps) {lag id : String}
    (hid : maps.idByLag.get? lag = some id) : StoredAs n Schema.lagNameMap lag id := by
  obtain ⟨ns, hns, part, hload, hpart⟩ :=
    Load.exists_part_of_merged h (fun _ _ => rfl) rfl hid
  obtain ⟨ids, rfl, hids⟩ := load_eq_ok hload
  rw [idByLag_foldl_addLag] at hpart
  obtain ⟨text, hentry, hbare⟩ := hids lag id hpart
  exact ⟨ns, hns, text, Dict.mem_toList_iff.1 hentry, hbare⟩

end LagMaps

namespace VlanMaps

variable {maps : VlanMaps}

/-- What is kept by the index of a VLAN interface is that of the last one with the index. -/
theorem get?_loadAll {ν : Type} {field : VlanMaps → Dict UInt32 ν} {value : String × String → ν}
    (hmerge : ∀ a b, field (merge a b) = (field a).merge (field b))
    (hbinds : ∀ types, Dict.Binds field (vlanOf? types) (fun vlan => (vlan.1, value vlan.2))
      (addEntry types))
    (hempty : field empty = Dict.empty) (h : (loadAll n).outcome = .ok maps) (i : UInt32) :
    (field maps).get? i = (Bindings.last? i (n.members.flatMap vlansIn)).map value := by
  rw [← Bindings.last?_map, List.map_flatMap, Bindings.last?_flatMap]
  refine Load.get?_merged h hmerge (by rw [hempty]; rfl) fun ns part hload => ?_
  rw [load_eq_ok hload, ofEntries, Dict.get?_foldl_insert field _ (hbinds _), hempty, vlansIn,
    List.map_filterMap]
  exact Option.or_none

/-- The name and the object at an index are those of one VLAN interface. -/
theorem exists_entry_of_nameByIndex (h : (loadAll n).outcome = .ok maps) {i : UInt32}
    {name : String} (hname : maps.nameByIndex.get? i = some name) :
    ∃ id, maps.idByIndex.get? i = some id ∧ StoredAs n Schema.rifNameMap name id := by
  have hnames := get?_loadAll (fun _ _ => rfl) (fun types => (binds_addEntry types).1) rfl h i
  have hids : maps.idByIndex.get? i =
      (Bindings.last? i (n.members.flatMap vlansIn)).map fun entry => Schema.bareId entry.2 :=
    get?_loadAll (fun _ _ => rfl) (fun types => (binds_addEntry types).2) rfl h i
  rw [hname] at hnames
  obtain ⟨entry, hentry, rfl⟩ := Option.map_eq_some_iff.1 hnames.symm
  rw [hentry] at hids
  obtain ⟨ns, hns, hin⟩ := List.mem_flatMap.1 (Bindings.mem_of_last? hentry)
  obtain ⟨stored, hstored, hvlan⟩ := List.mem_filterMap.1 hin
  obtain ⟨index, -, hpair⟩ := Option.map_eq_some_iff.1 hvlan
  obtain ⟨-, rfl⟩ := Prod.mk.inj hpair
  exact ⟨_, hids, ns, hns, stored.2,
    Dict.mem_toList_iff.1 ((ns.visit.perm _).mem_iff.1 hstored), rfl⟩

end VlanMaps

end Identity

namespace Mib

namespace InterfaceSnapshot

/-! ## The interface at an index -/

/-- The interface is the one to be shown at an index: management ports come before VLAN interfaces,
these before groups, and groups before ports. -/
def Holds (maps : InterfaceMaps) (i : UInt32) : RowKind → String → Prop
  | .management, name => maps.management.nameByIndex.get? i = some name
  | .vlan, name =>
    i ∉ maps.management.nameByIndex.keys ∧ maps.vlans.nameByIndex.get? i = some name
  | .lag, name =>
    i ∉ maps.management.nameByIndex.keys ∧ i ∉ maps.vlans.nameByIndex.keys ∧
      maps.lags.lagByIndex.get? i = some name
  | .port, name =>
    i ∉ maps.management.nameByIndex.keys ∧ i ∉ maps.vlans.nameByIndex.keys ∧
      i ∉ maps.lags.lagByIndex.keys ∧ maps.ports.nameByIndex.get? i = some name

/-- The indexes of all interfaces. -/
def indexes (maps : InterfaceMaps) : Finset UInt32 :=
  maps.ports.nameByIndex.keys.toFinset ∪ maps.lags.lagByIndex.keys.toFinset ∪
    maps.vlans.nameByIndex.keys.toFinset ∪ maps.management.nameByIndex.keys.toFinset

section Shown

variable {maps : InterfaceMaps} {i : UInt32}

theorem shownAt_eq_some_iff {kind : RowKind} {name : String} :
    shownAt maps i = some (kind, name) ↔ Holds maps i kind name := by
  rw [shownAt_eq]
  cases kind <;>
    simp [Holds, Dict.mem_keys_iff, Option.or_eq_some_iff]

theorem isSome_shownAt : (shownAt maps i).isSome = true ↔ i ∈ indexes maps := by
  rw [shownAt_eq]
  simp [indexes, Dict.mem_keys_iff, or_comm, or_left_comm, or_assoc]

end Shown

/-! ## Its object -/

/-- The object that an interface at an index counts by. -/
def objectAt (maps : InterfaceMaps) (i : UInt32) : RowKind → String → Option String
  | .port, name => maps.ports.idByName.get? name
  | .lag, name => maps.lags.idByLag.get? name
  | .vlan, _ => maps.vlans.idByIndex.get? i
  | .management, _ => none

/-- The object is stored under the name of the interface. Ports and VLAN interfaces have one, groups
may have one, management ports have none. -/
def OwnObject (loaded : Namespaces) (name : String) : RowKind → Option String → Prop
  | .port, object? => ∃ id, object? = some id ∧ StoredAs loaded Schema.portNameMap name id
  | .lag, object? => ∀ id, object? = some id → StoredAs loaded Schema.lagNameMap name id
  | .vlan, object? => ∃ id, object? = some id ∧ StoredAs loaded Schema.rifNameMap name id
  | .management, object? => object? = none

theorem ownObject_of_holds {loaded : Namespaces} {maps : InterfaceMaps}
    (h : (InterfaceMaps.load loaded).outcome = .ok maps) {i : UInt32} {kind : RowKind}
    {name : String} (hholds : Holds maps i kind name) :
    OwnObject loaded name kind (objectAt maps i kind name) := by
  obtain ⟨hports, hlags, hvlans, -, -⟩ := InterfaceMaps.load_eq_ok h
  cases kind with
  | port => exact PortMaps.exists_id_of_nameByIndex hports hholds.2.2.2
  | lag => exact fun id hid => LagMaps.storedAs_of_idByLag hlags hid
  | vlan => exact VlanMaps.exists_entry_of_nameByIndex hvlans hholds.2
  | management => rfl

/-! ## Its cells -/

/-- The counter of a port that a column shows. -/
def portStat : Nat → Option String
  | 10 => some "SAI_PORT_STAT_IF_IN_OCTETS"
  | 11 => some "SAI_PORT_STAT_IF_IN_UCAST_PKTS"
  | 12 => some "SAI_PORT_STAT_IF_IN_NON_UCAST_PKTS"
  | 13 => some "SAI_PORT_STAT_IF_IN_DISCARDS"
  | 14 => some "SAI_PORT_STAT_IF_IN_ERRORS"
  | 15 => some "SAI_PORT_STAT_IF_IN_UNKNOWN_PROTOS"
  | 16 => some "SAI_PORT_STAT_IF_OUT_OCTETS"
  | 17 => some "SAI_PORT_STAT_IF_OUT_UCAST_PKTS"
  | 18 => some "SAI_PORT_STAT_IF_OUT_NON_UCAST_PKTS"
  | 19 => some "SAI_PORT_STAT_IF_OUT_DISCARDS"
  | 20 => some "SAI_PORT_STAT_IF_OUT_ERRORS"
  | 21 => some "SAI_PORT_STAT_IF_OUT_QLEN"
  | _ => none

/-- The counter of a router interface that a column of a VLAN interface shows. -/
def rifStat : Nat → Option String
  | 10 => some "SAI_ROUTER_INTERFACE_STAT_IN_OCTETS"
  | 11 => some "SAI_ROUTER_INTERFACE_STAT_IN_PACKETS"
  | 14 => some "SAI_ROUTER_INTERFACE_STAT_IN_ERROR_PACKETS"
  | 16 => some "SAI_ROUTER_INTERFACE_STAT_OUT_OCTETS"
  | 17 => some "SAI_ROUTER_INTERFACE_STAT_OUT_PACKETS"
  | 20 => some "SAI_ROUTER_INTERFACE_STAT_OUT_ERROR_PACKETS"
  | _ => none

/-- The errors of a router interface that a column of a port or group includes. -/
def errorStat : Nat → Option String
  | 14 => some "SAI_ROUTER_INTERFACE_STAT_IN_ERROR_PACKETS"
  | 20 => some "SAI_ROUTER_INTERFACE_STAT_OUT_ERROR_PACKETS"
  | _ => none

/-- The columns from 10 to 21 are those of the counters. -/
theorem lookup_counterOfColumn (column : Nat) :
    counterOfColumn.lookup column = portStat column := by
  have hfew : ∀ c < 22, counterOfColumn.lookup c = portStat c := by decide
  rcases Nat.lt_or_ge column 22 with hlow | hhigh
  · exact hfew column hlow
  · obtain ⟨c, rfl⟩ := Nat.exists_eq_add_of_le' hhigh
    refine (List.lookup_eq_none_iff.2 ?_).trans rfl
    have hcolumns : ∀ p ∈ counterOfColumn, p.1 < 22 := by decide
    intro p hp
    have hcolumn := hcolumns p hp
    have hne : c + 22 ≠ p.1 := by omega
    exact bne_iff_ne.2 hne

/-- The router interface of a VLAN interface has some of the counters, and two of errors. -/
theorem bind_portStat (column : Nat) :
    (portStat column).bind (vlanRifCounter.lookup ·) = rifStat column ∧
      (portStat column).bind (addedRifCounter.lookup ·) = errorStat column := by
  have hfew : ∀ c < 22, (portStat c).bind (vlanRifCounter.lookup ·) = rifStat c ∧
      (portStat c).bind (addedRifCounter.lookup ·) = errorStat c := by decide
  rcases Nat.lt_or_ge column 22 with hlow | hhigh
  · exact hfew column hlow
  · obtain ⟨c, rfl⟩ := Nat.exists_eq_add_of_le' hhigh
    exact ⟨rfl, rfl⟩

section Cells

variable (n : Namespaces) (maps : InterfaceMaps)

/-- The settings of an interface are in the table of its kind, those of a management port in the
configuration of the host and in its state. -/
def settingsOf (kind : RowKind) (name : String) : Fields :=
  let ofHost (db : Database) (key : String) : Fields :=
    (n.host.getAll db key).toOption.getD Dict.empty
  match kind with
  | .port => (n.getAll .appl ("PORT_TABLE:" ++ name)).value
  | .lag => (n.getAll .appl ("LAG_TABLE:" ++ name)).value
  | .vlan => (n.getAll .appl ("VLAN_TABLE:" ++ name)).value
  | .management =>
    (ofHost .config ("MGMT_PORT|" ++ name)).merge (ofHost .state ("MGMT_PORT_TABLE|" ++ name))

/-- A counter of an object as a number. -/
def numberOf (object? : Option String) (stat : String) : Option Nat := do
  let id ← object?
  let text ← (n.getAll .counters ("COUNTERS:oid:0x" ++ id)).value.get? stat
  (Text.readNat (2 ^ 64 - 1) text).toOption

/-- The errors of the router interface that is bound to an object. -/
def errorsOf (object? : Option String) (column : Nat) : Nat :=
  ((errorStat column).bind (numberOf n (object?.bind maps.rifs.rifByPort.get?))).getD 0

/-- The counter of an interface, before it is cut to 32 bits. -/
def countOf (kind : RowKind) (name : String) (object? : Option String) (column : Nat) :
    Option Nat :=
  match kind with
  | .port => ((portStat column).bind (numberOf n object?)).map fun k =>
    k + errorsOf n maps object? column
  | .lag => (portStat column).map fun stat =>
    let counts := (maps.lags.members name).filterMap fun m =>
      numberOf n (maps.ports.idByName.get? m) stat
    counts.sum + errorsOf n maps object? column
  | .vlan => (rifStat column).bind (numberOf n object?)
  | .management => none

/-- A cell of the row of an interface. Nothing is looked up but its own settings, its own alias,
its own object and, for a group, its own members. The types are those of Ethernet, of a group and of
a VLAN; a speed is in bits per second, or the greatest number if it is greater. -/
def cellOf (i : UInt32) (kind : RowKind) (name : String) (object? : Option String)
    (column : Nat) : Option Value :=
  let setting (field : String) : Option String := (settingsOf n kind name).get? field
  let status (word : Option String) : Int32 := if word = some "up" then 1 else 2
  match column with
  | 1 => Value.ofIndex i.toNat
  | 2 => match kind with
    | .port => some (.text ((maps.ports.aliasByName.get? name).getD name))
    | .management => some (.text ((maps.management.aliasByName.get? name).getD name))
    | .lag | .vlan => some (.text name)
  | 3 => match kind with
    | .port | .management => some (.integer 6)
    | .lag => some (.integer 161)
    | .vlan => some (.integer 136)
  | 4 =>
    let mtu := (setting "mtu").bind fun v => (Text.readInt32 v).toOption
    some (.integer (mtu.getD 0))
  | 5 =>
    let megabits := (setting "speed").bind fun v => (Text.readNat (2 ^ 64 - 1) v).toOption
    some (.gauge32 (UInt32.ofNat (min (megabits.getD 0 * 1000000) (2 ^ 32 - 1))))
  | 6 => some (.octets [])
  | 7 => some (.integer (status (setting "admin_status")))
  | 8 => some (.integer (status (setting "oper_status")))
  | 9 => some (.timeTicks 0)
  | 22 => some .nullOid
  | _ => (countOf n maps kind name object? column).map fun k =>
    let word := UInt32.ofNat (k % 2 ^ 32)
    if column = 21 then .gauge32 word else .counter32 word

variable {n maps}

/-- One step of reading the settings of a management port. -/
theorem value_mergeStored (entry : Fields) (db : Database) (key : String) :
    (match n.host.getAll db key with
      | .ok fields => pure (entry.merge fields)
      | .error e => do
        Logged.tell (.managementUnread key e)
        pure entry : Logged Fields).value =
      entry.merge ((n.host.getAll db key).toOption.getD Dict.empty) := by
  cases n.host.getAll db key with
  | ok fields => rfl
  | error e => exact Dict.ext_get? fun k => (Dict.get?_merge entry Dict.empty k).symm

theorem value_readEntry (kind : RowKind) (name : String) :
    (readEntry n kind name).value = settingsOf n kind name := by
  cases kind with
  | management =>
    have hempty : ∀ fields : Fields, Dict.empty.merge fields = fields := fun fields =>
      Dict.ext_get? fun k => (Dict.get?_merge _ _ k).trans Option.or_none
    show (readManagement n name).value = _
    rw [readManagement, Logged.value_foldlM, List.foldl_cons, List.foldl_cons, List.foldl_nil]
    exact (value_mergeStored _ _ _).trans
      (congrArg (Dict.merge · _) ((value_mergeStored _ _ _).trans (hempty _)))
  | _ => rfl

theorem map_toNat_counterOf (object? : Option String) (stat : String) :
    (counterOf n object? stat).map UInt64.toNat = numberOf n object? stat := by
  simp only [counterOf, Option.map_bind, Function.comp_def, map_toNat_counterIn]
  rfl

theorem portReading_read (port counter : String) :
    (read n maps).value.portReading port counter =
      numberOf n (maps.ports.idByName.get? port) counter := by
  rw [← map_toNat_portCounter, portCounter_read, map_toNat_counterOf]

theorem vlanReading_read (i : UInt32) (counter : String) :
    (read n maps).value.vlanReading i counter =
      (vlanRifCounter.lookup counter).bind (numberOf n (maps.vlans.idByIndex.get? i)) := by
  rw [← map_toNat_vlanCounter]
  simp only [vlanCounter_read, map_toNat_counterOf]

theorem errorReading_read {loaded : Namespaces}
    (h : (RifMaps.loadAll loaded).outcome = .ok maps.rifs) (object? : Option String)
    (counter : String) :
    (read n maps).value.errorReading object? counter =
      ((addedRifCounter.lookup counter).bind
        (numberOf n (object?.bind maps.rifs.rifByPort.get?))).getD 0 := by
  rw [← toNat_rifErrors, rifErrors_read n maps fun _ _ => RifMaps.portByRif_of_rifByPort h]
  cases addedRifCounter.lookup counter with
  | none => rfl
  | some added =>
    simp only [Option.bind_some, ← map_toNat_counterOf]
    cases counterOf n (object?.bind maps.rifs.rifByPort.get?) added <;> rfl

theorem exactCounter_read {loaded : Namespaces}
    (h : (RifMaps.loadAll loaded).outcome = .ok maps.rifs) (i : UInt32) (kind : RowKind)
    (name : String) (column : Nat) :
    (counterOfColumn.lookup column).bind
      ((read n maps).value.exactCounter i (rowOf n (kind, name))) =
        countOf n maps kind name (objectAt maps i kind name) column := by
  have herrors : ∀ object? stat, portStat column = some stat →
      (read n maps).value.errorReading object? stat = errorsOf n maps object? column := by
    intro object? stat hstat
    rw [errorReading_read h, errorsOf, ← (bind_portStat column).2, hstat]
    rfl
  have hvlan := (bind_portStat column).1
  rw [lookup_counterOfColumn]
  cases hstat : portStat column with
  | none =>
    rw [hstat] at hvlan
    cases kind <;> simp [countOf, hstat, ← hvlan]
  | some stat =>
    rw [hstat] at hvlan
    cases kind with
    | port =>
      show ((read n maps).value.portReading name stat).map (fun k =>
        k + (read n maps).value.errorReading (maps.ports.idByName.get? name) stat) = _
      rw [portReading_read, herrors _ stat hstat, countOf, hstat]
      rfl
    | lag =>
      show some (((maps.lags.members name).filterMap fun m =>
        (read n maps).value.portReading m stat).sum +
          (read n maps).value.errorReading (maps.lags.idByLag.get? name) stat) = _
      simp only [portReading_read, herrors _ stat hstat, countOf, hstat]
      rfl
    | vlan =>
      show (read n maps).value.vlanReading i stat = _
      rw [vlanReading_read, countOf, ← hvlan]
      rfl
    | management => rfl

theorem speedGauge_eq (megabits : UInt64) :
    speedGauge megabits = UInt32.ofNat (min (megabits.toNat * 1000000) (2 ^ 32 - 1)) := by
  have hsize : UInt32.size = 2 ^ 32 := rfl
  rw [speedGauge, hsize]
  split
  · rw [Nat.min_eq_left (by omega)]
  · rw [Nat.min_eq_right (by omega)]

theorem rowColumn_read {loaded : Namespaces}
    (h : (RifMaps.loadAll loaded).outcome = .ok maps.rifs) (i : UInt32) (kind : RowKind)
    (name : String) (column : Nat) :
    (read n maps).value.rowColumn column i (rowOf n (kind, name)) =
      cellOf n maps i kind name (objectAt maps i kind name) column := by
  have hentry : (rowOf n (kind, name)).entry = settingsOf n kind name := value_readEntry kind name
  have hspeed : ∀ text? : Option String,
      ((text?.bind fun v => (Text.readWord64 v).toOption).getD 0).toNat =
        (text?.bind fun v => (Text.readNat (UInt64.size - 1) v).toOption).getD 0 := by
    rintro (_ | text)
    · rfl
    · rw [Option.bind_some, Option.bind_some, ← map_toNat_readWord64]
      cases (Text.readWord64 text).toOption <;> rfl
  unfold rowColumn cellOf
  rw [hentry]
  split
  case h_2 => cases kind <;> rfl
  case h_3 => cases kind <;> rfl
  case h_5 =>
    simp only [speedGauge_eq, hspeed]
    rfl
  case h_11 =>
    rw [← exactCounter_read h, Option.map_bind]
    simp only [rowCounter_eq, Option.map_map]
    rfl
  all_goals rfl

end Cells

end InterfaceSnapshot

namespace Interfaces

open InterfaceSnapshot

variable {loaded : Namespaces} {t : Interfaces}

theorem size_rows (n : Namespaces) (maps : InterfaceMaps) :
    (read n maps).value.rows.size = (indexes maps).card := by
  have hkeys : (read n maps).value.rows.keys.toFinset = indexes maps := by
    ext i
    rw [List.mem_toFinset, Dict.mem_keys_iff, get?_rows, Option.isSome_map, isSome_shownAt]
  have hnodup : (read n maps).value.rows.keys.Nodup :=
    (read n maps).value.rows.keys_ascending.imp fun hbefore => KeyOrder.ne_of_before hbefore
  rw [← hkeys, List.toFinset_card_of_nodup hnodup, Dict.keys, List.length_map]
  rfl

/-- After a refresh there is a row for every index of an interface and for no other. It is that of
the interface that comes first at its index, and all its cells are told from that interface alone.
The count of interfaces is that of the indexes, where it is an integer. -/
theorem rows_of_holders (hload : (InterfaceMaps.load loaded).outcome = .ok t.identity)
    (out : Outside) :
    let after := (t.refresh out).value.after
    (t.refresh out).value.outcome = .ok () ∧
    (∀ sub, sub ∈ after.cells ↔ sub = [1, 0] ∨ ∃ column i, sub = [2, 1, column, i] ∧
      1 ≤ column.toNat ∧ column.toNat ≤ 22 ∧ i ∈ indexes t.identity) ∧
    (∀ i ∉ indexes t.identity, ∀ column, after.valueAt [2, 1, column, i] = none) ∧
    (∀ i ∈ indexes t.identity, ∃ kind name, Holds t.identity i kind name ∧
      OwnObject loaded name kind (objectAt t.identity i kind name) ∧
      ∀ column, after.valueAt [2, 1, column, i] =
        cellOf out.namespaces t.identity i kind name (objectAt t.identity i kind name)
          column.toNat) ∧
    ((indexes t.identity).card ≤ 2 ^ 31 - 1 →
      ∃ count : Int32, after.valueAt [1, 0] = some (.integer count) ∧
        count.toInt = (indexes t.identity).card) := by
  intro after
  have hrow : ∀ i, after.cell.current.rows.get? i =
      (shownAt t.identity i).map (rowOf out.namespaces) := get?_rows out.namespaces t.identity
  have hcell : ∀ i column, after.valueAt [2, 1, column, i] =
      (after.cell.current.rows.get? i).bind (after.cell.current.rowColumn column.toNat i) := by
    intro i column
    exact valueAt_cell _ column i
  refine ⟨rfl, fun sub => ?_, fun i hi column => ?_, fun i hi => ?_, fun hfew => ?_⟩
  · simp only [← isSome_shownAt]
    have hcells : sub ∈ after.cells ↔ _ := mem_cells_iff after.cell.current
    simpa only [hrow, Option.isSome_map] using hcells
  · have hnone : shownAt t.identity i = none := by
      rw [← Option.not_isSome_iff_eq_none, isSome_shownAt]
      exact hi
    rw [hcell, hrow, hnone]
    rfl
  · obtain ⟨⟨kind, name⟩, hshown⟩ := Option.isSome_iff_exists.1 (isSome_shownAt.2 hi)
    have hholds := shownAt_eq_some_iff.1 hshown
    obtain ⟨-, -, -, hrifs, -⟩ := InterfaceMaps.load_eq_ok hload
    refine ⟨kind, name, hholds, ownObject_of_holds hload hholds, fun column => ?_⟩
    rw [hcell, hrow, hshown]
    exact rowColumn_read hrifs i kind name column.toNat
  · have hfits : (indexes t.identity).card < 2 ^ 31 := by omega
    refine ⟨Int32.ofNat (indexes t.identity).card, ?_, Int32.toInt_ofNat_of_lt hfits⟩
    show Value.ofIndex (read out.namespaces t.identity).value.rows.size = _
    rw [size_rows, Value.ofIndex]
    exact if_pos hfits

/-- A device with two ports, the first with an alias, a group that has the index of the second port,
a VLAN interface and a management port. -/
def worldOfGroup : Outside where
  namespaces :=
    let table : List (Database × String × List (String × String)) :=
      [ (.counters, Schema.portNameMap, [("Ethernet0", "oid:0x1"), ("Ethernet1000", "oid:0x2")])
      , (.counters, Schema.rifNameMap, [("Vlan1000", "oid:0x3")])
      , (.counters, Schema.rifTypeMap, [("oid:0x3", Schema.rifTypeVlan)])
      , (.counters, "COUNTERS:oid:0x1", [("SAI_PORT_STAT_IF_IN_OCTETS", "7")])
      , (.counters, "COUNTERS:oid:0x2", [("SAI_PORT_STAT_IF_IN_OCTETS", "8")])
      , (.counters, "COUNTERS:oid:0x3", [("SAI_ROUTER_INTERFACE_STAT_IN_PACKETS", "11")])
      , (.appl, "PORT_TABLE:Ethernet0",
          [("alias", "etp1"), ("speed", "100000"), ("admin_status", "up"), ("oper_status", "down")])
      , (.appl, "LAG_TABLE:PortChannel01", [("mtu", "9100")])
      , (.appl, "LAG_MEMBER_TABLE:PortChannel01:Ethernet0", [("status", "enabled")])
      , (.appl, "VLAN_TABLE:Vlan1000", [("oper_status", "up")])
      , (.config, "MGMT_PORT|eth0", [("alias", "mgmt"), ("speed", "1000")])
      , (.state, "MGMT_PORT_TABLE|eth0", [("oper_status", "up")]) ]
    ⟨table.foldl (fun ns row => ns.setFields row.1 row.2.1 row.2.2) (Namespace.empty ""), []⟩
  neighbours := .ok ""
  platform := ⟨.ok 0, fun _ => .ok false, fun _ => .ok false⟩

/-- The group is shown at the index, with its own settings and the counters of its member. Every
other interface is shown with its description, type, settings and counters. -/
theorem rows_of_holders_of_shared_index :
    let out := worldOfGroup
    ∃ t : Interfaces, (InterfaceMaps.load out.namespaces).outcome = .ok t.identity ∧
      (indexes t.identity).card = 4 ∧ Holds t.identity 1001 .lag "PortChannel01" ∧
      t.identity.ports.nameByIndex.get? 1001 = some "Ethernet1000" ∧
      (∀ cell ∈ [(1, 2, Value.text "etp1"), (1, 3, .integer 6), (1, 4, .integer 0),
          (1, 5, .gauge32 4294967295), (1, 7, .integer 1), (1, 8, .integer 2),
          (1, 10, .counter32 7), (1001, 2, .text "PortChannel01"), (1001, 3, .integer 161),
          (1001, 4, .integer 9100), (1001, 10, .counter32 7), (3000, 2, .text "Vlan1000"),
          (3000, 3, .integer 136), (3000, 7, .integer 2), (3000, 8, .integer 1),
          (3000, 11, .counter32 11), (10000, 2, .text "mgmt"), (10000, 3, .integer 6),
          (10000, 5, .gauge32 1000000000), (10000, 8, .integer 1)],
        (t.refresh out).value.after.valueAt [2, 1, cell.2.1, cell.1] = some cell.2.2) ∧
      (t.refresh out).value.after.valueAt [1, 0] = some (.integer 4) := by
  intro out
  let shown (maps : InterfaceMaps) (i : UInt32) (column : Nat) : Option Value :=
    (shownAt maps i).bind fun (kind, name) =>
      cellOf out.namespaces maps i kind name (objectAt maps i kind name) column
  obtain ⟨maps, hmaps⟩ : ∃ maps, (InterfaceMaps.load out.namespaces).outcome = .ok maps :=
    exists_eq_ok_of_isOk (by decide +kernel)
  have hcard : (InterfaceMaps.load out.namespaces).outcome.map (fun maps =>
      ((indexes maps).card, shownAt maps 1001, maps.ports.nameByIndex.get? 1001)) =
      .ok (4, some (.lag, "PortChannel01"), some "Ethernet1000") := by decide +kernel
  rw [hmaps] at hcard
  obtain ⟨hfour, hlag, hport⟩ : _ ∧ _ ∧ _ := by simpa using Except.ok.inj hcard
  let t : Interfaces := ⟨maps, .fresh .empty, .fresh⟩
  obtain ⟨-, -, -, hrows, hcount⟩ := rows_of_holders (t := t) hmaps out
  -- the cells of a row are those of the interface that is shown at its index
  have hcell : ∀ {i : UInt32} {column : UInt32} {v : Value},
      shown maps i column.toNat = some v →
        (t.refresh out).value.after.valueAt [2, 1, column, i] = some v := by
    intro i column v hv
    obtain ⟨⟨kind, name⟩, hkind, hv⟩ := Option.bind_eq_some_iff.1 hv
    obtain ⟨kind', name', hholds, -, hrow⟩ := hrows i (isSome_shownAt.1 (hkind ▸ rfl))
    have hsame := (shownAt_eq_some_iff.2 hholds).symm.trans hkind
    obtain ⟨rfl, rfl⟩ := Prod.mk.inj (Option.some.inj hsame)
    exact (hrow column).trans hv
  obtain ⟨count, hvalue, hint⟩ := hcount (by rw [hfour]; decide)
  obtain rfl : count = 4 := Int32.toInt_inj.1 (hint.trans (by rw [hfour]; rfl))
  refine ⟨t, hmaps, hfour, shownAt_eq_some_iff.1 hlag, hport, fun cell hin => hcell ?_, hvalue⟩
  have hcells : ∀ loaded ∈ (InterfaceMaps.load out.namespaces).outcome.toOption,
      shown loaded cell.1 cell.2.1.toNat = some cell.2.2 := by
    revert cell
    decide +kernel
  exact hcells maps (by rw [hmaps]; rfl)

end Interfaces

end Mib

end SwitchMib
