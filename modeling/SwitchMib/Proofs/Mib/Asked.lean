import SwitchMib.Proofs.Mib.IndexCells
import SwitchMib.Proofs.Store.Silent

/-!
# Counters that are asked for

A snapshot reads the counters of the ports that are found by their names, of the router interfaces
that are found by themselves, and of the VLAN interfaces. A query comes to a router interface by its
port. Where namespaces share identifiers the two ways do not lead back to each other, but every
router interface that is found by its port is still found by itself.

* `Namespaces.Withholds`, `Namespaces.get?_getAll_or`: why a field is not in an aggregated hash.
* `RifMaps.Covered`, `VlanMaps.Paired`: what the maps of an identity have in common, in whatever
  order it is loaded.
* `InterfaceSnapshot.Closed`, `InterfaceSnapshot.closed_read`: a snapshot has the counters of every
  object that a query comes to.
* `InterfaceSnapshot.AskedFor`, `InterfaceSnapshot.Untold`: what is read as a counter, and why there
  may be none.
* `InterfaceSnapshot.closed_of_loadBy`: the snapshots of all identities that can be loaded.
-/

namespace SwitchMib
set_option autoImplicit false

open Identity Store

/-! ## Fields that are not told -/

namespace Store.Namespaces

/-- A member has a field under a key, but fails the read. -/
def Withholds (n : Namespaces) (db : Database) (key field : String) : Prop :=
  ∃ ns ∈ n.members, (∃ e, readHash db key ns = .error e) ∧
    ((ns.hash db key).get? field).isSome = true

/-- A field is as stored, unless a member withholds it. -/
theorem get?_getAll_or (n : Namespaces) (db : Database) (key field : String) :
    (n.getAll db key).value.get? field = n.field? db key field ∨ n.Withholds db key field := by
  by_cases hwithheld : n.Withholds db key field
  · exact .inr hwithheld
  · refine .inl ?_
    rw [get?_getAll_value, field?]
    refine findSome?_congr fun ns hns => ?_
    cases hread : readHash db key ns with
    | ok fields =>
      rw [Namespace.eq_hash_of_readHash hread]
      rfl
    | error e =>
      have hnone : (ns.hash db key).get? field = none := Option.not_isSome_iff_eq_none.1
        fun hsome => hwithheld ⟨ns, List.mem_reverse.1 hns, ⟨e, hread⟩, hsome⟩
      exact hnone.symm

end Store.Namespaces

/-! ## Maps of an identity -/

namespace Identity

/-- Every router interface that is found by its port is found by itself, if perhaps on another
port. -/
def RifMaps.Covered (maps : RifMaps) : Prop :=
  ∀ rif ∈ maps.rifByPort.values, rif ∈ maps.portByRif.keys

theorem RifMaps.covered_of_loadAll {n : Namespaces} {maps : RifMaps}
    (h : (loadAll n).outcome = .ok maps) : maps.Covered := by
  intro rif hrif
  obtain ⟨port, hport⟩ := Dict.mem_values_iff.1 hrif
  exact portByRif_of_rifByPort h hport

namespace VlanMaps

/-- Just the indexes with a name have an identifier. -/
def Paired (maps : VlanMaps) : Prop := ∀ i, i ∈ maps.nameByIndex.keys ↔ i ∈ maps.idByIndex.keys

theorem paired_empty : empty.Paired := fun _ => Iff.rfl

theorem Paired.addEntry {maps : VlanMaps} (h : maps.Paired) (types : Fields)
    (entry : String × String) : (maps.addEntry types entry).Paired := by
  intro i
  unfold VlanMaps.addEntry
  split
  · cases vlanIndex? entry.1 with
    | none => exact h i
    | some index => simp only [Dict.mem_keys_insert, h i]
  · exact h i

theorem Paired.merge {a b : VlanMaps} (ha : a.Paired) (hb : b.Paired) : (a.merge b).Paired := by
  intro i
  simp only [VlanMaps.merge, Dict.mem_keys_merge, ha i, hb i]

theorem paired_of_loadBy {visit : Visit} {ns : Namespace} {maps : VlanMaps}
    (h : (loadBy visit ns).outcome = .ok maps) : maps.Paired := by
  obtain ⟨hash, -, hrest⟩ := Load.outcome_bind_eq_ok_iff.1 h
  obtain ⟨types, -, hmaps⟩ := Load.outcome_bind_eq_ok_iff.1 hrest
  rw [← Except.ok.inj hmaps]
  exact List.foldlRecOn (visit.order hash) (VlanMaps.addEntry types) paired_empty
    fun _ hpaired entry _ => hpaired.addEntry types entry

theorem paired_of_loadAllBy {visits : Namespace → Visit} {n : Namespaces} {maps : VlanMaps}
    (h : (loadAllBy visits n).outcome = .ok maps) : maps.Paired := by
  refine Load.foldlM_induction (P := Paired) paired_empty ?_ h
  intro merged hmerged ns _ next hnext
  obtain ⟨part, hpart, hmerge⟩ := Load.outcome_bind_eq_ok_iff.1 hnext
  rw [← Except.ok.inj hmerge]
  exact hmerged.merge (paired_of_loadBy hpart)

end VlanMaps

theorem InterfaceMaps.covered_of_loadBy {visits : Namespace → Visit} {n : Namespaces}
    {maps : InterfaceMaps} (h : (loadBy visits n).outcome = .ok maps) : maps.rifs.Covered := by
  obtain ⟨-, -, -, hrifs, -⟩ := loadBy_eq_ok h
  exact RifMaps.covered_of_loadAll hrifs

end Identity

namespace Mib.InterfaceSnapshot

/-! ## Objects with counters -/

/-- The counters of every object that the identity leads a query to have been read. -/
structure Closed (snap : InterfaceSnapshot) : Prop where
  ports : ∀ id ∈ snap.identity.ports.idByName.values, id ∈ snap.portCounters.keys
  rifs : ∀ rif ∈ snap.identity.rifs.rifByPort.values, rif ∈ snap.rifCounters.keys
  vlans : ∀ id ∈ snap.identity.vlans.idByIndex.values, id ∈ snap.rifCounters.keys

section Closed

variable (n : Namespaces) {identity : InterfaceMaps}

theorem rif_mem_rifIds (h : identity.rifs.Covered) {rif : String}
    (hrif : rif ∈ identity.rifs.rifByPort.values) : rif ∈ rifIds identity :=
  List.mem_append_left _ (h rif hrif)

theorem mem_keys_rifCounters {id : String} (hid : id ∈ rifIds identity) :
    id ∈ (read n identity).value.rifCounters.keys := by
  rw [Dict.mem_keys_iff, get?_rifCounters n identity hid]
  rfl

theorem closed_read (h : identity.rifs.Covered) : (read n identity).value.Closed := by
  refine ⟨fun id hid => ?_, fun rif hrif => ?_, fun id hid => ?_⟩
  · obtain ⟨port, hport⟩ := Dict.mem_values_iff.1 hid
    rw [Dict.mem_keys_iff, get?_portCounters n identity hport]
    rfl
  · exact mem_keys_rifCounters n (rif_mem_rifIds h hrif)
  · exact mem_keys_rifCounters n (List.mem_append_right _ hid)

end Closed

/-! ## Counters that are missing -/

/-- The counter that is stored for an object. A text that is no number of 64 bits is none. -/
def storedCounter (n : Namespaces) (id counter : String) : Option UInt64 :=
  (n.field? .counters (Schema.counterKey id) counter).bind fun text =>
    (Text.readWord64 text).toOption

/-- An object has no such counter in the store, or a member that has it fails the read. -/
def Untold (n : Namespaces) (id counter : String) : Prop :=
  storedCounter n id counter = none ∨ n.Withholds .counters (Schema.counterKey id) counter

/-- What is shown as a counter of an object is what the namespaces answer for the object: the
counter that is stored, unless a member withholds it. -/
structure AskedFor (n : Namespaces) (id counter : String) (shown : Option UInt64) : Prop where
  answered : shown = counterOf n (some id) counter
  stored : shown = storedCounter n id counter ∨
    n.Withholds .counters (Schema.counterKey id) counter

theorem askedFor_counterOf (n : Namespaces) (id counter : String) :
    AskedFor n id counter (counterOf n (some id) counter) := by
  have hfield := n.get?_getAll_or .counters (Schema.counterKey id) counter
  refine ⟨rfl, hfield.imp_left fun hsame => ?_⟩
  rw [storedCounter, ← hsame]
  rfl

theorem AskedFor.untold {n : Namespaces} {id counter : String}
    (h : AskedFor n id counter none) : Untold n id counter :=
  h.stored.imp_left Eq.symm

/-- Every counter that a query looks for has been asked for. -/
structure AsksAll (snap : InterfaceSnapshot) (n : Namespaces) : Prop where
  ports : ∀ port id, snap.identity.ports.idByName.get? port = some id →
    ∀ counter, AskedFor n id counter (snap.portCounter port counter)
  rifs : ∀ port rif, snap.identity.rifs.rifByPort.get? port = some rif →
    ∀ counter, AskedFor n rif counter (snap.rifCounter rif counter)
  vlans : ∀ i id, snap.identity.vlans.idByIndex.get? i = some id →
    ∀ counter, AskedFor n id counter (snap.vlanCounter i counter)

theorem asksAll_read (n : Namespaces) {identity : InterfaceMaps} (h : identity.rifs.Covered) :
    (read n identity).value.AsksAll n := by
  refine ⟨fun port id hid counter => ?_, fun port rif hrif counter => ?_,
    fun i id hid counter => ?_⟩
  · have hport : identity.ports.idByName.get? port = some id := hid
    rw [portCounter_read, hport]
    exact askedFor_counterOf n id counter
  · have hmem := rif_mem_rifIds h (Dict.mem_values_iff.2 ⟨port, hrif⟩)
    rw [rifCounter_read n identity hmem]
    exact askedFor_counterOf n rif counter
  · have hvlan : identity.vlans.idByIndex.get? i = some id := hid
    rw [vlanCounter_read, hvlan]
    exact askedFor_counterOf n id counter

/-- Why a row shows no counter. A group always shows a sum and a management port nothing, and a
VLAN interface has no counter at all in the place of some counters of a port. Otherwise there is an
object, but no counter of it is told. -/
def RowUntold (n : Namespaces) (identity : InterfaceMaps) (i : UInt32) (row : InterfaceRow)
    (counter : String) : Prop :=
  match row.kind with
  | .port => ∃ id, identity.ports.idByName.get? row.name = some id ∧ Untold n id counter
  | .lag => False
  | .vlan => ∀ mapped, vlanRifCounter.lookup counter = some mapped →
    ∃ id, identity.vlans.idByIndex.get? i = some id ∧ Untold n id mapped
  | .management => True

section Loaded

variable {visits : Namespace → Visit} {loaded : Namespaces} {identity : InterfaceMaps}
  (h : (InterfaceMaps.loadBy visits loaded).outcome = .ok identity)

include h

/-- The port of a row has an object, and so has its VLAN interface. -/
theorem exists_objectAt {i : UInt32} {kind : RowKind} {name : String}
    (hholds : Holds identity i kind name) (hkind : kind = .port ∨ kind = .vlan) :
    ∃ id, objectAt identity i kind name = some id := by
  obtain ⟨hports, -, hvlans, -, -⟩ := InterfaceMaps.loadBy_eq_ok h
  rcases hkind with rfl | rfl
  · have hstep := PortMaps.inStep_of_loadAllBy hports
    have hindex := hstep.index_of_name i name hholds.2.2.2
    have hid := (hstep.id_iff name).2 (Dict.mem_keys_iff.2 (Option.isSome_of_eq_some hindex))
    exact Option.isSome_iff_exists.1 (Dict.mem_keys_iff.1 hid)
  · have hname := Dict.mem_keys_iff.2 (Option.isSome_of_eq_some hholds.2)
    have hid := (VlanMaps.paired_of_loadAllBy hvlans i).1 hname
    exact Option.isSome_iff_exists.1 (Dict.mem_keys_iff.1 hid)

theorem rowUntold_read (n : Namespaces) {i : UInt32} {row : InterfaceRow}
    (hrow : (read n identity).value.rows.get? i = some row) {counter : String}
    (hnone : (read n identity).value.rowCounter i row counter = none) :
    RowUntold n identity i row counter := by
  have hasks := asksAll_read n (InterfaceMaps.covered_of_loadBy h)
  rw [get?_rows] at hrow
  obtain ⟨⟨kind, name⟩, hshown, rfl⟩ := Option.map_eq_some_iff.1 hrow
  have hobject := exists_objectAt h (shownAt_eq_some_iff.1 hshown)
  cases kind with
  | port =>
    obtain ⟨id, hid⟩ := hobject (.inl rfl)
    have hcounter := hasks.ports name id hid counter
    have hmissing : (read n identity).value.portCounter name counter = none :=
      Option.map_eq_none_iff.1 hnone
    rw [hmissing] at hcounter
    exact ⟨id, hid, hcounter.untold⟩
  | lag => cases hnone
  | vlan =>
    intro mapped hmapped
    obtain ⟨id, hid⟩ := hobject (.inr rfl)
    have hcounter := hasks.vlans i id hid mapped
    have hmissing : (vlanRifCounter.lookup counter).bind (fun mapped =>
        ((read n identity).value.vlanCounter i mapped).map lowHalf) = none := hnone
    rw [hmapped, Option.bind_some] at hmissing
    rw [Option.map_eq_none_iff.1 hmissing] at hcounter
    exact ⟨id, hid, hcounter.untold⟩
  | management => trivial

/-- A member of a group that is no port has no object. -/
theorem portUntold_read (n : Namespaces) {port counter : String}
    (hnone : (read n identity).value.portCounter port counter = none) :
    (∀ ns ∈ loaded.members, ∀ i, ¬ PortMaps.Named ns port i) ∨
      ∃ id, identity.ports.idByName.get? port = some id ∧ Untold n id counter := by
  obtain ⟨hports, -, -, -, -⟩ := InterfaceMaps.loadBy_eq_ok h
  cases hid : identity.ports.idByName.get? port with
  | some id =>
    have hasks := asksAll_read n (InterfaceMaps.covered_of_loadBy h)
    have hcounter := hasks.ports port id hid counter
    rw [hnone] at hcounter
    exact .inr ⟨id, rfl, hcounter.untold⟩
  | none =>
    refine .inl fun ns hns i hnamed => ?_
    have hstep := PortMaps.inStep_of_loadAllBy hports
    have hindex : identity.ports.indexByName.get? port = some i :=
      (hstep.index_iff port i).2 ⟨List.mem_flatMap.2 ⟨ns, hns, hnamed.1⟩,
        PortMaps.portIndex?_eq_some_iff.2 hnamed.2⟩
    have hmem := (hstep.id_iff port).2 (Dict.mem_keys_iff.2 (Option.isSome_of_eq_some hindex))
    rw [Dict.mem_keys_iff, hid] at hmem
    cases hmem

end Loaded

theorem Committed.closed {snap : InterfaceSnapshot} (h : Committed snap) :
    snap.Closed ∧ ∃ n, snap.AsksAll n := by
  obtain ⟨visits, loaded, maps, n, hload, rfl⟩ := h
  have hcovered := InterfaceMaps.covered_of_loadBy hload
  exact ⟨closed_read n hcovered, n, asksAll_read n hcovered⟩

/-- Whatever identity has been loaded, and from whatever namespaces a snapshot is read for it, the
snapshot has the counters of every object that a query comes to, also where several namespaces use
one identifier. So a counter is missing only where it is not stored or a member that has it fails,
never for not being asked for. The rows of ports and of VLAN interfaces all have an object, and a
member of a group has one if any namespace has a port with its name. The same holds of whatever a
table has committed, at any time of its life. -/
theorem closed_of_loadBy {visits : Namespace → Visit} {loaded : Namespaces}
    {identity : InterfaceMaps} (h : (InterfaceMaps.loadBy visits loaded).outcome = .ok identity)
    (n : Namespaces) :
    let snap := (read n identity).value
    snap.identity = identity ∧ snap.Closed ∧ snap.AsksAll n ∧
    (∀ i row, snap.rows.get? i = some row → ∀ counter, snap.rowCounter i row counter = none →
      RowUntold n identity i row counter) ∧
    (∀ port counter, snap.portCounter port counter = none →
      (∀ ns ∈ loaded.members, ∀ i, ¬ PortMaps.Named ns port i) ∨
        ∃ id, identity.ports.idByName.get? port = some id ∧ Untold n id counter) ∧
    ∀ (s : Session) (turns : List Turn) (t : Interfaces), s.Opened .interfaces →
      (s.run turns).table = .interfaces t →
        t.cell.current.Closed ∧ ∃ n, t.cell.current.AsksAll n := by
  have hcovered := InterfaceMaps.covered_of_loadBy h
  exact ⟨rfl, closed_read n hcovered, asksAll_read n hcovered,
    fun i row hrow counter hnone => rowUntold_read h n hrow hnone,
    fun port counter hnone => portUntold_read h n hnone,
    fun s turns t hs ht => (Interfaces.committed_run hs turns ht).closed⟩

/-- Two chips with one router interface on the port of one name, which each chip knows by an
identifier of its own. The second chip has a counter of the router interface, and one of its port
that cannot be read. -/
def renumberedPort : Namespaces :=
  let first := chipOfPort "asic0" "Ethernet0" "oid:0x1" "oid:0xa01"
  let second := chipOfPort "asic1" "Ethernet0" "oid:0x2" "oid:0xa01"
  let counted := (second.setFields .counters (Schema.counterKey "a01")
    [("SAI_ROUTER_INTERFACE_STAT_IN_ERROR_PACKETS", "7")]).setFields .counters
      (Schema.counterKey "2") [("SAI_PORT_STAT_IF_IN_OCTETS", "1500")]
  ⟨.empty "", [first, counted.addFault ⟨.getAll, .counters, some (Schema.counterKey "2")⟩]⟩

/-- The router interface that is found by the former identifier of the port is found by itself on
the other, and its counter is shown. The counter of the port is missing because it is withheld. -/
theorem closed_of_renumbered_port :
    ∃ identity, (InterfaceMaps.loadBy (fun _ => .backwards) renumberedPort).outcome = .ok identity ∧
      identity.rifs.rifByPort.get? "1" = some "a01" ∧
      identity.rifs.portByRif.get? "a01" = some "2" ∧
      let snap := (read renumberedPort identity).value
      snap.Closed ∧ "a01" ∈ snap.rifCounters.keys ∧
        snap.rifCounter "a01" "SAI_ROUTER_INTERFACE_STAT_IN_ERROR_PACKETS" = some 7 ∧
        snap.portCounter "Ethernet0" "SAI_PORT_STAT_IF_IN_OCTETS" = none ∧
        Untold renumberedPort "2" "SAI_PORT_STAT_IF_IN_OCTETS" ∧
        ∃ (s : Session) (t : Interfaces), s.Opened .interfaces ∧
          (s.run [.refresh]).table = .interfaces t ∧ t.cell.current.Closed := by
  have hloaded : (InterfaceMaps.loadBy (fun _ => .backwards) renumberedPort).outcome.map
      (fun identity =>
        let snap := (read renumberedPort identity).value
        (identity.ports.idByName.get? "Ethernet0", identity.rifs.rifByPort.get? "1",
          identity.rifs.portByRif.get? "a01",
          snap.rifCounter "a01" "SAI_ROUTER_INTERFACE_STAT_IN_ERROR_PACKETS",
          snap.portCounter "Ethernet0" "SAI_PORT_STAT_IF_IN_OCTETS")) =
      .ok (some "2", some "a01", some "2", some 7, none) := by decide +kernel
  obtain ⟨identity, hload, hfound⟩ := exists_eq_ok_of_map hloaded
  obtain ⟨hid, hrif, hport, hcounter, hmissing⟩ : _ ∧ _ ∧ _ ∧ _ ∧ _ := by simpa using hfound
  let s := Session.start .interfaces { worldOf (.empty "") with namespaces := renumberedPort }
  have hs : s.Opened .interfaces := Session.opened_start (by decide +kernel)
  obtain ⟨t, ht⟩ : ∃ t, (s.run [.refresh]).table = .interfaces t := by
    have hkind := Session.blueprint_run hs [.refresh]
    cases htable : (s.run [.refresh]).table with
    | interfaces t => exact ⟨t, rfl⟩
    | _ =>
      rw [htable] at hkind
      cases hkind
  obtain ⟨hidentity, hclosed, hasks, -, -, hlife⟩ := closed_of_loadBy hload renumberedPort
  have htold := hasks.ports "Ethernet0" "2" hid "SAI_PORT_STAT_IF_IN_OCTETS"
  rw [hmissing] at htold
  have hkept := hclosed.rifs "a01" (Dict.mem_values_iff.2 ⟨"1", hrif⟩)
  exact ⟨identity, hload, hrif, hport, hclosed, hkept, hcounter, hmissing, htold.untold, s, t, hs, ht,
    (hlife s [.refresh] t hs ht).1⟩

end Mib.InterfaceSnapshot

end SwitchMib
