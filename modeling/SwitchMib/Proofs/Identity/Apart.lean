import Mathlib.Data.List.Pairwise
import Mathlib.Data.Prod.Basic
import SwitchMib.Proofs.Identity.Healthy
import SwitchMib.Proofs.Identity.Membership

/-!
# Chips that have nothing in common

What the identity of a chip is made of, and what its rows are read from, has names, indexes,
identifiers and keys. Where no two chips share any, a read of all of them under the key of one is a
read of that chip alone.

* `Namespace.interfaceNames`, `Namespace.indexes`, `Namespace.objectIds`, `Namespace.objectKeys`:
  what occurs in a namespace. `Namespace.ManagesIndex`: an index that a management port uses.
* `Namespace.Apart`: nothing of one namespace occurs in the other.
* `Namespaces.Separate`: a device with healthy chips that are apart.
* `Namespaces.Separate.getAll_eq`: a read of all chips is that of the chip that the key belongs to.
-/

namespace SwitchMib
set_option autoImplicit false

open Identity Store

/-! ## What occurs in a namespace -/

namespace Store.Namespace

/-- The names of ports, groups, members of groups, router interfaces and ports of queues. -/
def interfaceNames (ns : Namespace) : List String :=
  let named (map : String) : List String := (ns.hash .counters map).keys
  named Schema.portNameMap ++ named Schema.lagNameMap ++ named Schema.rifNameMap ++
    LagMaps.groupsIn ns ++ (LagMaps.groupsIn ns).flatMap (LagMaps.membersIn ns) ++
    (named Schema.queueNameMap).filterMap fun name => (Text.cutFirst ':' name).map (·.1)

def indexes (ns : Namespace) : List UInt32 := ns.interfaceNames.filterMap Net.IfName.index?

/-- The identifiers of ports, groups and router interfaces, without their leads. -/
def objectIds (ns : Namespace) : List String :=
  let ids (map : String) : List String := (ns.hash .counters map).values.map Schema.bareId
  ids Schema.portNameMap ++ ids Schema.lagNameMap ++ ids Schema.rifNameMap ++
    (RifMaps.bindingsIn ns).flatMap fun p => [p.1, p.2]

/-- The keys of the settings of the interfaces and of the counters of the objects and queues. -/
def objectKeys (ns : Namespace) : List (Database × String) :=
  (ns.interfaceNames.flatMap fun name =>
    [Schema.portTable, Schema.lagTable, Schema.vlanTable].map fun table =>
      (.appl, Schema.tableKey table ':' name)) ++
  ns.objectIds.map (fun id => (.counters, Schema.counterKey id)) ++
  (ns.hash .counters Schema.queueNameMap).values.map fun id =>
    (.counters, Schema.queueCounterKey id)

/-- A management port has the index. -/
def ManagesIndex (ns : Namespace) (i : UInt32) : Prop :=
  ∃ name ∈ ns.below .config ManagementMaps.portLead, Net.IfName.index? name = some i

def Holds (ns : Namespace) (key : Database × String) : Prop := key.2 ∈ (ns.tables key.1).keys

/-- Nothing that occurs in one namespace occurs in the other. -/
structure Apart (a b : Namespace) : Prop where
  indexes : ∀ i ∈ a.indexes, i ∉ b.indexes
  ids : ∀ id ∈ a.objectIds, id ∉ b.objectIds
  keys : ∀ key ∈ a.objectKeys, ¬ b.Holds key
  keys' : ∀ key ∈ b.objectKeys, ¬ a.Holds key

instance : Std.Symm Apart where
  symm _ _ h := ⟨fun i hb ha => h.indexes i ha hb, fun id hb ha => h.ids id ha hb, h.keys', h.keys⟩

instance (ns : Namespace) (key : Database × String) : Decidable (ns.Holds key) :=
  inferInstanceAs (Decidable (key.2 ∈ (ns.tables key.1).keys))

instance (a b : Namespace) : Decidable (a.Apart b) :=
  -- to go through the list, not through all words
  have : Decidable (∀ i ∈ a.indexes, i ∉ b.indexes) := List.decidableBAll _ _
  decidable_of_iff ((∀ i ∈ a.indexes, i ∉ b.indexes) ∧ (∀ id ∈ a.objectIds, id ∉ b.objectIds) ∧
      (∀ key ∈ a.objectKeys, ¬ b.Holds key) ∧ ∀ key ∈ b.objectKeys, ¬ a.Holds key)
    ⟨fun ⟨hindexes, hids, hkeys, hkeys'⟩ => ⟨hindexes, hids, hkeys, hkeys'⟩,
      fun h => ⟨h.indexes, h.ids, h.keys, h.keys'⟩⟩

section Occurs

variable {ns : Namespace} {name id : String}

theorem mem_indexes {i : UInt32} (h : name ∈ ns.interfaceNames)
    (hi : Net.IfName.index? name = some i) : i ∈ ns.indexes :=
  List.mem_filterMap.2 ⟨name, h, hi⟩

theorem tableKey_mem_objectKeys {table : String} (h : name ∈ ns.interfaceNames)
    (htable : table ∈ [Schema.portTable, Schema.lagTable, Schema.vlanTable]) :
    (.appl, Schema.tableKey table ':' name) ∈ ns.objectKeys := by
  refine List.mem_append_left _ (List.mem_append_left _ ?_)
  exact List.mem_flatMap.2 ⟨name, h, List.mem_map.2 ⟨table, htable, rfl⟩⟩

theorem counterKey_mem_objectKeys (h : id ∈ ns.objectIds) :
    (.counters, Schema.counterKey id) ∈ ns.objectKeys := by
  refine List.mem_append_left _ (List.mem_append_right _ ?_)
  exact List.mem_map.2 ⟨id, h, rfl⟩

theorem queueKey_mem_objectKeys (h : id ∈ (ns.hash .counters Schema.queueNameMap).values) :
    (.counters, Schema.queueCounterKey id) ∈ ns.objectKeys :=
  List.mem_append_right _ (List.mem_map.2 ⟨id, h, rfl⟩)

end Occurs

end Store.Namespace

/-! ## What the identity of a namespace is made of -/

namespace Identity

variable {ns : Namespace}

theorem mem_keys_of_mem {entry : String × String} {d : Fields} (h : entry ∈ d.toList) :
    entry.1 ∈ d.keys := List.mem_map.2 ⟨entry, h, rfl⟩

theorem mem_values_of_mem {entry : String × String} {d : Fields} (h : entry ∈ d.toList) :
    entry.2 ∈ d.values := List.mem_map.2 ⟨entry, h, rfl⟩

namespace PortMaps

variable {maps : PortMaps}

theorem name_mem_of_mem_portsIn {port : Port} (h : port ∈ portsIn ns) :
    port.name ∈ ns.interfaceNames := by
  obtain ⟨entry, hentry, hport⟩ := mem_portsIn_iff.1 h
  obtain ⟨index, -, rfl⟩ := Option.map_eq_some_iff.1 hport
  simp [Namespace.interfaceNames, mem_keys_of_mem hentry]

theorem id_mem_of_mem_portsIn {port : Port} (h : port ∈ portsIn ns) : port.id ∈ ns.objectIds := by
  obtain ⟨entry, hentry, hport⟩ := mem_portsIn_iff.1 h
  obtain ⟨index, -, rfl⟩ := Option.map_eq_some_iff.1 hport
  have hid := List.mem_map_of_mem (f := Schema.bareId) (mem_values_of_mem hentry)
  simp [Namespace.objectIds, hid]

theorem exists_port_of_nameByIndex (h : (load ns).outcome = .ok maps) {i : UInt32} {name : String}
    (hname : maps.nameByIndex.get? i = some name) :
    ∃ port ∈ portsIn ns, port.index = i ∧ port.name = name := by
  have hget : maps.nameByIndex.get? i =
      Bindings.last? i ((portsIn ns).map fun port => (port.index, port.name)) :=
    get?_load (fun maps entry => by rw [addEntry, portOf?]; cases portIndex? entry.1 <;> rfl)
      (fun _ _ => rfl) rfl h i
  rw [hget] at hname
  obtain ⟨port, hport, hpair⟩ := List.mem_map.1 (Bindings.mem_of_last? hname)
  exact ⟨port, hport, Prod.mk.inj hpair⟩

theorem exists_port_of_idByName (h : (load ns).outcome = .ok maps) {name id : String}
    (hid : maps.idByName.get? name = some id) :
    ∃ port ∈ portsIn ns, port.name = name ∧ port.id = id := by
  have hget : maps.idByName.get? name =
      Bindings.last? name ((portsIn ns).map fun port => (port.name, port.id)) :=
    get?_load (fun maps entry => by rw [addEntry, portOf?]; cases portIndex? entry.1 <;> rfl)
      (fun _ _ => rfl) rfl h name
  rw [hget] at hid
  obtain ⟨port, hport, hpair⟩ := List.mem_map.1 (Bindings.mem_of_last? hid)
  exact ⟨port, hport, Prod.mk.inj hpair⟩

theorem exists_port_of_aliasByName (h : (load ns).outcome = .ok maps) {name shown : String}
    (hshown : maps.aliasByName.get? name = some shown) : ∃ port ∈ portsIn ns, port.name = name := by
  obtain ⟨aliases, hmaps, hnames⟩ := load_eq_ok h
  have hname : name ∈ maps.indexByName.keys := by
    rw [hmaps] at hshown ⊢
    exact hnames name (Dict.mem_keys_iff.2 (by rw [hshown]; rfl))
  obtain ⟨index, hindex⟩ := Option.isSome_iff_exists.1 (Dict.mem_keys_iff.1 hname)
  have hget : maps.indexByName.get? name =
      Bindings.last? name ((portsIn ns).map fun port => (port.name, port.index)) :=
    get?_load (fun maps entry => by rw [addEntry, portOf?]; cases portIndex? entry.1 <;> rfl)
      (fun _ _ => rfl) rfl h name
  rw [hget] at hindex
  obtain ⟨port, hport, hpair⟩ := List.mem_map.1 (Bindings.mem_of_last? hindex)
  exact ⟨port, hport, (Prod.mk.inj hpair).1⟩

end PortMaps

namespace LagMaps

variable {maps : LagMaps}

theorem name_mem_of_mem_groupsIn {lag : String} (h : lag ∈ groupsIn ns) :
    lag ∈ ns.interfaceNames := by
  simp [Namespace.interfaceNames, h]

theorem name_mem_of_mem_membersIn {lag member : String} (hlag : lag ∈ groupsIn ns)
    (h : member ∈ membersIn ns lag) : member ∈ ns.interfaceNames := by
  have hmember : member ∈ (groupsIn ns).flatMap (membersIn ns) :=
    List.mem_flatMap.2 ⟨lag, hlag, h⟩
  simp only [Namespace.interfaceNames, List.mem_append]
  exact .inl (.inr hmember)

theorem group_of_lagByIndex (h : (load ns).outcome = .ok maps) {i : UInt32} {lag : String}
    (hlag : maps.lagByIndex.get? i = some lag) :
    lag ∈ groupsIn ns ∧ Net.IfName.index? lag = some i := by
  obtain ⟨ids, rfl, -⟩ := load_eq_ok h
  rw [Dict.get?_foldl_insert lagByIndex (fun lag => (Net.IfName.index? lag).map (·, lag))
    (fun maps lag => by rw [addLag]; cases Net.IfName.index? lag <;> rfl)] at hlag
  obtain ⟨other, hother, hpair⟩ := List.mem_filterMap.1
    (Bindings.mem_of_last? (Option.or_none.symm.trans hlag))
  obtain ⟨index, hindex, hpair⟩ := Option.map_eq_some_iff.1 hpair
  obtain ⟨rfl, rfl⟩ := Prod.mk.inj hpair
  exact ⟨hother, hindex⟩

theorem group_of_membersByLag (h : (load ns).outcome = .ok maps) {lag : String}
    {members : List String} (hmembers : maps.membersByLag.get? lag = some members) :
    lag ∈ groupsIn ns ∧ members = membersIn ns lag := by
  rw [get?_membersByLag_load h] at hmembers
  split at hmembers
  · rename_i hlag
    exact ⟨hlag, (Option.some.inj hmembers).symm⟩
  · cases hmembers

theorem idByLag_foldl_addLag (ns : Namespace) (lags : List String) (maps : LagMaps) :
    (lags.foldl (fun maps lag => maps.addLag lag (membersIn ns lag)) maps).idByLag =
      maps.idByLag := by
  induction lags generalizing maps with
  | nil => rfl
  | cons lag lags ih => exact ih _

theorem entry_of_idByLag (h : (load ns).outcome = .ok maps) {lag id : String}
    (hid : maps.idByLag.get? lag = some id) : lag ∈ ns.interfaceNames ∧ id ∈ ns.objectIds := by
  obtain ⟨ids, rfl, hids⟩ := load_eq_ok h
  rw [idByLag_foldl_addLag] at hid
  obtain ⟨text, hentry, rfl⟩ := hids lag id hid
  have hbare := List.mem_map_of_mem (f := Schema.bareId) (mem_values_of_mem hentry)
  refine ⟨?_, ?_⟩
  · have hname : lag ∈ (ns.hash .counters Schema.lagNameMap).keys := mem_keys_of_mem hentry
    simp [Namespace.interfaceNames, hname]
  · simp [Namespace.objectIds, hbare]

end LagMaps

namespace VlanMaps

variable {maps : VlanMaps}

theorem index?_of_vlanIndex? {name : String} {i : UInt32} (h : vlanIndex? name = some i) :
    Net.IfName.index? name = some i := by
  unfold vlanIndex? at h
  rw [Net.IfName.index?]
  split at h
  · rename_i hclass
    rw [hclass]
    exact h
  · cases h

theorem load_eq_ok (h : (load ns).outcome = .ok maps) :
    maps = ofEntries (ns.hash .counters Schema.rifTypeMap)
      (ns.visit.order (ns.hash .counters Schema.rifNameMap)) := by
  obtain ⟨names, hnames, h⟩ := Load.outcome_bind_eq_ok_iff.1 h
  obtain ⟨types, htypes, h⟩ := Load.outcome_bind_eq_ok_iff.1 h
  obtain rfl := Namespace.eq_hash_of_getAll (Load.outcome_ofRead_eq_ok_iff.1 hnames)
  obtain rfl := Namespace.eq_hash_of_getAll (Load.outcome_ofRead_eq_ok_iff.1 htypes)
  exact (Except.ok.inj h).symm

/-- Whatever is kept of a VLAN interface by its index comes from an entry of the name map. -/
theorem exists_entry_of_get? {ν : Type} {field : VlanMaps → Dict UInt32 ν}
    {value : String × String → ν} (h : (load ns).outcome = .ok maps)
    (hadd : ∀ types maps entry, field (addEntry types maps entry) =
      match if types.get? entry.2 = some Schema.rifTypeVlan then vlanIndex? entry.1 else none with
      | some i => (field maps).insert i (value entry)
      | none => field maps)
    (hempty : field empty = Dict.empty) {i : UInt32} {v : ν}
    (hget : (field maps).get? i = some v) :
    ∃ entry ∈ (ns.hash .counters Schema.rifNameMap).toList,
      Net.IfName.index? entry.1 = some i ∧ value entry = v := by
  rw [load_eq_ok h, ofEntries, Dict.get?_foldl_insert field
    (fun entry => (if (ns.hash .counters Schema.rifTypeMap).get? entry.2 = some Schema.rifTypeVlan
      then vlanIndex? entry.1 else none).map (·, value entry))
    (fun maps entry => (hadd _ maps entry).trans (by split <;> simp_all)), hempty] at hget
  obtain ⟨entry, hentry, hpair⟩ := List.mem_filterMap.1
    (Bindings.mem_of_last? (Option.or_none.symm.trans hget))
  obtain ⟨index, hindex, hpair⟩ := Option.map_eq_some_iff.1 hpair
  obtain ⟨rfl, rfl⟩ := Prod.mk.inj hpair
  refine ⟨entry, (ns.visit.perm _).mem_iff.1 hentry, index?_of_vlanIndex? ?_, rfl⟩
  split at hindex
  · exact hindex
  · cases hindex

theorem name_mem_of_entry {entry : String × String}
    (h : entry ∈ (ns.hash .counters Schema.rifNameMap).toList) :
    entry.1 ∈ ns.interfaceNames := by
  simp [Namespace.interfaceNames, mem_keys_of_mem h]

theorem id_mem_of_entry {entry : String × String}
    (h : entry ∈ (ns.hash .counters Schema.rifNameMap).toList) :
    Schema.bareId entry.2 ∈ ns.objectIds := by
  have hbare := List.mem_map_of_mem (f := Schema.bareId) (mem_values_of_mem h)
  simp [Namespace.objectIds, hbare]

theorem entry_of_nameByIndex (h : (load ns).outcome = .ok maps) {i : UInt32} {name : String}
    (hname : maps.nameByIndex.get? i = some name) :
    name ∈ ns.interfaceNames ∧ Net.IfName.index? name = some i := by
  have hadd : ∀ types maps (entry : String × String), (addEntry types maps entry).nameByIndex =
      match if types.get? entry.2 = some Schema.rifTypeVlan then vlanIndex? entry.1 else none with
      | some i => maps.nameByIndex.insert i entry.1
      | none => maps.nameByIndex := by
    intro types maps entry
    rw [addEntry]
    split
    · cases vlanIndex? entry.1 <;> rfl
    · rfl
  obtain ⟨entry, hentry, hindex, rfl⟩ := exists_entry_of_get? h hadd rfl hname
  exact ⟨name_mem_of_entry hentry, hindex⟩

theorem entry_of_idByIndex (h : (load ns).outcome = .ok maps) {i : UInt32} {id : String}
    (hid : maps.idByIndex.get? i = some id) : i ∈ ns.indexes ∧ id ∈ ns.objectIds := by
  have hadd : ∀ types maps (entry : String × String), (addEntry types maps entry).idByIndex =
      match if types.get? entry.2 = some Schema.rifTypeVlan then vlanIndex? entry.1 else none with
      | some i => maps.idByIndex.insert i (Schema.bareId entry.2)
      | none => maps.idByIndex := by
    intro types maps entry
    rw [addEntry]
    split
    · cases vlanIndex? entry.1 <;> rfl
    · rfl
  obtain ⟨entry, hentry, hindex, rfl⟩ := exists_entry_of_get? h hadd rfl hid
  exact ⟨Namespace.mem_indexes (name_mem_of_entry hentry) hindex, id_mem_of_entry hentry⟩

end VlanMaps

namespace RifMaps

variable {maps : RifMaps}

theorem ids_mem_of_binding {rif port : String} (h : (rif, port) ∈ bindingsIn ns) :
    rif ∈ ns.objectIds ∧ port ∈ ns.objectIds := by
  have hids : ∀ id ∈ [rif, port], id ∈ ns.objectIds := fun id hid =>
    List.mem_append_right _ (List.mem_flatMap.2 ⟨(rif, port), h, hid⟩)
  exact ⟨hids rif (by simp), hids port (by simp)⟩

theorem binding_of_rifByPort (h : (load ns).outcome = .ok maps) {rif port : String}
    (hrif : maps.rifByPort.get? port = some rif) : (rif, port) ∈ bindingsIn ns := by
  rw [load_eq_ok h, Dict.get?_foldl_insert rifByPort (fun p => some p.swap) (fun _ _ => rfl)]
    at hrif
  obtain ⟨p, hp, hpair⟩ := List.mem_filterMap.1
    (Bindings.mem_of_last? (Option.or_none.symm.trans hrif))
  obtain rfl : p = (rif, port) := Prod.swap_injective (Option.some.inj hpair)
  exact hp

/-- A router interface that is found by its port is found by itself. -/
theorem portByRif_of_rifByPort {n : Namespaces} (h : (loadAll n).outcome = .ok maps)
    {rif port : String} (hrif : maps.rifByPort.get? port = some rif) :
    rif ∈ maps.portByRif.keys := by
  rw [get?_rifByPort_loadAll h] at hrif
  obtain ⟨p, hp, hpair⟩ := List.mem_map.1 (Bindings.mem_of_last? hrif)
  obtain rfl : p = (rif, port) := Prod.swap_injective hpair
  rw [Dict.mem_keys_iff, get?_portByRif_loadAll h, ← Option.ne_none_iff_isSome, ne_eq,
    Bindings.last?_eq_none_iff, not_not]
  exact List.mem_map.2 ⟨(rif, port), hp, rfl⟩

end RifMaps

theorem ManagementMaps.get?_of_not_managesIndex {maps : ManagementMaps}
    (h : (load ns).outcome = .ok maps) {i : UInt32} (hi : ¬ ns.ManagesIndex i) :
    maps.nameByIndex.get? i = none := by
  obtain ⟨keys, hread, h⟩ := Load.outcome_bind_eq_ok_iff.1 h
  have hkeys := Namespace.eq_of_keys_eq_ok (Load.outcome_ofRead_eq_ok_iff.1 hread)
  have hbelow : ∀ key ∈ keys, ∀ name, Text.after? portLead key = some name →
      name ∈ ns.below .config portLead := by
    intro key hkey name hname
    rw [hkeys] at hkey
    exact List.mem_filterMap.2 ⟨key, hkey, hname⟩
  refine Load.foldlM_induction (P := fun maps => maps.nameByIndex.get? i = none) rfl
    (fun maps hnone key hkey next hadd => ?_) h
  rw [addKey] at hadd
  cases hname : Text.after? portLead key with
  | none =>
    rw [hname] at hadd
    exact Except.ok.inj hadd ▸ hnone
  | some name =>
    rw [hname] at hadd
    cases hindex : Net.IfName.index? name with
    | none =>
      simp only [hindex] at hadd
      exact Except.ok.inj hadd ▸ hnone
    | some index =>
      simp only [hindex] at hadd
      obtain ⟨entry, -, hadd⟩ := Load.outcome_bind_eq_ok_iff.1 hadd
      have hne : i ≠ index := fun hsame => hi ⟨name, hbelow key hkey name hname, hsame ▸ hindex⟩
      rw [← Except.ok.inj hadd, Dict.get?_insert, KeyOrder.same_eq_false_iff.2 hne]
      exact hnone

end Identity

/-! ## A device whose chips are apart -/

namespace Store.Namespaces

structure Separate (n : Namespaces) : Prop where
  hasChips : n.chips ≠ []
  host : n.host.Healthy
  healthy : ∀ c ∈ n.chips, c.Healthy
  ports : ∀ c ∈ n.chips, c.HasPort
  apart : n.chips.Pairwise Namespace.Apart

instance (n : Namespaces) : Decidable n.Separate :=
  decidable_of_iff (n.chips ≠ [] ∧ n.host.Healthy ∧ (∀ c ∈ n.chips, c.Healthy) ∧
      (∀ c ∈ n.chips, c.HasPort) ∧ n.chips.Pairwise Namespace.Apart)
    ⟨fun ⟨hasChips, host, healthy, ports, apart⟩ => ⟨hasChips, host, healthy, ports, apart⟩,
      fun h => ⟨h.hasChips, h.host, h.healthy, h.ports, h.apart⟩⟩

/-- A device with a single namespace. -/
def alone (c : Namespace) : Namespaces := ⟨c, []⟩

namespace Separate

variable {n : Namespaces} {c d : Namespace}

theorem members (h : n.Separate) : n.members = n.chips := members_of_chips h.hasChips

theorem allHealthy (h : n.Separate) : n.Healthy := by
  intro c hc
  rw [h.members] at hc
  exact h.healthy c hc

theorem aloneHealthy (h : n.Separate) (hc : c ∈ n.chips) : (alone c).Healthy := by
  intro d hd
  obtain rfl := List.mem_singleton.1 hd
  exact h.healthy d hc

theorem apart_of_ne (h : n.Separate) (hc : c ∈ n.chips) (hd : d ∈ n.chips) (hne : d ≠ c) :
    d.Apart c := h.apart.forall hd hc hne

theorem not_shared (h : n.Separate) (hc : c ∈ n.chips) (hd : d ∈ n.chips) (hne : d ≠ c)
    {name : String} {i : UInt32} (hi : Net.IfName.index? name = some i)
    (hnamed : name ∈ d.interfaceNames) : i ∉ c.indexes :=
  (h.apart_of_ne hc hd hne).indexes i (Namespace.mem_indexes hnamed hi)

theorem getAll_eq (h : n.Separate) (hc : c ∈ n.chips) {db : Database} {key : String}
    (hkey : (db, key) ∈ c.objectKeys) :
    (n.getAll db key).value = ((alone c).getAll db key).value := by
  refine Dict.ext_get? fun field => ?_
  have hothers : ∀ d ∈ n.chips, d ≠ c → (d.hash db key).get? field = none := by
    intro d hd hne
    have habsent := (h.apart_of_ne hc hd hne).keys' (db, key) hkey
    have hnone : (d.tables db).get? key = none := by
      rw [Namespace.Holds, Dict.mem_keys_iff] at habsent
      exact Option.not_isSome_iff_eq_none.1 habsent
    rw [Namespace.hash, hnone]
    rfl
  have hown : (alone c).field? db key field = (c.hash db key).get? field :=
    findSome?_reverse_of_sole (l := [c]) List.mem_cons_self fun d hd hne =>
      absurd (List.mem_singleton.1 hd) hne
  rw [get?_getAll h.allHealthy, get?_getAll (h.aloneHealthy hc), hown, field?, h.members]
  exact findSome?_reverse_of_sole hc hothers

end Separate

end Store.Namespaces

end SwitchMib
