import SwitchMib.Proofs.Identity.Apart

/-!
# The identity of a chip within that of its device

Where the chips of a device are apart, the identity of the device says about one of them what the
identity of that chip alone says.

* `InterfaceMaps.OwnOf`, `InterfaceMaps.ownOf_load`: the two agree about all that belongs to the
  chip.
* `InterfaceMaps.Within`, `InterfaceMaps.within_load`: an identity has nothing that does not occur
  in the namespaces that it is loaded from.
-/

namespace SwitchMib.Identity
set_option autoImplicit false

open Store Store.Namespaces

namespace InterfaceMaps

theorem load_eq_ok {n : Namespaces} {maps : InterfaceMaps} (h : (load n).outcome = .ok maps) :
    (PortMaps.loadAll n).outcome = .ok maps.ports ∧ (LagMaps.loadAll n).outcome = .ok maps.lags ∧
      (VlanMaps.loadAll n).outcome = .ok maps.vlans ∧ (RifMaps.loadAll n).outcome = .ok maps.rifs ∧
      (ManagementMaps.load n.host).outcome = .ok maps.management := by
  obtain ⟨ports, hports, h⟩ := Load.outcome_bind_eq_ok_iff.1 h
  obtain ⟨lags, hlags, h⟩ := Load.outcome_bind_eq_ok_iff.1 h
  obtain ⟨vlans, hvlans, h⟩ := Load.outcome_bind_eq_ok_iff.1 h
  obtain ⟨rifs, hrifs, h⟩ := Load.outcome_bind_eq_ok_iff.1 h
  obtain ⟨management, hmanagement, h⟩ := Load.outcome_bind_eq_ok_iff.1 h
  obtain rfl := Except.ok.inj h
  exact ⟨hports, hlags, hvlans, hrifs, hmanagement⟩

/-- Two identities agree about what belongs to a namespace, management ports apart. -/
structure OwnOf (maps own : InterfaceMaps) (c : Namespace) : Prop where
  portNames : ∀ i ∈ c.indexes, maps.ports.nameByIndex.get? i = own.ports.nameByIndex.get? i
  aliases : ∀ name ∈ c.interfaceNames,
    maps.ports.aliasByName.get? name = own.ports.aliasByName.get? name
  portIds : ∀ name ∈ c.interfaceNames, maps.ports.idByName.get? name = own.ports.idByName.get? name
  groups : ∀ i ∈ c.indexes, maps.lags.lagByIndex.get? i = own.lags.lagByIndex.get? i
  members : ∀ name ∈ c.interfaceNames, (Net.IfName.index? name).isSome = true →
    maps.lags.membersByLag.get? name = own.lags.membersByLag.get? name
  groupIds : ∀ name ∈ c.interfaceNames, (Net.IfName.index? name).isSome = true →
    maps.lags.idByLag.get? name = own.lags.idByLag.get? name
  vlanNames : ∀ i ∈ c.indexes, maps.vlans.nameByIndex.get? i = own.vlans.nameByIndex.get? i
  vlanIds : ∀ i ∈ c.indexes, maps.vlans.idByIndex.get? i = own.vlans.idByIndex.get? i
  rifs : ∀ id ∈ c.objectIds, maps.rifs.rifByPort.get? id = own.rifs.rifByPort.get? id

section Separate

variable {n : Namespaces} {maps own : InterfaceMaps} {c : Namespace}

/-- No other chip binds any key of one chip, so it is bound as that chip alone binds it. -/
theorem ownOf_load (h : n.Separate) (hc : c ∈ n.chips) (hmaps : (load n).outcome = .ok maps)
    (hown : (load (alone c)).outcome = .ok own) : maps.OwnOf own c := by
  obtain ⟨hports, hlags, hvlans, hrifs, -⟩ := load_eq_ok hmaps
  obtain ⟨hports', hlags', hvlans', hrifs', -⟩ := load_eq_ok hown
  rw [PortMaps.loadAll, h.members] at hports
  rw [LagMaps.loadAll, h.members] at hlags
  rw [VlanMaps.loadAll, h.members] at hvlans
  rw [RifMaps.loadAll, h.members] at hrifs
  have hport : ∀ d ∈ n.chips, d ≠ c → ∀ port ∈ PortMaps.portsIn d, port.index ∉ c.indexes :=
    fun d hd hne port hport => h.not_shared hc hd hne (PortMaps.index?_of_mem_portsIn hport)
      (PortMaps.name_mem_of_mem_portsIn hport)
  have hnamed : ∀ d ∈ n.chips, d ≠ c → ∀ port ∈ PortMaps.portsIn d,
      port.name ∉ c.interfaceNames := fun d hd hne port hin hname =>
    hport d hd hne port hin (Namespace.mem_indexes hname (PortMaps.index?_of_mem_portsIn hin))
  have hname : ∀ d ∈ n.chips, d ≠ c → ∀ name ∈ c.interfaceNames,
      (Net.IfName.index? name).isSome = true → name ∉ d.interfaceNames := by
    intro d hd hne name hmem hindex hother
    obtain ⟨i, hi⟩ := Option.isSome_iff_exists.1 hindex
    exact h.not_shared hc hd hne hi hother (Namespace.mem_indexes hmem hi)
  refine ⟨fun i hi => ?_, fun name hmem => ?_, fun name hmem => ?_, fun i hi => ?_,
    fun name hmem hindex => ?_, fun name hmem hindex => ?_, fun i hi => ?_, fun i hi => ?_,
    fun id hid => ?_⟩
  · refine Load.get?_merged_of_sole hc hports hports' (fun _ _ => rfl) rfl
      fun d hd hne part hload name hget => ?_
    obtain ⟨port, hin, rfl, -⟩ := PortMaps.exists_port_of_nameByIndex hload hget
    exact hport d hd hne port hin hi
  · refine Load.get?_merged_of_sole hc hports hports' (fun _ _ => rfl) rfl
      fun d hd hne part hload shown hget => ?_
    obtain ⟨port, hin, rfl⟩ := PortMaps.exists_port_of_aliasByName hload hget
    exact hnamed d hd hne port hin hmem
  · refine Load.get?_merged_of_sole hc hports hports' (fun _ _ => rfl) rfl
      fun d hd hne part hload id hget => ?_
    obtain ⟨port, hin, rfl, -⟩ := PortMaps.exists_port_of_idByName hload hget
    exact hnamed d hd hne port hin hmem
  · refine Load.get?_merged_of_sole hc hlags hlags' (fun _ _ => rfl) rfl
      fun d hd hne part hload lag hget => ?_
    obtain ⟨hgroup, hindex⟩ := LagMaps.group_of_lagByIndex hload hget
    exact h.not_shared hc hd hne hindex (LagMaps.name_mem_of_mem_groupsIn hgroup) hi
  · refine Load.get?_merged_of_sole hc hlags hlags' (fun _ _ => rfl) rfl
      fun d hd hne part hload members hget => ?_
    obtain ⟨hgroup, -⟩ := LagMaps.group_of_membersByLag hload hget
    exact hname d hd hne name hmem hindex (LagMaps.name_mem_of_mem_groupsIn hgroup)
  · refine Load.get?_merged_of_sole hc hlags hlags' (fun _ _ => rfl) rfl
      fun d hd hne part hload id hget => ?_
    exact hname d hd hne name hmem hindex (LagMaps.entry_of_idByLag hload hget).1
  · refine Load.get?_merged_of_sole hc hvlans hvlans' (fun _ _ => rfl) rfl
      fun d hd hne part hload name hget => ?_
    obtain ⟨hother, hindex⟩ := VlanMaps.entry_of_nameByIndex hload hget
    exact h.not_shared hc hd hne hindex hother hi
  · refine Load.get?_merged_of_sole hc hvlans hvlans' (fun _ _ => rfl) rfl
      fun d hd hne part hload id hget => ?_
    exact (h.apart_of_ne hc hd hne).indexes i (VlanMaps.entry_of_idByIndex hload hget).1 hi
  · refine Load.get?_merged_of_sole hc hrifs hrifs' (fun _ _ => rfl) rfl
      fun d hd hne part hload rif hget => ?_
    have hbound := RifMaps.binding_of_rifByPort hload hget
    exact (h.apart_of_ne hc hd hne).ids id (RifMaps.ids_mem_of_binding hbound).2 hid

end Separate

/-- All that is in an identity occurs in some of the namespaces. -/
structure Within (maps : InterfaceMaps) (places : List Namespace) : Prop where
  portNames : ∀ i name, maps.ports.nameByIndex.get? i = some name →
    ∃ c ∈ places, name ∈ c.interfaceNames ∧ Net.IfName.index? name = some i
  portIds : ∀ name id, maps.ports.idByName.get? name = some id → ∃ c ∈ places, id ∈ c.objectIds
  groups : ∀ i lag, maps.lags.lagByIndex.get? i = some lag →
    ∃ c ∈ places, lag ∈ c.interfaceNames ∧ Net.IfName.index? lag = some i
  members : ∀ lag names, maps.lags.membersByLag.get? lag = some names →
    ∃ c ∈ places, ∀ name ∈ names, name ∈ c.interfaceNames
  groupIds : ∀ lag id, maps.lags.idByLag.get? lag = some id → ∃ c ∈ places, id ∈ c.objectIds
  vlanNames : ∀ i name, maps.vlans.nameByIndex.get? i = some name →
    ∃ c ∈ places, name ∈ c.interfaceNames ∧ Net.IfName.index? name = some i
  vlanIds : ∀ i id, maps.vlans.idByIndex.get? i = some id → ∃ c ∈ places, id ∈ c.objectIds
  rifs : ∀ id rif, maps.rifs.rifByPort.get? id = some rif → ∃ c ∈ places, rif ∈ c.objectIds

theorem within_load {n : Namespaces} {maps : InterfaceMaps} (h : (load n).outcome = .ok maps) :
    maps.Within n.members := by
  obtain ⟨hports, hlags, hvlans, hrifs, -⟩ := load_eq_ok h
  refine ⟨fun i name hget => ?_, fun name id hget => ?_, fun i lag hget => ?_,
    fun lag names hget => ?_, fun lag id hget => ?_, fun i name hget => ?_, fun i id hget => ?_,
    fun id rif hget => ?_⟩
  · obtain ⟨c, hc, part, hload, hpart⟩ :=
      Load.exists_part_of_merged hports (fun _ _ => rfl) rfl hget
    obtain ⟨port, hin, rfl, rfl⟩ := PortMaps.exists_port_of_nameByIndex hload hpart
    exact ⟨c, hc, PortMaps.name_mem_of_mem_portsIn hin, PortMaps.index?_of_mem_portsIn hin⟩
  · obtain ⟨c, hc, part, hload, hpart⟩ :=
      Load.exists_part_of_merged hports (fun _ _ => rfl) rfl hget
    obtain ⟨port, hin, -, rfl⟩ := PortMaps.exists_port_of_idByName hload hpart
    exact ⟨c, hc, PortMaps.id_mem_of_mem_portsIn hin⟩
  · obtain ⟨c, hc, part, hload, hpart⟩ :=
      Load.exists_part_of_merged hlags (fun _ _ => rfl) rfl hget
    obtain ⟨hgroup, hindex⟩ := LagMaps.group_of_lagByIndex hload hpart
    exact ⟨c, hc, LagMaps.name_mem_of_mem_groupsIn hgroup, hindex⟩
  · obtain ⟨c, hc, part, hload, hpart⟩ :=
      Load.exists_part_of_merged hlags (fun _ _ => rfl) rfl hget
    obtain ⟨hgroup, rfl⟩ := LagMaps.group_of_membersByLag hload hpart
    exact ⟨c, hc, fun name hname => LagMaps.name_mem_of_mem_membersIn hgroup hname⟩
  · obtain ⟨c, hc, part, hload, hpart⟩ :=
      Load.exists_part_of_merged hlags (fun _ _ => rfl) rfl hget
    exact ⟨c, hc, (LagMaps.entry_of_idByLag hload hpart).2⟩
  · obtain ⟨c, hc, part, hload, hpart⟩ :=
      Load.exists_part_of_merged hvlans (fun _ _ => rfl) rfl hget
    exact ⟨c, hc, VlanMaps.entry_of_nameByIndex hload hpart⟩
  · obtain ⟨c, hc, part, hload, hpart⟩ :=
      Load.exists_part_of_merged hvlans (fun _ _ => rfl) rfl hget
    exact ⟨c, hc, (VlanMaps.entry_of_idByIndex hload hpart).2⟩
  · obtain ⟨c, hc, part, hload, hpart⟩ :=
      Load.exists_part_of_merged hrifs (fun _ _ => rfl) rfl hget
    exact ⟨c, hc, (RifMaps.ids_mem_of_binding (RifMaps.binding_of_rifByPort hload hpart)).1⟩

theorem within_alone {c : Namespace} {own : InterfaceMaps}
    (h : (load (alone c)).outcome = .ok own) : own.Within [c] := within_load h

end InterfaceMaps

end SwitchMib.Identity
