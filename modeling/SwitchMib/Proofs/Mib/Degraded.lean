import SwitchMib.Proofs.Mib.Commits
import SwitchMib.Proofs.Store.Silent

/-!
# Tables on a device of which parts fail

Six tables make do with what can be read. A refresh of them comes to what it would come to if the
failing namespaces had no data, and commits the same. No read that fails makes it fail; only a queue
after whose number there is none does.

* `Blueprint.tolerant`: the six tables.
* `Updater.refresh_of_sameVoices`: silent namespaces do not show in a refresh.
* `Updater.Overflows`: a queue of a table has a counter that has no row.
* `Updater.answersAs_of_failing`: a refresh while some namespaces cannot be reached.
-/

namespace SwitchMib.Mib
set_option autoImplicit false

open Identity Snmp Store

section Device

variable {n n' : Namespaces}

/-! ## What is read -/

theorem readManagement_value (n : Namespaces) (name : String) :
    (InterfaceSnapshot.readManagement n name).value =
      [ (Database.config, Schema.tableKey Schema.managementPortConfig '|' name)
      , (Database.state, Schema.tableKey Schema.managementPortState '|' name) ].foldl
        (fun entry place => (n.host.getAll place.1 place.2).toOption.elim entry entry.merge)
        Dict.empty := by
  rw [InterfaceSnapshot.readManagement, Logged.value_foldlM]
  congr
  funext entry place
  simp only
  cases n.host.getAll place.1 place.2 <;> rfl

theorem readManagement_of_silent (h : n.host.Silent) (name : String) :
    (InterfaceSnapshot.readManagement n name).value = Dict.empty := by
  have hplace : ∀ (entry : Fields) (db : Database) (key : String),
      (n.host.getAll db key).toOption.elim entry entry.merge = entry := by
    intro entry db key
    cases hread : n.host.getAll db key with
    | error e => rfl
    | ok fields =>
      rw [h.getAll db key fields hread]
      rfl
  rw [readManagement_value, List.foldl_cons, List.foldl_cons, hplace, hplace]
  rfl

theorem readEntry_of_sameVoices (h : n.SameVoices n') (kind : RowKind) (name : String) :
    (InterfaceSnapshot.readEntry n kind name).value =
      (InterfaceSnapshot.readEntry n' kind name).value := by
  cases kind with
  | port => exact h.getAll _ _
  | lag => exact h.getAll _ _
  | vlan => exact h.getAll _ _
  | management =>
    show (InterfaceSnapshot.readManagement n name).value =
      (InterfaceSnapshot.readManagement n' name).value
    rcases h.host with hsame | ⟨hsilent, hsilent'⟩
    · rw [readManagement_value, readManagement_value, hsame]
    · rw [readManagement_of_silent hsilent, readManagement_of_silent hsilent']

theorem read_of_sameVoices (h : n.SameVoices n') (identity : InterfaceMaps) :
    (InterfaceSnapshot.read n identity).value = (InterfaceSnapshot.read n' identity).value := by
  have hrow : ∀ rows item, (InterfaceSnapshot.addRow n rows item).value =
      (InterfaceSnapshot.addRow n' rows item).value := by
    rintro rows ⟨index, kind, name⟩
    exact congrArg (fun entry => rows.insert index ⟨kind, name, entry⟩)
      (readEntry_of_sameVoices h kind name)
  have hport : ∀ counters id, (InterfaceSnapshot.addPortCounters n counters id).value =
      (InterfaceSnapshot.addPortCounters n' counters id).value := by
    intro counters id
    exact congrArg (fun fields => counters.insert id fields) (h.getAll _ _)
  have hrif : ∀ counters id, (InterfaceSnapshot.addRifCounters n counters id).value =
      (InterfaceSnapshot.addRifCounters n' counters id).value := by
    intro counters id
    unfold InterfaceSnapshot.addRifCounters
    split
    · rfl
    · exact hport counters id
  simp only [InterfaceSnapshot.read, Logged.value_bind, Logged.value_foldlM, Logged.value_pure,
    hrow, hport, hrif]

theorem resolve_of_sameVoices (h : n.SameVoices n') (maps : ForwardingMaps) (key : String) :
    (resolve n maps key).value = (resolve n' maps key).value := by
  have hvlan : ∀ parsed, (readVlan n parsed).value = (readVlan n' parsed).value := by
    intro parsed
    unfold readVlan
    split
    · rfl
    · rfl
    · simp only [Logged.value_bind, Logged.value_pure, Aggregated.serve, h.getAll]
  unfold resolve
  cases readKey key with
  | error skip => rfl
  | ok found =>
    obtain ⟨parsed, mac⟩ := found
    simp only [Logged.value_bind, Aggregated.serve, h.getAll]
    cases learnedOn maps (n'.getAll .asic key).value with
    | error skip => rfl
    | ok index =>
      simp only [Logged.value_bind, hvlan]

theorem readForwarding_of_sameVoices (h : n.SameVoices n') (maps : ForwardingMaps)
    (warned : Once String) :
    (readForwarding n maps warned).value = (readForwarding n' maps warned).value := by
  have hkey : ∀ acc key, (addForwarding n maps acc key).value =
      (addForwarding n' maps acc key).value := by
    intro acc key
    simp only [addForwarding, Logged.value_bind, resolve_of_sameVoices h]
  simp only [readForwarding, Logged.value_bind, Aggregated.serve, h.keys, Logged.value_foldlM, hkey]

theorem readSensors_of_sameVoices (h : n.SameVoices n')
    (encode : SensorKind → String → Option Int32) (ports : PortMaps) :
    (readSensors encode n ports).value = (readSensors encode n' ports).value := by
  have hkey : ∀ readings key, (addTransceiver encode n ports readings key).value =
      (addTransceiver encode n' ports readings key).value := by
    intro readings key
    unfold addTransceiver
    cases Text.after? transceiverLead key with
    | none => rfl
    | some port =>
      simp only
      cases ports.indexByName.get? port with
      | none => rfl
      | some index =>
        exact congrArg (fun fields : Fields =>
          readings.insertAll (fields.toList.filterMap (readingOf encode index))) (h.getAll .state _)
  simp only [readSensors, Logged.value_bind, Aggregated.serve, h.keys, Logged.value_foldlM, hkey]

theorem readQueues_of_sameVoices (h : n.SameVoices n') (maps : QueueMaps) (warned : Once String) :
    (readQueues n maps warned).value = (readQueues n' maps warned).value := by
  refine Attempt.value_each_congr (fun q acc => ?_) _ _
  unfold addQueueCounters
  cases maps.idByQueue.get? q with
  | none => rfl
  | some id =>
    let key := Schema.queueCounterKey id
    exact congrArg
      (fun stats => (Attempt.each (addQueueCounter q key stats) queueCounters acc).value)
      (h.getAll .counters key)

theorem addHops_of_silent (rows : SubIdIndex Net.Ipv4) {ns : Namespace} (h : ns.Silent) :
    (addHops rows ns).value = rows := by
  unfold addHops
  cases hread : ns.getAll .appl defaultRouteKey with
  | error e => rfl
  | ok entry =>
    rw [h.getAll .appl defaultRouteKey entry hread]
    rfl

theorem hops_of_sameVoices (h : n.SameVoices n') :
    (n.members.foldlM addHops Dict.empty).value = (n'.members.foldlM addHops Dict.empty).value := by
  rw [Logged.value_foldlM, Logged.value_foldlM]
  exact h.members.foldl_eq (fun rows ns hns => addHops_of_silent rows hns) Dict.empty

theorem pollAll_of_silent {host : Namespace} (h : host.Silent) :
    (pollAll (.ofHost host)).value = [] := by
  have hcount : (countSupplies (.ofHost host)).value = 0 := by
    unfold countSupplies PowerSource.ofHost
    cases hread : host.getAll .state PowerSource.chassisKey with
    | error e => rfl
    | ok entry =>
      rw [h.getAll .state PowerSource.chassisKey entry hread]
      rfl
  rw [pollAll, Logged.value_bind, hcount]
  rfl

theorem pollAll_of_sameVoices (h : n.SameVoices n') :
    (pollAll (.ofHost n.host)).value = (pollAll (.ofHost n'.host)).value := by
  rcases h.host with hsame | ⟨hsilent, hsilent'⟩
  · rw [hsame]
  · rw [pollAll_of_silent hsilent, pollAll_of_silent hsilent']

end Device

/-! ## What a refresh comes to -/

/-- The tables that make do with what can be read. -/
def Blueprint.tolerant : List Blueprint :=
  [.interfaces, .forwarding, .routes, .sensors, .queueStats, .power .host]

namespace Updater

variable {u : Updater}

/-- Silent namespaces do not show in a refresh. -/
theorem refresh_of_sameVoices {out out' : Outside}
    (h : out.namespaces.SameVoices out'.namespaces) (hu : u.blueprint ∈ Blueprint.tolerant) :
    (u.refresh out).value = (u.refresh out').value := by
  cases u with
  | interfaces t =>
    exact congrArg (fun snap => Attempt.done (interfaces { t with cell := ⟨snap, .seeded⟩ }))
      (read_of_sameVoices h t.identity)
  | forwarding t =>
    exact congrArg (fun found : ForwardingRows => Attempt.done (forwarding { t with
      cell := ⟨found.rows, .seeded⟩, warned := found.warned }))
      (readForwarding_of_sameVoices h t.identity t.warned)
  | routes t =>
    exact congrArg (fun rows => Attempt.done (routes ⟨⟨rows, .seeded⟩⟩)) (hops_of_sameVoices h)
  | sensors t =>
    exact congrArg (fun readings => Attempt.done (sensors { t with cell := ⟨readings, .seeded⟩ }))
      (readSensors_of_sameVoices h _ t.ports)
  | queueStats t =>
    exact congrArg (fun read : Attempt QueueRows Failure => Attempt.mk read.outcome (queueStats
      { t with
        cell := t.cell.refresh (read.outcome.map fun _ => read.after.rows)
        warned := read.after.warned }))
      (readQueues_of_sameVoices h t.queues t.warned)
  | power t =>
    obtain ⟨origin, cell⟩ := t
    cases origin with
    | host =>
      exact congrArg (fun statuses => Attempt.done (power ⟨.host, ⟨statuses, .seeded⟩⟩))
        (pollAll_of_sameVoices h)
    | platform => simp [blueprint, Blueprint.tolerant] at hu
  | neighbours t => simp [blueprint, Blueprint.tolerant] at hu
  | overlay t => simp [blueprint, Blueprint.tolerant] at hu

/-- A queue of the table has a counter that can be read, and no number follows that of the queue. -/
def Overflows (n : Namespaces) : Updater → Prop
  | .queueStats t => Mib.Overflows n t.queues
  | _ => False

theorem outcome_refresh_of_tolerant (out : Outside) (hu : u.blueprint ∈ Blueprint.tolerant) :
    ((u.refresh out).value.outcome = .ok () ↔ ¬ u.Overflows out.namespaces) ∧
      ((u.refresh out).value.outcome = .error .overflow ↔ u.Overflows out.namespaces) := by
  cases u with
  | neighbours t => simp [blueprint, Blueprint.tolerant] at hu
  | overlay t => simp [blueprint, Blueprint.tolerant] at hu
  | queueStats t =>
    exact ⟨outcome_readQueues_eq_ok_iff _ _ _,
      (outcome_readQueues_eq_error_iff _ _ _).trans (and_iff_right rfl)⟩
  | _ => exact ⟨iff_of_true rfl id, iff_of_false nofun id⟩

/-- Whatever the identity of a table and whatever the stores hold, a refresh while the namespaces at
some positions cannot be reached comes to what it comes to if these have no data, or, where another
chip is left, if their chips are missing, and leaves the table to answer as it does then. It
succeeds just when no queue that is read overflows. What none of the namespaces has that fail is
read as if all could be reached. -/
theorem answersAs_of_failing (out : Outside) (down : Nat → Bool)
    (hu : u.blueprint ∈ Blueprint.tolerant) :
    let n := out.namespaces
    let refreshed (n : Namespaces) : Attempt Updater Failure :=
      (u.refresh { out with namespaces := n }).value
    let failing := refreshed (n.failing down)
    (failing.outcome = .ok () ↔ ¬ u.Overflows (n.failing down)) ∧
    (failing.outcome = .error .overflow ↔ u.Overflows (n.failing down)) ∧
    (failing.outcome = .ok () → failing.after.state = .seeded) ∧
    (failing.outcome = (refreshed (n.emptied down)).outcome ∧
      AnswersAs failing.after (refreshed (n.emptied down)).after) ∧
    ((n.reduced down).chips ≠ [] → failing.outcome = (refreshed (n.reduced down)).outcome ∧
      AnswersAs failing.after (refreshed (n.reduced down)).after) ∧
    ∀ (db : Database) (key : String),
      (∀ field, (∀ p ∈ n.toList.zipIdx, down p.2 = true → (p.1.hash db key).get? field = none) →
        ((n.failing down).getAll db key).value.get? field =
          ((n.failing fun _ => false).getAll db key).value.get? field) ∧
      ((∀ p ∈ n.toList.zipIdx, down p.2 = true → key ∉ (p.1.tables db).keys) → ∀ pattern,
        (key ∈ ((n.failing down).keys db pattern).value ↔
          key ∈ ((n.failing fun _ => false).keys db pattern).value)) := by
  intro n refreshed failing
  obtain ⟨hdone, hover⟩ :=
    outcome_refresh_of_tolerant { out with namespaces := n.failing down } hu
  have hsame : ∀ n', (n.failing down).SameVoices n' →
      failing.outcome = (refreshed n').outcome ∧ AnswersAs failing.after (refreshed n').after := by
    intro n' hvoices
    have heq : failing = refreshed n' := refresh_of_sameVoices hvoices hu
    rw [heq]
    exact ⟨rfl, fun _ => rfl, fun _ => rfl, rfl⟩
  refine ⟨hdone, hover, state_refresh_of_done _, hsame _ (Namespaces.sameVoices_emptied n down),
    fun hleft => hsame _ (Namespaces.sameVoices_reduced n down hleft),
    fun db key => ⟨fun field hnone => ?_, fun hnone pattern => ?_⟩⟩
  · exact Namespaces.get?_getAll_failing hnone
  · exact Namespaces.mem_keys_failing_iff hnone

/-- Two chips with a port each, that has counted octets. -/
def worldOfPorts : Outside :=
  let chip (name port id octets : String) : Namespace :=
    ((Namespace.empty name).setFields .counters Schema.portNameMap
      [(port, Schema.idLead ++ id)]).setFields .counters (Schema.counterKey id)
        [("SAI_PORT_STAT_IF_IN_OCTETS", octets)]
  { namespaces :=
      ⟨.empty "", [chip "asic0" "Ethernet0" "1a" "7", chip "asic1" "Ethernet4" "2a" "8"]⟩
    neighbours := .ok ""
    platform := ⟨.ok 0, fun _ => .ok false, fun _ => .ok false⟩ }

/-- While the second chip cannot be reached, the row of its port stays without its counter. The port
of the first chip has its counter all the time. -/
theorem answersAs_of_failing_of_second_chip :
    let n := worldOfPorts.namespaces
    let down : Nat → Bool := (· == 2)
    ∃ u, (Blueprint.interfaces.build worldOfPorts).outcome = .ok u ∧
      u.blueprint ∈ Blueprint.tolerant ∧
      u.valueAt [2, 1, 10, 1] = some (.counter32 7) ∧
      u.valueAt [2, 1, 10, 5] = some (.counter32 8) ∧
      (u.refresh { worldOfPorts with namespaces := n.failing down }).value.outcome = .ok () ∧
      ∃ v, v = (u.refresh { worldOfPorts with namespaces := n.failing down }).value.after ∧
        AnswersAs v (u.refresh { worldOfPorts with namespaces := n.emptied down }).value.after ∧
        AnswersAs v (u.refresh { worldOfPorts with namespaces := n.reduced down }).value.after ∧
        v.valueAt [2, 1, 10, 1] = some (.counter32 7) ∧
        v.valueAt [2, 1, 2, 5] = some (.text "Ethernet4") ∧ v.valueAt [2, 1, 10, 5] = none := by
  intro n down
  have hvalues : (Blueprint.interfaces.build worldOfPorts).outcome.map (fun u =>
      let v := (u.refresh { worldOfPorts with namespaces := n.failing down }).value.after
      (u.blueprint, [u.valueAt [2, 1, 10, 1], u.valueAt [2, 1, 10, 5], v.valueAt [2, 1, 10, 1],
        v.valueAt [2, 1, 2, 5], v.valueAt [2, 1, 10, 5]])) =
      .ok (.interfaces, [some (.counter32 7), some (.counter32 8), some (.counter32 7),
        some (.text "Ethernet4"), none]) := by decide +kernel
  obtain ⟨u, hu, hvalues⟩ := exists_eq_ok_of_map hvalues
  simp only [Prod.mk.injEq, List.cons.injEq, and_true] at hvalues
  obtain ⟨hblueprint, hfirst, hsecond, hkept, hname, hmissing⟩ := hvalues
  have hmem : u.blueprint ∈ Blueprint.tolerant := by
    rw [hblueprint]
    exact List.mem_cons_self
  obtain ⟨hdone, -, -, hemptied, hreduced, -⟩ := answersAs_of_failing worldOfPorts down hmem
  have hleft : (n.reduced down).chips ≠ [] := List.cons_ne_nil _ _
  have hnone : ¬ u.Overflows (n.failing down) := by
    cases u with
    | interfaces t => exact id
    | _ => cases hblueprint
  exact ⟨u, hu, hmem, hfirst, hsecond, hdone.2 hnone, _, rfl, hemptied.2, (hreduced hleft).2, hkept,
    hname, hmissing⟩

/-- Two chips with a queue each that has counted packets. The first chip has a queue with the last
of all numbers too, which has counted in the end only. -/
def worldOfLastQueue (counters : List (String × String)) : Outside :=
  let chip (name queue id : String) : Namespace :=
    ((Namespace.empty name).setFields .counters Schema.queueNameMap [(queue, id)]).setFields
      .counters (Schema.queueCounterKey id) [("SAI_QUEUE_STAT_PACKETS", "7")]
  let last := "oid:0x16"
  { namespaces :=
      ⟨.empty "",
        [((chip "asic0" "Ethernet0:3" "oid:0x15").setFields .counters Schema.queueNameMap
          [("Ethernet0:4294967295", last)]).setFields .counters (Schema.queueCounterKey last)
            counters,
        chip "asic1" "Ethernet4:3" "oid:0x17"]⟩
    neighbours := .ok ""
    platform := ⟨.ok 0, fun _ => .ok false, fun _ => .ok false⟩ }

/-- A refresh while the second chip cannot be reached overflows at the queue with the last
number. -/
theorem not_done_of_last_queue :
    let n := (worldOfLastQueue [("SAI_QUEUE_STAT_PACKETS", "9")]).namespaces
    (∃ u, (Blueprint.queueStats.build (worldOfLastQueue [])).outcome = .ok u ∧
      u.blueprint ∈ Blueprint.tolerant ∧
      (u.refresh { worldOfLastQueue [] with namespaces := n.failing (· == 2) }).value.outcome =
        .error .overflow) ∧
    ¬ ∀ (u : Updater) (out : Outside) (down : Nat → Bool), u.blueprint ∈ Blueprint.tolerant →
      let failing := { out with namespaces := out.namespaces.failing down }
      (u.refresh failing).value.outcome = .ok () := by
  intro n
  let out : Outside := { worldOfLastQueue [] with namespaces := n }
  let failing : Outside := { out with namespaces := n.failing (· == 2) }
  have hrun : (Blueprint.queueStats.build (worldOfLastQueue [])).outcome.map (fun u =>
      (u.blueprint, (u.refresh failing).value.outcome.isOk)) = .ok (.queueStats, false) := by
    decide +kernel
  obtain ⟨u, hu, hrun⟩ := exists_eq_ok_of_map hrun
  obtain ⟨hblueprint, hfails⟩ := Prod.mk.inj hrun
  have hmem : u.blueprint ∈ Blueprint.tolerant := by simp [hblueprint, Blueprint.tolerant]
  obtain ⟨hdone, hover⟩ := outcome_refresh_of_tolerant failing hmem
  have hnot : (u.refresh failing).value.outcome ≠ .ok () := by
    intro hok
    rw [hok] at hfails
    cases hfails
  exact ⟨⟨u, hu, hmem, hover.2 (not_not.1 fun h => hnot (hdone.2 h))⟩,
    fun hall => hnot (hall u out (· == 2) hmem)⟩

end Updater

end SwitchMib.Mib
