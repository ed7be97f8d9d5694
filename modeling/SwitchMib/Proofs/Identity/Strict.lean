import SwitchMib.Mib.Interfaces
import SwitchMib.Proofs.Log
import SwitchMib.Proofs.Store.Script

/-!
# A failed read fails the load of an identity

The identity of the interfaces is loaded by reads that depend on each other. Every one of them that
fails makes the whole load fail, but for one: without the identifiers of the groups the load goes
on, and what it makes of the rest passes for the identity of the interfaces.

* `PortMaps.script`, `LagMaps.script` and so on: the loads, read by read. `InterfaceMaps.run_script`
  shows that they are the loads.
* `isGroupNames`: the reads of the identifiers of the groups.
* `InterfaceMaps.strict_script`: all other reads are strict.
* `Interfaces.reinit_strict_iff`: the reads that fail a load, and with it a reinit.
* `Interfaces.reinit_not_strict_of_group_names`: the one that does not.
-/

namespace SwitchMib.Identity
set_option autoImplicit false

open Store

/-! ## Loads of the members -/

section Merged

variable {β : Type}

/-- The parts of all members, merged in order. -/
def mergedScript (merge : β → β → β) (part : Namespace → Script β) (start : β) (n : Namespaces) :
    Script β :=
  n.members.foldlM (fun maps ns => do pure (merge maps (← part ns))) start

theorem run_mergedScript (merge : β → β → β) {part : Namespace → Script β}
    {load : Namespace → Load AgentError β} (h : ∀ ns, (part ns).run = load ns) (start : β)
    (n : Namespaces) :
    (mergedScript merge part start n).run =
      n.members.foldlM (fun maps ns => do pure (merge maps (← load ns))) start := by
  simp [mergedScript, h]

theorem strict_mergedScript {lenient : Read → Bool} (merge : β → β → β)
    {part : Namespace → Script β} (h : ∀ ns, (part ns).Strict lenient) (start : β)
    (n : Namespaces) : (mergedScript merge part start n).Strict lenient := by
  apply Script.Strict.foldlM
  intro maps ns
  exact (h ns).bind fun _ => Script.Strict.pure _

end Merged

/-- Whether a read is that of the identifiers of the groups. -/
def isGroupNames : Read → Bool
  | .getAll _ db key => db == .counters && key == Schema.lagNameMap
  | .keys _ _ _ => false

theorem strict_keys (ns : Namespace) (db : Database) (pattern : String) :
    (Script.keys ns db pattern).Strict isGroupNames := Script.Strict.orFail rfl

theorem strict_getAll {ns : Namespace} {db : Database} {key : String}
    (h : (db == .counters && key == Schema.lagNameMap) = false) :
    (Script.getAll ns db key).Strict isGroupNames := Script.Strict.orFail h

/-! ## Ports -/

namespace PortMaps

def aliasScript (ns : Namespace) (maps : PortMaps) (name : String) : Script PortMaps := do
  let entry ← Script.getAll ns .appl (Schema.tableKey Schema.portTable ':' name)
  let shown := (entry.get? Schema.aliasField).getD name
  pure { maps with aliasByName := maps.aliasByName.insert name shown }

def entriesScript (ns : Namespace) (entries : List (String × String)) : Script PortMaps :=
  let maps := entries.foldl addEntry empty
  let dropped := droppedNames entries
  if maps.isEmpty then .fail (.incoherent Schema.portNameMap (.noPorts ns.name))
  else do
    if !dropped.isEmpty then Script.warn (.portsDropped dropped)
    maps.indexByName.keys.foldlM (aliasScript ns) maps

def script (ns : Namespace) : Script PortMaps := do
  let entries ← Script.getAll ns .counters Schema.portNameMap
  entriesScript ns (ns.visit.order entries)

theorem run_aliasScript (ns : Namespace) (maps : PortMaps) (name : String) :
    (aliasScript ns maps name).run = addAlias ns maps name := by
  simp [aliasScript, addAlias]

theorem run_entriesScript (ns : Namespace) (entries : List (String × String)) :
    (entriesScript ns entries).run = ofEntries ns entries := by
  unfold entriesScript ofEntries
  by_cases hnone : (entries.foldl addEntry empty).isEmpty = true
  · simp [hnone]
  · by_cases hdropped : (droppedNames entries).isEmpty = true <;>
      simp [hnone, hdropped, run_aliasScript]

theorem run_script (ns : Namespace) : (script ns).run = load ns := by
  simp [script, load, run_entriesScript]

theorem strict_entriesScript (ns : Namespace) (entries : List (String × String)) :
    (entriesScript ns entries).Strict isGroupNames := by
  have halias : ∀ maps name, (aliasScript ns maps name).Strict isGroupNames := by
    intro maps name
    exact (strict_getAll rfl).bind fun _ => Script.Strict.pure _
  have hrest : ∀ maps : PortMaps,
      (maps.indexByName.keys.foldlM (aliasScript ns) maps).Strict isGroupNames := by
    intro maps
    exact Script.Strict.foldlM halias _ _
  unfold entriesScript
  by_cases hnone : (entries.foldl addEntry empty).isEmpty = true
  · rw [if_pos hnone]
    intro e he
    cases he
  · rw [if_neg hnone]
    by_cases hdropped : (!(droppedNames entries).isEmpty) = true
    · rw [if_pos hdropped]
      exact (Script.Strict.warn _).bind fun _ => hrest _
    · rw [if_neg hdropped]
      exact hrest _

theorem strict_script (ns : Namespace) : (script ns).Strict isGroupNames := by
  have hkey : (Schema.portNameMap == Schema.lagNameMap) = false := by decide
  exact (strict_getAll (by simp [hkey])).bind fun entries => strict_entriesScript ns _

end PortMaps

/-! ## Groups -/

namespace LagMaps

def idsScript (ns : Namespace) : Script (Dict String String) :=
  .ask (.getAll ns .counters Schema.lagNameMap) fun
    | .ok entries =>
      pure (Dict.empty.insertAll (entries.toList.map fun (lag, id) => (lag, Schema.bareId id)))
    | .error e => do
      Script.warn (.lagNamesUnread e)
      pure Dict.empty

def keyScript (ns : Namespace) (maps : LagMaps) (key : String) : Script LagMaps :=
  match Text.after? lagLead key with
  | none => pure maps
  | some lag => do
    let memberKeys ← Script.keys ns .appl (memberLead lag ++ "*")
    pure (maps.addLag lag (memberKeys.filterMap (Text.after? (memberLead lag))))

def script (ns : Namespace) : Script LagMaps := do
  let keys ← Script.keys ns .appl (lagLead ++ "*")
  if keys.isEmpty then pure empty
  else
    let ids ← idsScript ns
    keys.foldlM (keyScript ns) { empty with idByLag := ids }

theorem run_idsScript (ns : Namespace) : (idsScript ns).run = readIds ns := by
  unfold idsScript readIds
  simp only [Script.run, Read.answer]
  cases ns.getAll .counters Schema.lagNameMap with
  | ok entries => rfl
  | error e => simp

theorem run_keyScript (ns : Namespace) (maps : LagMaps) (key : String) :
    (keyScript ns maps key).run = addKey ns maps key := by
  unfold keyScript addKey
  cases Text.after? lagLead key <;> simp

theorem run_script (ns : Namespace) : (script ns).run = load ns := by
  unfold script load
  rw [Script.run_bind, Script.run_keys]
  congr
  funext keys
  by_cases hnone : keys.isEmpty = true
  · simp [hnone]
  · simp [hnone, run_idsScript, run_keyScript]

theorem strict_idsScript (ns : Namespace) : (idsScript ns).Strict isGroupNames := by
  refine Script.Strict.ofLenient (by simp [isGroupNames]) fun answer => ?_
  cases answer with
  | ok entries => exact Script.Strict.pure _
  | error e => exact (Script.Strict.warn _).bind fun _ => Script.Strict.pure _

theorem strict_keyScript (ns : Namespace) (maps : LagMaps) (key : String) :
    (keyScript ns maps key).Strict isGroupNames := by
  unfold keyScript
  cases Text.after? lagLead key with
  | none => exact Script.Strict.pure _
  | some lag => exact (strict_keys _ _ _).bind fun _ => Script.Strict.pure _

theorem strict_script (ns : Namespace) : (script ns).Strict isGroupNames := by
  refine (strict_keys _ _ _).bind fun keys => ?_
  by_cases hnone : keys.isEmpty = true
  · rw [if_pos hnone]
    exact Script.Strict.pure _
  · rw [if_neg hnone]
    exact (strict_idsScript ns).bind fun _ => Script.Strict.foldlM (strict_keyScript ns) _ _

end LagMaps

/-! ## VLAN interfaces -/

namespace VlanMaps

def script (ns : Namespace) : Script VlanMaps := do
  let names ← Script.getAll ns .counters Schema.rifNameMap
  let types ← Script.getAll ns .counters Schema.rifTypeMap
  pure (ofEntries types (ns.visit.order names))

theorem run_script (ns : Namespace) : (script ns).run = load ns := by
  simp [script, load]

theorem strict_script (ns : Namespace) : (script ns).Strict isGroupNames := by
  have hnames : (Schema.rifNameMap == Schema.lagNameMap) = false := by decide
  have htypes : (Schema.rifTypeMap == Schema.lagNameMap) = false := by decide
  refine (strict_getAll (by simp [hnames])).bind fun _ => ?_
  exact (strict_getAll (by simp [htypes])).bind fun _ => Script.Strict.pure _

end VlanMaps

/-! ## Router interfaces -/

namespace RifMaps

def keyScript (ns : Namespace) (maps : RifMaps) (key : String) : Script RifMaps :=
  match Text.after? rifLead key with
  | none => pure maps
  | some rif => do
    let entry ← Script.getAll ns .asic key
    match entry.get? Schema.rifPort with
    | some port => pure (maps.bind (Schema.bareId rif) (Schema.bareId port))
    | none => pure maps

def script (ns : Namespace) : Script RifMaps := do
  let keys ← Script.keys ns .asic (rifLead ++ "*")
  keys.foldlM (keyScript ns) empty

theorem run_keyScript (ns : Namespace) (maps : RifMaps) (key : String) :
    (keyScript ns maps key).run = addKey ns maps key := by
  unfold keyScript addKey
  cases Text.after? rifLead key with
  | none => rfl
  | some rif =>
    simp only [Script.run_bind, Script.run_getAll]
    congr
    funext entry
    cases entry.get? Schema.rifPort <;> rfl

theorem run_script (ns : Namespace) : (script ns).run = load ns := by
  simp [script, load, run_keyScript]

theorem strict_keyScript (ns : Namespace) (maps : RifMaps) (key : String) :
    (keyScript ns maps key).Strict isGroupNames := by
  unfold keyScript
  cases Text.after? rifLead key with
  | none => exact Script.Strict.pure _
  | some rif =>
    refine (strict_getAll rfl).bind fun entry => ?_
    split <;> exact Script.Strict.pure _

theorem strict_script (ns : Namespace) : (script ns).Strict isGroupNames :=
  (strict_keys _ _ _).bind fun _ => Script.Strict.foldlM (strict_keyScript ns) _ _

end RifMaps

/-! ## Management ports -/

namespace ManagementMaps

def keyScript (ns : Namespace) (maps : ManagementMaps) (key : String) : Script ManagementMaps :=
  match Text.after? portLead key with
  | none => pure maps
  | some name =>
    match Net.IfName.index? name with
    | none => do
      Script.warn (.managementUnnumbered name)
      pure maps
    | some index => do
      let entry ← Script.getAll ns .config key
      let shown := (entry.get? Schema.aliasField).getD name
      pure
        { nameByIndex := maps.nameByIndex.insert index name
          aliasByName := maps.aliasByName.insert name shown }

def script (ns : Namespace) : Script ManagementMaps := do
  let keys ← Script.keys ns .config (portLead ++ "*")
  keys.foldlM (keyScript ns) empty

theorem run_keyScript (ns : Namespace) (maps : ManagementMaps) (key : String) :
    (keyScript ns maps key).run = addKey ns maps key := by
  unfold keyScript addKey
  cases Text.after? portLead key with
  | none => rfl
  | some name => cases hindex : Net.IfName.index? name <;> simp [hindex]

theorem run_script (ns : Namespace) : (script ns).run = load ns := by
  simp [script, load, run_keyScript]

theorem strict_keyScript (ns : Namespace) (maps : ManagementMaps) (key : String) :
    (keyScript ns maps key).Strict isGroupNames := by
  unfold keyScript
  split
  · exact Script.Strict.pure _
  · split
    · exact (Script.Strict.warn _).bind fun _ => Script.Strict.pure _
    · exact (strict_getAll rfl).bind fun _ => Script.Strict.pure _

theorem strict_script (ns : Namespace) : (script ns).Strict isGroupNames :=
  (strict_keys _ _ _).bind fun _ => Script.Strict.foldlM (strict_keyScript ns) _ _

end ManagementMaps

/-! ## All interfaces -/

namespace InterfaceMaps

def script (n : Namespaces) : Script InterfaceMaps := do
  let ports ← mergedScript PortMaps.merge PortMaps.script .empty n
  let lags ← mergedScript LagMaps.merge LagMaps.script .empty n
  let vlans ← mergedScript VlanMaps.merge VlanMaps.script .empty n
  let rifs ← mergedScript RifMaps.merge RifMaps.script .empty n
  let management ← ManagementMaps.script n.host
  pure { ports, lags, vlans, rifs, management }

theorem run_script (n : Namespaces) : (script n).run = load n := by
  simp only [script, Script.run_bind, run_mergedScript _ PortMaps.run_script,
    run_mergedScript _ LagMaps.run_script, run_mergedScript _ VlanMaps.run_script,
    run_mergedScript _ RifMaps.run_script, ManagementMaps.run_script]
  rfl

theorem strict_script (n : Namespaces) : (script n).Strict isGroupNames := by
  refine (strict_mergedScript _ PortMaps.strict_script _ n).bind fun _ => ?_
  refine (strict_mergedScript _ LagMaps.strict_script _ n).bind fun _ => ?_
  refine (strict_mergedScript _ VlanMaps.strict_script _ n).bind fun _ => ?_
  refine (strict_mergedScript _ RifMaps.strict_script _ n).bind fun _ => ?_
  exact (ManagementMaps.strict_script n.host).bind fun _ => Script.Strict.pure _

end InterfaceMaps

end SwitchMib.Identity

namespace SwitchMib.Mib

open Identity Store

namespace Interfaces

/-! ## Reinits of the table -/

theorem value_reinit (out : Outside) (t : Interfaces) :
    (reinit out t).value = match (InterfaceMaps.load out.namespaces).outcome with
      | .error e => .failed e t
      | .ok identity =>
        .done (if identity = t.identity then t else { t with identity, warned := .fresh }) := by
  rw [reinit, Load.outcome, Logged.value_bind]
  cases (InterfaceMaps.load out.namespaces).run.value with
  | error e => rfl
  | ok identity =>
    by_cases hsame : identity = t.identity
    · simp [hsame]
    · simp [hsame]

/-- A load fails by the store just when one of its reads does, that of the identifiers of the
groups apart. A reinit then leaves the table as it was. -/
theorem reinit_strict_iff (out : Outside) (t : Interfaces) (e : StoreError) :
    (InterfaceMaps.script out.namespaces).run = InterfaceMaps.load out.namespaces ∧
      ((InterfaceMaps.load out.namespaces).outcome = .error (.store e) ↔
        ∃ r ∈ (InterfaceMaps.script out.namespaces).reads,
          isGroupNames r = false ∧ r.failure = some e) ∧
      ((reinit out t).value = .failed (.store e) t ↔
        ∃ r ∈ (InterfaceMaps.script out.namespaces).reads,
          isGroupNames r = false ∧ r.failure = some e) := by
  have hrun := InterfaceMaps.run_script out.namespaces
  have hload : (InterfaceMaps.load out.namespaces).outcome = .error (.store e) ↔
      ∃ r ∈ (InterfaceMaps.script out.namespaces).reads,
        isGroupNames r = false ∧ r.failure = some e := by
    rw [← hrun]
    exact Script.outcome_run_eq_store_iff (InterfaceMaps.strict_script out.namespaces)
  refine ⟨hrun, hload, ?_⟩
  rw [← hload, value_reinit]
  cases (InterfaceMaps.load out.namespaces).outcome with
  | error e' => simp [Attempt.failed]
  | ok identity => simp [Attempt.failed, Attempt.done]

/-! ## A store without the identifiers of the groups -/

/-- A device with one port in one group. -/
def oneGroup : Namespace :=
  let ports := (Namespace.empty "").setFields .counters Schema.portNameMap
    [("Ethernet0", "oid:0x1")]
  let groups := ports.setFields .appl "LAG_TABLE:PortChannel01" [("mtu", "9100")]
  groups.setFields .counters Schema.lagNameMap [("PortChannel01", "oid:0x2")]

/-- The same device when the identifiers of the groups cannot be read. -/
def oneGroupUnread : Namespace :=
  oneGroup.addFault ⟨.getAll, .counters, some Schema.lagNameMap⟩

/-- A read of the load fails and the load does not. A table with the identity of the whole store
takes over an identity in which the group has no identifier. -/
theorem reinit_not_strict_of_group_names :
    (∃ r ∈ (InterfaceMaps.script ⟨oneGroupUnread, []⟩).reads,
      r.failure = some (.notConfigured .counters "")) ∧
    (∃ before after, (InterfaceMaps.load ⟨oneGroup, []⟩).outcome = .ok before ∧
      (InterfaceMaps.load ⟨oneGroupUnread, []⟩).outcome = .ok after ∧
      before.lags.idByLag.get? "PortChannel01" = some "2" ∧
      after.lags.idByLag.get? "PortChannel01" = none ∧
      ∀ (out : Outside) (t : Interfaces), out.namespaces = ⟨oneGroupUnread, []⟩ →
        t.identity = before → (reinit out t).value.after.identity = after) ∧
    ¬ ∀ n : Namespaces, (∃ r ∈ (InterfaceMaps.script n).reads, r.failure.isSome) →
      ∃ e, (InterfaceMaps.load n).outcome = .error e := by
  have hread : ∃ r ∈ (InterfaceMaps.script ⟨oneGroupUnread, []⟩).reads,
      r.failure = some (.notConfigured .counters "") := by
    have hany : ((InterfaceMaps.script ⟨oneGroupUnread, []⟩).reads.any fun r =>
        r.failure == some (.notConfigured .counters "")) = true := by decide +kernel
    obtain ⟨r, hr, hfailed⟩ := List.any_eq_true.1 hany
    exact ⟨r, hr, eq_of_beq hfailed⟩
  obtain ⟨before, hbefore⟩ : ∃ maps, (InterfaceMaps.load ⟨oneGroup, []⟩).outcome = .ok maps :=
    exists_eq_ok_of_isOk (by decide +kernel)
  obtain ⟨after, hafter⟩ : ∃ maps, (InterfaceMaps.load ⟨oneGroupUnread, []⟩).outcome = .ok maps :=
    exists_eq_ok_of_isOk (by decide +kernel)
  have hknown : (InterfaceMaps.load ⟨oneGroup, []⟩).outcome.toOption.map
      (·.lags.idByLag.get? "PortChannel01") = some (some "2") := by decide +kernel
  have hlost : (InterfaceMaps.load ⟨oneGroupUnread, []⟩).outcome.toOption.map
      (·.lags.idByLag.get? "PortChannel01") = some none := by decide +kernel
  rw [hbefore] at hknown
  rw [hafter] at hlost
  refine ⟨hread, ⟨before, after, hbefore, hafter, Option.some.inj hknown,
    Option.some.inj hlost, ?_⟩, ?_⟩
  · intro out t hout _
    rw [value_reinit, hout, hafter]
    by_cases hsame : after = t.identity
    · simp [Attempt.done, hsame]
    · simp [Attempt.done, hsame]
  · intro hall
    obtain ⟨r, hr, hfailed⟩ := hread
    obtain ⟨e, he⟩ := hall ⟨oneGroupUnread, []⟩ ⟨r, hr, by rw [hfailed]; rfl⟩
    rw [hafter] at he
    cases he

end Interfaces

end SwitchMib.Mib
