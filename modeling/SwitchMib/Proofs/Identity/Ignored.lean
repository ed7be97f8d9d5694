import SwitchMib.Proofs.Identity.PortMaps
import SwitchMib.Proofs.Kinds

/-!
# Names that loads ignore

A load that goes through tells of every name that it ignores. Which messages these are is told from
the store: names in a port name map that are no port names, names in a queue name map that are not
those of queues, management ports without an index.

* `Logged.mem_events_foldlM`, `Load.mem_events_foldlM`: the messages of a loop.
* `PortMaps.Ignores`, `QueueMaps.Ignores`, `ManagementMaps.Ignores`: the names of one namespace that
  are ignored, by the messages that tell of them.
* `PortMaps.mem_events_load`, `QueueMaps.mem_events_load`, `ManagementMaps.mem_events_load`,
  `InterfaceMaps.mem_events_load`: the messages of the loads.
-/

namespace SwitchMib
set_option autoImplicit false

open Store

/-! ## Messages of loops -/

section Loops

variable {α β ε : Type} {e : Event}

/-- A loop tells what its steps tell. -/
theorem Logged.mem_events_foldlM {f : β → α → Logged β} {tells : α → Prop}
    (hstep : ∀ b a, e ∈ (f b a).events ↔ tells a) (l : List α) (b : β) :
    e ∈ (l.foldlM f b).events ↔ ∃ a ∈ l, tells a := by
  induction l generalizing b with
  | nil => exact iff_of_false List.not_mem_nil fun ⟨a, ha, _⟩ => List.not_mem_nil ha
  | cons a l ih =>
    rw [List.foldlM_cons, events_bind, List.mem_append, hstep, ih, List.exists_mem_cons_iff]

namespace Load

/-- A loop of loads tells what its steps tell if it goes through; a step that fails ends it. -/
theorem mem_events_foldlM {f : β → α → Load ε β} {tells : α → Prop}
    (hstep : ∀ b a c, (f b a).outcome = .ok c → (e ∈ (f b a).events ↔ tells a)) {l : List α}
    {b c : β} (h : (l.foldlM f b).outcome = .ok c) :
    e ∈ (l.foldlM f b).events ↔ ∃ a ∈ l, tells a := by
  induction l generalizing b with
  | nil => exact iff_of_false List.not_mem_nil fun ⟨a, ha, _⟩ => List.not_mem_nil ha
  | cons a l ih =>
    rw [List.foldlM_cons] at h ⊢
    obtain ⟨d, hd, hrest⟩ := outcome_bind_eq_ok_iff.1 h
    rw [events_bind_of_ok hd, List.mem_append, hstep b a d hd, ih hrest,
      List.exists_mem_cons_iff]

theorem mem_events_merged {load : α → Load ε β} {tells : α → Prop}
    (hload : ∀ a b, (load a).outcome = .ok b → (e ∈ (load a).events ↔ tells a))
    {merge : β → β → β} {l : List α} {start result : β}
    (h : (l.foldlM (fun acc a => do pure (merge acc (← load a))) start).outcome = .ok result) :
    e ∈ Load.events (l.foldlM (fun acc a => do pure (merge acc (← load a))) start) ↔
      ∃ a ∈ l, tells a := by
  refine mem_events_foldlM (fun acc a c hc => ?_) h
  obtain ⟨b, hb, -⟩ := outcome_bind_eq_ok_iff.1 hc
  rw [events_return]
  exact hload a b hb

end Load

end Loops

/-! ## What loads ignore -/

namespace Identity

/-- Some names in the port name map are no port names, and the message lists them in the order in
which the map is visited. -/
def PortMaps.Ignores (ns : Namespace) (e : Event) : Prop :=
  let names := droppedNames (ns.visit.order (ns.hash .counters Schema.portNameMap))
  names ≠ [] ∧ e = .portsDropped names

theorem PortMaps.mem_events_load {ns : Namespace} {maps : PortMaps}
    (h : (load ns).outcome = .ok maps) (e : Event) : e ∈ (load ns).events ↔ Ignores ns e := by
  obtain ⟨hash, hread, hrest⟩ := Load.outcome_bind_eq_ok_iff.1 h
  obtain rfl := Namespace.eq_hash_of_getAll (Load.outcome_ofRead_eq_ok_iff.1 hread)
  have haliases : ∀ (maps : PortMaps) (names : List String),
      e ∉ Load.events (names.foldlM (addAlias ns) maps) := by
    intro maps names
    refine Load.tells_foldlM (K := fun _ => False) (fun _ _ => ?_) names maps e
    exact (Load.tells_ofRead _).bind fun _ => Load.tells_pure _
  rw [load, Load.events_bind_of_ok hread]
  show e ∈ (ofEntries ns _).events ↔ _
  rw [ofEntries] at hrest ⊢
  split
  · rename_i hnone
    rw [if_pos hnone] at hrest
    cases hrest
  · dsimp only
    split
    · rename_i hsome
      have hnames :
          droppedNames (ns.visit.order (ns.hash .counters Schema.portNameMap)) ≠ [] := by
        simpa using hsome
      rw [Load.events_bind_of_ok rfl, List.mem_append, or_iff_left (haliases _ _)]
      exact List.mem_singleton.trans (and_iff_right hnames).symm
    · rename_i hnone
      refine iff_of_false (haliases _ _) fun hignores => hnone ?_
      simpa using hignores.1

/-- A name in the queue name map is not that of a queue, as the message says. -/
def QueueMaps.Ignores (ns : Namespace) (e : Event) : Prop :=
  ∃ name ∈ (ns.hash .counters Schema.queueNameMap).keys, queueOfName name = .error e

theorem QueueMaps.mem_events_load {ns : Namespace} {maps : QueueMaps}
    (h : (load ns).outcome = .ok maps) (e : Event) : e ∈ (load ns).events ↔ Ignores ns e := by
  obtain ⟨hash, hread, hrest⟩ := Load.outcome_bind_eq_ok_iff.1 h
  obtain rfl := Namespace.eq_hash_of_getAll (Load.outcome_ofRead_eq_ok_iff.1 hread)
  have hentry : ∀ acc entry next, (addEntry ns acc entry).outcome = .ok next →
      (e ∈ (addEntry ns acc entry).events ↔ queueOfName entry.1 = .error e) := by
    intro acc entry next _
    rw [addEntry]
    cases hname : queueOfName entry.1 with
    | error e' =>
      simp only
      rw [Load.events_bind_of_ok rfl]
      show e ∈ [e'] ++ [] ↔ _
      rw [List.append_nil, List.mem_singleton, Except.error.injEq, eq_comm]
    | ok q =>
      refine iff_of_false (fun he => ?_) fun hbad => by cases hbad
      exact ((Load.tells_ofRead _).bind (K := fun _ => False) fun _ => Load.tells_pure _) e he
  rw [load, Load.events_bind_of_ok hread]
  show e ∈ (ofEntries ns _).events ↔ _
  rw [ofEntries] at hrest ⊢
  split
  · rename_i hnone
    rw [if_pos hnone] at hrest
    cases hrest
  · rename_i hsome
    rw [if_neg hsome] at hrest
    obtain ⟨found, hfound, hcounted⟩ := Load.outcome_bind_eq_ok_iff.1 hrest
    have hquiet : e ∉ Load.events (ε := AgentError) (do
        if !found.2 then throw (.incoherent Schema.queueNameMap (.noQueueCounters ns.name))
        pure found.1) := by
      intro he
      split at he
      · exact Load.tells_throw_bind (K := fun _ => False) _ _ e he
      · exact List.not_mem_nil he
    rw [Load.events_bind_of_ok hfound, List.mem_append, or_iff_left hquiet,
      Load.mem_events_foldlM hentry hfound, Ignores, Dict.keys]
    simp only [List.mem_map, exists_exists_and_eq_and, (ns.visit.perm _).mem_iff]

/-- A management port has no index, as the message says. -/
def ManagementMaps.Ignores (ns : Namespace) (e : Event) : Prop :=
  ∃ name ∈ ns.below .config portLead,
    Net.IfName.index? name = none ∧ e = .managementUnnumbered name

theorem ManagementMaps.mem_events_load {ns : Namespace} {maps : ManagementMaps}
    (h : (load ns).outcome = .ok maps) (e : Event) : e ∈ (load ns).events ↔ Ignores ns e := by
  obtain ⟨keys, hread, hrest⟩ := Load.outcome_bind_eq_ok_iff.1 h
  obtain rfl := Namespace.eq_of_keys_eq_ok (Load.outcome_ofRead_eq_ok_iff.1 hread)
  have hkey : ∀ acc key next, (addKey ns acc key).outcome = .ok next →
      (e ∈ (addKey ns acc key).events ↔ ∃ name, Text.after? portLead key = some name ∧
        Net.IfName.index? name = none ∧ e = .managementUnnumbered name) := by
    intro acc key next _
    rw [addKey]
    cases Text.after? portLead key with
    | none => simp [Load.events]
    | some name =>
      simp only [Option.some.injEq, exists_eq_left']
      cases Net.IfName.index? name with
      | none =>
        rw [Load.events_bind_of_ok rfl]
        show e ∈ [_] ++ [] ↔ _
        rw [List.append_nil, List.mem_singleton, and_iff_right rfl]
      | some index =>
        refine iff_of_false (fun he => ?_) fun hbad => by cases hbad.1
        exact ((Load.tells_ofRead _).bind (K := fun _ => False) fun _ => Load.tells_pure _) e he
  rw [load, Load.events_bind_of_ok hread]
  show e ∈ Load.events (List.foldlM _ _ _) ↔ _
  rw [Load.mem_events_foldlM hkey hrest, Ignores, Namespace.below]
  simp only [List.mem_filterMap]
  constructor
  · rintro ⟨key, hmem, name, hname, hignored⟩
    exact ⟨name, ⟨key, hmem, hname⟩, hignored⟩
  · rintro ⟨name, ⟨key, hmem, hname⟩, hignored⟩
    exact ⟨key, hmem, name, hname, hignored⟩

theorem InterfaceMaps.mem_events_load {n : Namespaces} {maps : InterfaceMaps}
    (h : (load n).outcome = .ok maps) {e : Event} (he : e.kind = .ignored) :
    e ∈ (load n).events ↔
      (∃ ns ∈ n.members, PortMaps.Ignores ns e) ∨ ManagementMaps.Ignores n.host e := by
  obtain ⟨ports, hports, h⟩ := Load.outcome_bind_eq_ok_iff.1 h
  obtain ⟨lags, hlags, h⟩ := Load.outcome_bind_eq_ok_iff.1 h
  obtain ⟨vlans, hvlans, h⟩ := Load.outcome_bind_eq_ok_iff.1 h
  obtain ⟨rifs, hrifs, h⟩ := Load.outcome_bind_eq_ok_iff.1 h
  obtain ⟨management, hmanagement, -⟩ := Load.outcome_bind_eq_ok_iff.1 h
  have hquiet : ∀ {α : Type} {x : Load AgentError α}, x.Tells (· ≠ .ignored) → e ∉ x.events :=
    fun hx hmem => hx e hmem he
  rw [load, Load.events_bind_of_ok hports, Load.events_bind_of_ok hlags,
    Load.events_bind_of_ok hvlans, Load.events_bind_of_ok hrifs,
    Load.events_bind_of_ok hmanagement]
  simp only [List.mem_append]
  rw [or_iff_right (hquiet (LagMaps.tells_loadAll n (by decide))),
    or_iff_right (hquiet (VlanMaps.tells_loadAll n)),
    or_iff_right (hquiet (RifMaps.tells_loadAll n)), or_iff_left (hquiet (Load.tells_pure _))]
  refine or_congr ?_ (ManagementMaps.mem_events_load hmanagement e)
  exact Load.mem_events_merged (fun _ _ hload => PortMaps.mem_events_load hload e) hports

end Identity

end SwitchMib
