import SwitchMib.Mib.Updater
import SwitchMib.Proofs.Log

/-!
# Kinds of messages

Messages are of four kinds: a read that failed, a row that is ignored, a complaint that is
remembered and not made again, and a notice of what the agent does. The loads of identities tell of
failed reads and of ignored rows. The reads of rows tell of failed reads; those of the sensors ignore
transceivers too, and those of the forwarding entries and of the queues complain.

* `Event.Kind`, `Event.kind`: the kinds. `Event.Kind.Plain`: the first two of them.
* `Logged.Tells`, `Load.Tells`: a computation that tells only messages of given kinds.
* `InterfaceMaps.tells_load`, `PortMaps.tells_loadAll`, `QueueMaps.tells_loadAll`: the loads.
* `InterfaceSnapshot.tells_read`, `tells_readForwarding`, `tells_readQueues`, `tells_readSensors`,
  `tells_pollAll`: the reads.
-/

namespace SwitchMib
set_option autoImplicit false

open Store

inductive Event.Kind where
  /-- A read failed. -/
  | unread
  /-- A row is ignored, which is told whenever it is met. -/
  | ignored
  /-- A complaint that a table makes once. -/
  | remembered
  | notice
  deriving DecidableEq

def Event.kind : Event → Kind
  | .lagNamesUnread _ | .managementUnread _ _ | .namespaceUnread _ _ _ | .routeUnread _ _
  | .powerCountUnread _ | .powerStatusUnread _ _ => .unread
  | .portsDropped _ | .queueMalformed _ | .queueUnnumbered _ | .queueOnUnknownPort _ _
  | .managementUnnumbered _ | .transceiverUnknown _ => .ignored
  | .portCounterMissing _ _ | .vlanCounterMissing _ _ | .bridgePortUnbound _
  | .forwardingSkipped _ _ _ | .queueCounterMissing _ _ | .overlaySkipped _ _ => .remembered
  | _ => .notice

/-- Messages of the kind are told whenever there is cause. -/
def Event.Kind.Plain (k : Kind) : Prop := k = .unread ∨ k = .ignored

variable {α β ε : Type} {K : Event.Kind → Prop}

namespace Logged

/-- Every message is of one of the kinds. -/
def Tells (K : Event.Kind → Prop) (x : Logged α) : Prop := ∀ e ∈ x.events, K e.kind

theorem tells_pure (a : α) : (pure a : Logged α).Tells K := by
  intro e he
  cases he

theorem tells_tell {e : Event} (h : K e.kind) : (tell e).Tells K := by
  intro e' he'
  rw [List.mem_singleton.1 he']
  exact h

theorem Tells.bind {x : Logged α} {f : α → Logged β} (hx : x.Tells K) (hf : ∀ a, (f a).Tells K) :
    (x >>= f).Tells K := by
  intro e he
  rcases List.mem_append.1 he with he | he
  · exact hx e he
  · exact hf x.value e he

theorem tells_foldlM {f : β → α → Logged β} (hf : ∀ b a, (f b a).Tells K) (l : List α) (b : β) :
    (l.foldlM f b).Tells K := by
  induction l generalizing b with
  | nil => exact tells_pure b
  | cons a l ih => exact List.foldlM_cons (m := Logged) ▸ (hf b a).bind ih

theorem tells_mapM {f : α → Logged β} (hf : ∀ a, (f a).Tells K) (l : List α) :
    (l.mapM f).Tells K := by
  induction l with
  | nil => exact tells_pure []
  | cons a l ih =>
    rw [List.mapM_cons]
    exact (hf a).bind fun b => ih.bind fun rest => tells_pure (b :: rest)

theorem tells_tellNew {κ : Type} [DecidableEq κ] {l : List (κ × Event)}
    (h : ∀ c ∈ l, K c.2.kind) (m : Once κ) : (m.tellNew l).Tells K := by
  induction l generalizing m with
  | nil => exact tells_pure m
  | cons c rest ih =>
    obtain ⟨hc, hrest⟩ := List.forall_mem_cons.1 h
    rw [Once.tellNew]
    split
    · exact ih hrest m
    · exact (tells_tell hc).bind fun _ => ih hrest _

theorem tells_each {υ : Type} {op : α → υ → Logged (Mib.Attempt υ ε)}
    (hop : ∀ a u, (op a u).Tells K) (l : List α) (u : υ) :
    (Mib.Attempt.each op l u).Tells K := by
  induction l generalizing u with
  | nil => exact tells_pure _
  | cons a l ih =>
    refine (hop a u).bind fun first => ?_
    cases first.outcome with
    | ok _ => exact ih first.after
    | error e => exact tells_pure _

theorem tells_serve (h : K .unread) (a : Aggregated α) (context : String) :
    (a.serve context).Tells K := by
  intro e he
  obtain ⟨failure, -, rfl⟩ := List.mem_map.1 he
  exact h

end Logged

namespace Load

/-- Every message is of one of the kinds, whether the load fails or not. -/
def Tells (K : Event.Kind → Prop) (x : Load ε α) : Prop := ∀ e ∈ x.events, K e.kind

theorem tells_pure (a : α) : (pure a : Load ε α).Tells K := Logged.tells_pure _

/-- Nothing follows an error. -/
theorem tells_throw_bind (e : ε) (f : α → Load ε β) :
    ((throw e : Load ε α) >>= f).Tells K := by
  intro e he
  cases he

theorem tells_tell {e : Event} (h : K e.kind) : (tell e : Load ε Unit).Tells K :=
  Logged.tells_tell h

theorem tells_ofRead (x : Except StoreError α) : (ofRead x).Tells K := by
  intro e he
  cases he

theorem Tells.bind {x : Load ε α} {f : α → Load ε β} (hx : x.Tells K) (hf : ∀ a, (f a).Tells K) :
    (x >>= f).Tells K := by
  refine Logged.Tells.bind (f := ExceptT.bindCont f) hx fun a => ?_
  cases a with
  | ok a => exact hf a
  | error e => exact Logged.tells_pure _

theorem tells_foldlM {f : β → α → Load ε β} (hf : ∀ b a, (f b a).Tells K) (l : List α) (b : β) :
    (l.foldlM f b).Tells K := by
  induction l generalizing b with
  | nil => exact tells_pure b
  | cons a l ih => exact List.foldlM_cons (m := ExceptT ε Logged) ▸ (hf b a).bind ih

/-- Loads that are merged over namespaces. -/
theorem tells_merged {load : Namespace → Load ε α} (hload : ∀ ns, (load ns).Tells K)
    (merge : α → α → α) (members : List Namespace) (start : α) :
    Load.Tells K (members.foldlM (fun acc ns => do pure (merge acc (← load ns))) start) :=
  tells_foldlM (fun _ ns => (hload ns).bind fun _ => tells_pure _) members start

theorem events_bind_of_ok {x : Load ε α} {a : α} (h : x.outcome = .ok a) (f : α → Load ε β) :
    (x >>= f).events = x.events ++ (f a).events := by
  show x.events ++ (ExceptT.bindCont f x.outcome : Logged _).events = _
  rw [h]
  rfl

theorem events_return (x : Load ε α) (f : α → β) :
    (do return f (← x) : Load ε β).events = x.events := by
  show x.events ++ (ExceptT.bindCont (fun a => pure (f a)) x.outcome : Logged _).events = _
  cases x.outcome <;> exact List.append_nil _

end Load

/-! ## Loads of identities -/

namespace Identity

section Parts

variable (ns : Namespace)

theorem PortMaps.tells_load (hignored : K .ignored) : (PortMaps.load ns).Tells K := by
  refine (Load.tells_ofRead _).bind fun entries => ?_
  have haliases : ∀ maps : PortMaps, (maps.indexByName.keys.foldlM (addAlias ns) maps).Tells K :=
    fun maps => Load.tells_foldlM (fun _ _ => (Load.tells_ofRead _).bind fun _ => Load.tells_pure _)
      _ _
  rw [ofEntries]
  split
  · exact Load.tells_throw_bind _ _
  · dsimp only
    split
    · exact (Load.tells_tell hignored).bind fun _ => haliases _
    · exact haliases _

theorem LagMaps.tells_load (hunread : K .unread) : (LagMaps.load ns).Tells K := by
  have hids : (readIds ns).Tells K := by
    rw [readIds]
    split
    · exact Load.tells_pure _
    · exact (Load.tells_tell hunread).bind fun _ => Load.tells_pure _
  have hkey : ∀ maps key, (addKey ns maps key).Tells K := by
    intro maps key
    rw [addKey]
    split
    · exact Load.tells_pure _
    · exact (Load.tells_ofRead _).bind fun _ => Load.tells_pure _
  refine (Load.tells_ofRead _).bind fun keys => ?_
  split
  · exact Load.tells_pure _
  · exact hids.bind fun _ => Load.tells_foldlM hkey _ _

theorem VlanMaps.tells_load : (VlanMaps.load ns).Tells K :=
  (Load.tells_ofRead _).bind fun _ => (Load.tells_ofRead _).bind fun _ => Load.tells_pure _

theorem RifMaps.tells_load : (RifMaps.load ns).Tells K := by
  have hkey : ∀ maps key, (addKey ns maps key).Tells K := by
    intro maps key
    rw [addKey]
    split
    · exact Load.tells_pure _
    · refine (Load.tells_ofRead _).bind fun entry => ?_
      split <;> exact Load.tells_pure _
  exact (Load.tells_ofRead _).bind fun keys => Load.tells_foldlM hkey _ _

theorem ManagementMaps.tells_load (hignored : K .ignored) :
    (ManagementMaps.load ns).Tells K := by
  have hkey : ∀ maps key, (addKey ns maps key).Tells K := by
    intro maps key
    rw [addKey]
    split
    · exact Load.tells_pure _
    · split
      · exact (Load.tells_tell hignored).bind fun _ => Load.tells_pure _
      · exact (Load.tells_ofRead _).bind fun _ => Load.tells_pure _
  exact (Load.tells_ofRead _).bind fun keys => Load.tells_foldlM hkey _ _

/-- A queue whose name cannot be read is ignored. -/
theorem QueueMaps.kind_of_queueOfName {name : String} {e : Event}
    (h : queueOfName name = .error e) : e.kind = .ignored := by
  rw [queueOfName] at h
  split at h
  · rw [← Except.error.inj h]
    rfl
  · split at h
    · rw [← Except.error.inj h]
      rfl
    · split at h
      · rw [← Except.error.inj h]
        rfl
      · cases h

theorem QueueMaps.tells_load (hignored : K .ignored) : (QueueMaps.load ns).Tells K := by
  have hentry : ∀ acc entry, (addEntry ns acc entry).Tells K := by
    intro acc entry
    rw [addEntry]
    split
    · rename_i e he
      have hkind : K e.kind := (kind_of_queueOfName he).symm ▸ hignored
      exact (Load.tells_tell hkind).bind fun _ => Load.tells_pure _
    · exact (Load.tells_ofRead _).bind fun _ => Load.tells_pure _
  have hcounted : ∀ found : QueueMaps × Bool, Load.Tells (ε := AgentError) K (do
      if !found.2 then throw (.incoherent Schema.queueNameMap (.noQueueCounters ns.name))
      pure found.1) := by
    intro found
    split
    · exact Load.tells_throw_bind _ _
    · exact Load.tells_pure _
  refine (Load.tells_ofRead _).bind fun entries => ?_
  rw [ofEntries]
  split
  · exact Load.tells_throw_bind _ _
  · exact (Load.tells_foldlM hentry _ _).bind hcounted

end Parts

variable (n : Namespaces)

theorem PortMaps.tells_loadAll (hignored : K .ignored) : (PortMaps.loadAll n).Tells K :=
  Load.tells_merged (fun ns => tells_load ns hignored) _ _ _

theorem QueueMaps.tells_loadAll (hignored : K .ignored) : (QueueMaps.loadAll n).Tells K :=
  Load.tells_merged (fun ns => tells_load ns hignored) _ _ _

theorem LagMaps.tells_loadAll (hunread : K .unread) : (LagMaps.loadAll n).Tells K :=
  Load.tells_merged (fun ns => tells_load ns hunread) _ _ _

theorem VlanMaps.tells_loadAll : (VlanMaps.loadAll n).Tells K :=
  Load.tells_merged tells_load _ _ _

theorem RifMaps.tells_loadAll : (RifMaps.loadAll n).Tells K :=
  Load.tells_merged tells_load _ _ _

theorem InterfaceMaps.tells_load (hunread : K .unread) (hignored : K .ignored) :
    (InterfaceMaps.load n).Tells K := by
  refine (PortMaps.tells_loadAll n hignored).bind fun _ => ?_
  refine (LagMaps.tells_loadAll n hunread).bind fun _ => ?_
  refine (VlanMaps.tells_loadAll n).bind fun _ => (RifMaps.tells_loadAll n).bind fun _ => ?_
  exact (ManagementMaps.tells_load n.host hignored).bind fun _ => Load.tells_pure _

end Identity

/-! ## Reads of rows -/

namespace Mib

variable (n : Namespaces)

theorem InterfaceSnapshot.tells_readManagement (hunread : K .unread) (name : String) :
    (readManagement n name).Tells K := by
  rw [readManagement]
  refine Logged.tells_foldlM (fun entry place => ?_) _ _
  obtain ⟨db, key⟩ := place
  dsimp only
  split
  · exact Logged.tells_pure _
  · exact (Logged.tells_tell hunread).bind fun _ => Logged.tells_pure _

theorem InterfaceSnapshot.tells_read (hunread : K .unread) (identity : Identity.InterfaceMaps) :
    (InterfaceSnapshot.read n identity).Tells K := by
  have hrow : ∀ rows item, (addRow n rows item).Tells K := by
    rintro rows ⟨index, kind, name⟩
    have hentry : (readEntry n kind name).Tells K := by
      cases kind with
      | management => exact tells_readManagement n hunread name
      | _ => exact Logged.tells_serve hunread _ _
    exact hentry.bind fun _ => Logged.tells_pure _
  have hcounters : ∀ counters id, (addPortCounters n counters id).Tells K :=
    fun _ _ => (Logged.tells_serve hunread _ _).bind fun _ => Logged.tells_pure _
  have hrif : ∀ counters id, (addRifCounters n counters id).Tells K := by
    intro counters id
    rw [addRifCounters]
    split
    · exact Logged.tells_pure _
    · exact hcounters counters id
  refine (Logged.tells_foldlM hrow _ _).bind fun _ => ?_
  refine (Logged.tells_foldlM hcounters _ _).bind fun _ => ?_
  exact (Logged.tells_foldlM hrif _ _).bind fun _ => Logged.tells_pure _

theorem tells_readVlan (hunread : K .unread) (key : ForwardingKey) : (readVlan n key).Tells K := by
  rw [readVlan]
  split
  · exact Logged.tells_pure _
  · exact Logged.tells_pure _
  · exact (Logged.tells_serve hunread _ _).bind fun _ => Logged.tells_pure _

theorem tells_resolve (hunread : K .unread) (maps : ForwardingMaps) (key : String) :
    (resolve n maps key).Tells K := by
  rw [resolve]
  split
  · exact Logged.tells_pure _
  · refine (Logged.tells_serve hunread _ _).bind fun _ => ?_
    split
    · exact Logged.tells_pure _
    · refine (tells_readVlan n hunread _).bind fun vlan => ?_
      cases vlan <;> exact Logged.tells_pure _

theorem tells_addForwarding (hunread : K .unread) (hremembered : K .remembered)
    (maps : ForwardingMaps) (acc : ForwardingRows) (key : String) :
    (addForwarding n maps acc key).Tells K := by
  refine (tells_resolve n hunread maps key).bind fun row => ?_
  cases row with
  | ok row => exact Logged.tells_pure _
  | error skip =>
    refine (Logged.tells_tellNew (fun c hc => ?_) _).bind fun _ => Logged.tells_pure _
    rw [List.mem_singleton.1 hc]
    exact hremembered

theorem tells_readForwarding (hunread : K .unread) (hremembered : K .remembered)
    (maps : ForwardingMaps) (warned : Once String) : (readForwarding n maps warned).Tells K :=
  (Logged.tells_serve hunread _ _).bind fun _ =>
    Logged.tells_foldlM (tells_addForwarding n hunread hremembered maps) _ _

theorem tells_addQueueCounter (hremembered : K .remembered) (q : Identity.QueueId) (key : String)
    (stats : Fields) (counter : UInt32 × String) (acc : QueueRows) :
    (addQueueCounter q key stats counter acc).Tells K := by
  rw [addQueueCounter]
  split
  · split <;> exact Logged.tells_pure _
  · refine (Logged.tells_tellNew (fun c hc => ?_) _).bind fun _ => Logged.tells_pure _
    rw [List.mem_singleton.1 hc]
    exact hremembered

theorem tells_readQueues (hunread : K .unread) (hremembered : K .remembered)
    (maps : Identity.QueueMaps) (warned : Once String) : (readQueues n maps warned).Tells K := by
  refine Logged.tells_each (fun q acc => ?_) _ _
  rw [addQueueCounters]
  split
  · exact Logged.tells_pure _
  · exact (Logged.tells_serve hunread _ _).bind fun _ =>
      Logged.tells_each (tells_addQueueCounter hremembered _ _ _) _ _

theorem tells_readSensors (hunread : K .unread) (hignored : K .ignored)
    (encode : SensorKind → String → Option Int32) (ports : Identity.PortMaps) :
    (readSensors encode n ports).Tells K := by
  refine (Logged.tells_serve hunread _ _).bind fun keys => ?_
  refine Logged.tells_foldlM (fun acc key => ?_) _ _
  rw [addTransceiver]
  split
  · exact Logged.tells_pure _
  · split
    · exact (Logged.tells_tell hignored).bind fun _ => Logged.tells_pure _
    · exact (Logged.tells_serve hunread _ _).bind fun _ => Logged.tells_pure _

theorem tells_addHops (hunread : K .unread) (rows : Snmp.SubIdIndex Net.Ipv4) (ns : Namespace) :
    (addHops rows ns).Tells K := by
  rw [addHops]
  split
  · exact Logged.tells_pure _
  · exact (Logged.tells_tell hunread).bind fun _ => Logged.tells_pure _

theorem tells_pollAll (hunread : K .unread) (source : PowerSource) : (pollAll source).Tells K := by
  have hcount : (countSupplies source).Tells K := by
    rw [countSupplies]
    split
    · exact Logged.tells_pure _
    · exact (Logged.tells_tell hunread).bind fun _ => Logged.tells_pure _
  refine hcount.bind fun count => Logged.tells_mapM (fun i => ?_) _
  rw [pollOne]
  split
  · exact Logged.tells_pure _
  · exact (Logged.tells_tell hunread).bind fun _ => Logged.tells_pure _

end Mib

end SwitchMib
