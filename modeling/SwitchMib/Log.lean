import SwitchMib.AgentError
import SwitchMib.Net.NotationError
import SwitchMib.Text.Quoted

/-!
# What the agent tells its operator

* `Event`: a message by its cause.
* `Event.render`: level, wording and fields of a message, the fields in the order of their names.
* `Logged`: a result with the messages told on the way to it. It is a monad, and taking the result
  alone commutes with its operations.
* `Load`: a logged result that may be an error. What was told before the error stays told. One that
  may also overflow has a `Failure` in place of the error.
* `Once`: which complaints have been made already.
-/

namespace SwitchMib
set_option autoImplicit false

inductive Event where
  /-- Names in the port name map that are no port names. -/
  | portsDropped (names : List String)
  | lagNamesUnread (error : Store.StoreError)
  | queueMalformed (queue : String)
  | queueUnnumbered (queue : String)
  | queueOnUnknownPort (queue : String) (error : Net.NotationError)
  | managementUnnumbered (port : String)
  | managementUnread (key : String) (error : Store.StoreError)
  /-- One namespace of an aggregated read failed. -/
  | namespaceUnread (context : String) (namespaceName : String) (error : Store.StoreError)
  | portCounterMissing (port counter : String)
  | vlanCounterMissing (vlan counter : String)
  | interfacesChanged
  | bridgePortUnbound (bridgePort : String)
  | bridgePortsChanged
  | forwardingSkipped (key reason subject : String)
  | routeUnread (namespaceName : String) (error : Store.StoreError)
  | transceiverUnknown (port : String)
  | powerCountUnread (error : AgentError)
  | powerStatusUnread (psu : Nat) (error : AgentError)
  | queueCounterMissing (key stat : String)
  | queuesChanged
  | overlaySkipped (key reason : String)
  | registered (mib : String) (top : Snmp.Oid)
  | notRegistered (mib : String) (error : AgentError)
  | powerOmitted
  | treeReady (mibs : Nat)
  | reinitFailed (error : AgentError)
  | refreshFailed (error : AgentError)
  | updaterStopped (updater : String)
  | settingsAbsent (path : String)
  | databaseUnknown (namespaceName database : String)
  deriving DecidableEq

/-- How urgent a message is. -/
inductive Level where
  | info
  | warn
  | error
  deriving DecidableEq, Repr

def Level.name : Level → String
  | .info => "INFO"
  | .warn => "WARN"
  | .error => "ERROR"

namespace Event

def level : Event → Level
  | .interfacesChanged | .bridgePortsChanged | .queuesChanged | .registered _ _ | .powerOmitted
  | .treeReady _ | .updaterStopped _ => .info
  | .transceiverUnknown _ | .notRegistered _ _ => .error
  | .reinitFailed e => if e.isFatal then .error else .warn
  | _ => .warn

def text : Event → String
  | .portsDropped _ => "Port name map contains names outside the interface pattern, ignoring them"
  | .lagNamesUnread _ => "Failed to read LAG name map, LAG counters unavailable"
  | .queueMalformed _ => "Malformed queue name, skipping"
  | .queueUnnumbered _ => "Queue name has no queue number, skipping"
  | .queueOnUnknownPort _ _ => "Queue on unknown port, skipping"
  | .managementUnnumbered _ => "Management port name has no ifindex, skipping"
  | .managementUnread _ _ => "Failed to read management port"
  | .namespaceUnread _ _ _ => "Namespace read failed, serving partial data"
  | .portCounterMissing _ _ => "COUNTERS_DB is missing a port counter"
  | .vlanCounterMissing _ _ => "COUNTERS_DB is missing a RIF counter"
  | .interfacesChanged => "Interface identity changed"
  | .bridgePortUnbound _ => "Bridge port has no port id"
  | .bridgePortsChanged => "Bridge port map changed"
  | .forwardingSkipped _ _ _ => "Skipping FDB entry"
  | .routeUnread _ _ => "Failed to read default route"
  | .transceiverUnknown _ => "Transceiver on a port without an ifindex"
  | .powerCountUnread _ => "Failed to read PSU count"
  | .powerStatusUnread _ _ => "Failed to read PSU status"
  | .queueCounterMissing _ _ => "Queue counter missing"
  | .queuesChanged => "Queue map changed"
  | .overlaySkipped _ _ => "Skipping overlay entry"
  | .registered _ _ => "Registered MIB"
  | .notRegistered _ _ => "MIB not registered"
  | .powerOmitted => "No power status provider, skipping PSU MIB"
  | .treeReady _ => "MIB tree ready"
  | .reinitFailed _ => "Reinit failed, keeping previous identity"
  | .refreshFailed _ => "Refresh failed, serving previous snapshot"
  | .updaterStopped _ => "Updater stopped"
  | .settingsAbsent _ => "Config file not found, using defaults"
  | .databaseUnknown _ _ => "Ignoring unknown database name"

/-- The fields of a message, in the order of their names. -/
def fields : Event → List (String × String)
  | .portsDropped names => [("dropped", Text.quotedList names)]
  | .lagNamesUnread e => [("error", e.message)]
  | .queueMalformed q | .queueUnnumbered q => [("queue", q)]
  | .queueOnUnknownPort q e => [("error", e.message), ("queue", q)]
  | .managementUnnumbered port => [("port", port)]
  | .managementUnread key e => [("error", e.message), ("key", key)]
  | .namespaceUnread context ns e =>
    [("context", context), ("error", e.message), ("namespace", ns)]
  | .portCounterMissing port counter => [("counter", counter), ("port", port)]
  | .vlanCounterMissing vlan counter => [("counter", counter), ("vlan", vlan)]
  | .bridgePortUnbound bridgePort => [("bridge_port", bridgePort)]
  | .forwardingSkipped key reason subject =>
    [("key", key), ("reason", reason), ("subject", subject)]
  | .routeUnread ns e => [("error", e.message), ("namespace", ns)]
  | .transceiverUnknown port => [("port", port)]
  | .powerCountUnread e => [("error", e.message)]
  | .powerStatusUnread psu e => [("error", e.message), ("psu", Text.decimal psu)]
  | .queueCounterMissing key stat => [("key", key), ("stat", stat)]
  | .overlaySkipped key reason => [("key", key), ("reason", reason)]
  | .registered mib top => [("mib", mib), ("prefix", top.display)]
  | .notRegistered mib e => [("error", e.message), ("mib", mib)]
  | .treeReady mibs => [("mibs", Text.decimal mibs)]
  | .reinitFailed e | .refreshFailed e => [("error", e.message)]
  | .updaterStopped updater => [("updater", updater)]
  | .settingsAbsent path => [("path", path)]
  | .databaseUnknown ns database => [("database", database), ("namespace", ns)]
  | .interfacesChanged | .bridgePortsChanged | .queuesChanged | .powerOmitted => []

def render (e : Event) : String :=
  e.level.name ++ " " ++ e.text ++
    String.join (e.fields.map fun (name, value) => " " ++ name ++ "=" ++ value)

end Event

/-! ## Logged results -/

/-- A result with the messages told on the way to it. -/
structure Logged (α : Type) where
  value : α
  events : List Event

namespace Logged

variable {α β : Type}

instance : Monad Logged where
  pure a := ⟨a, []⟩
  bind x f := ⟨(f x.value).value, x.events ++ (f x.value).events⟩

def tell (e : Event) : Logged Unit := ⟨(), [e]⟩

@[simp] theorem value_pure (a : α) : (pure a : Logged α).value = a := rfl

@[simp] theorem value_bind (x : Logged α) (f : α → Logged β) :
    (x >>= f).value = (f x.value).value := rfl

@[simp] theorem events_pure (a : α) : (pure a : Logged α).events = [] := rfl

@[simp] theorem events_bind (x : Logged α) (f : α → Logged β) :
    (x >>= f).events = x.events ++ (f x.value).events := rfl

theorem map_id_eq (x : Logged α) : id <$> x = x := by
  show (⟨x.value, x.events ++ []⟩ : Logged α) = x
  rw [List.append_nil]

theorem pure_bind_eq (a : α) (f : α → Logged β) : pure a >>= f = f a := by
  show (⟨(f a).value, [] ++ (f a).events⟩ : Logged β) = f a
  rw [List.nil_append]

theorem bind_assoc_eq {γ : Type} (x : Logged α) (f : α → Logged β) (g : β → Logged γ) :
    x >>= f >>= g = x >>= fun a => f a >>= g := by
  show (⟨_, (x.events ++ (f x.value).events) ++ _⟩ : Logged γ) = ⟨_, x.events ++ (_ ++ _)⟩
  rw [List.append_assoc]
  rfl

instance : LawfulMonad Logged := LawfulMonad.mk' Logged map_id_eq pure_bind_eq bind_assoc_eq

end Logged

/-- A logged result that may be an error. -/
abbrev Load (ε α : Type) := ExceptT ε Logged α

namespace Load

variable {α β ε : Type}

/-- The outcome without the messages. -/
def outcome (x : Load ε α) : Except ε α := (ExceptT.run x).value

def events (x : Load ε α) : List Event := (ExceptT.run x).events

def tell (e : Event) : Load ε Unit := ExceptT.mk ⟨.ok (), [e]⟩

/-- Tells messages and goes on with the result. -/
def ofLogged (x : Logged α) : Load ε α := ExceptT.mk ⟨.ok x.value, x.events⟩

/-- Goes on with a result that was read without telling anything. -/
def ofExcept (x : Except ε α) : Load ε α := ExceptT.mk ⟨x, []⟩

/-- Goes on with what a store answered. -/
def ofRead (x : Except Store.StoreError α) : Load AgentError α := ofExcept (x.mapError .store)

/-- The same load as part of one that may overflow. -/
def lift (x : Load AgentError α) : Load Failure α :=
  ExceptT.mk ⟨x.outcome.mapError .error, x.events⟩

@[simp] theorem outcome_pure (a : α) : outcome (pure a : Load ε α) = .ok a := rfl

theorem outcome_bind (x : Load ε α) (f : α → Load ε β) :
    outcome (x >>= f) = outcome x >>= fun a => outcome (f a) := by
  show (ExceptT.bindCont f (ExceptT.run x).value : Logged _).value = _
  unfold outcome
  cases (ExceptT.run x).value <;> rfl

@[simp] theorem outcome_tell (e : Event) : outcome (tell e : Load ε Unit) = .ok () := rfl

@[simp] theorem outcome_ofLogged (x : Logged α) : outcome (ofLogged x : Load ε α) = .ok x.value :=
  rfl

@[simp] theorem outcome_ofExcept (x : Except ε α) : outcome (ofExcept x) = x := rfl

@[simp] theorem outcome_lift (x : Load AgentError α) :
    x.lift.outcome = x.outcome.mapError .error := rfl

@[simp] theorem events_lift (x : Load AgentError α) : x.lift.events = x.events := rfl

end Load

/-! ## Complaints made once -/

/-- Which complaints have been made since the last reset. -/
structure Once (κ : Type) where
  seen : List κ
  deriving DecidableEq

namespace Once

variable {κ : Type}

/-- The key of a complaint that hinges on two things. -/
def joined (separator : Char) (a b : String) : String := a ++ String.singleton separator ++ b

/-- No complaint has been made. -/
def fresh : Once κ := ⟨[]⟩

/-- Whether a complaint is new, and the memory in which it is not. -/
def first [DecidableEq κ] (m : Once κ) (k : κ) : Bool × Once κ :=
  if k ∈ m.seen then (false, m) else (true, ⟨k :: m.seen⟩)

/-- Tells the new ones of a list of complaints, in order. -/
def tellNew [DecidableEq κ] : Once κ → List (κ × Event) → Logged (Once κ)
  | m, [] => pure m
  | m, (k, e) :: rest =>
    if k ∈ m.seen then tellNew m rest
    else do
      Logged.tell e
      tellNew ⟨k :: m.seen⟩ rest

end Once

end SwitchMib
