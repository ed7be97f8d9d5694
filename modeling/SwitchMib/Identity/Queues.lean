import SwitchMib.Net.IfName
import SwitchMib.Store.Namespaces
import SwitchMib.Store.Schema

/-!
# Identity of the egress queues

A queue is named by its port, a colon and a text whose digits are its number.

* `QueueId`: a queue of a port, ordered by port and then by number.
* `QueueMaps`: queues and their object identifiers.
* `QueueMaps.load`: the queues of one namespace, entered in the order in which its hashes are
  visited. A namespace without queues, or without counters for any of them, is incoherent.
* `QueueMaps.loadAll`: the queues of all members.
-/

namespace SwitchMib.Identity
set_option autoImplicit false

open Store

structure QueueId where
  port : UInt32
  queue : UInt32
  deriving DecidableEq, Repr

/-- By port, then by number. -/
instance : KeyOrder QueueId where
  before x y := lexBefore [x.port, x.queue] [y.port, y.queue]
  irrefl x := lexBefore_irrefl _
  trans := lexBefore_trans
  connex {x y} h1 h2 := by
    cases x; cases y
    simpa using lexBefore_connex h1 h2

/-- What is known of egress queues. -/
structure QueueMaps where
  /-- Object identifiers as they are stored. -/
  idByQueue : Dict QueueId String
  /-- The numbers of the queues of a port, ascending. -/
  queuesByPort : Dict UInt32 (List UInt32)
  deriving DecidableEq

namespace QueueMaps

/-- No queues. -/
def empty : QueueMaps := ⟨.empty, .empty⟩

instance : Inhabited QueueMaps := ⟨empty⟩

/-- A number at its place in an ascending list without repetition. -/
def insertNumber (n : UInt32) : List UInt32 → List UInt32
  | [] => [n]
  | m :: rest =>
    if KeyOrder.before n m then n :: m :: rest
    else if KeyOrder.before m n then m :: insertNumber n rest
    else m :: rest

def addNumbers (lists : Dict UInt32 (List UInt32)) (port : UInt32) (numbers : List UInt32) :
    Dict UInt32 (List UInt32) :=
  lists.insert port (numbers.foldl (fun l n => insertNumber n l) ((lists.get? port).getD []))

/-- The queues of both. Identifiers of the second win, the numbers of a port are united. -/
def merge (a b : QueueMaps) : QueueMaps where
  idByQueue := a.idByQueue.merge b.idByQueue
  queuesByPort := b.queuesByPort.toList.foldl (fun lists p => addNumbers lists p.1 p.2)
    a.queuesByPort

def addQueue (maps : QueueMaps) (q : QueueId) (id : String) : QueueMaps where
  idByQueue := maps.idByQueue.insert q id
  queuesByPort := addNumbers maps.queuesByPort q.port [q.queue]

/-- The number made of the digits of a text. -/
def queueNumber? (s : String) : Option UInt32 :=
  let digits := s.toList.filter Text.isDigit
  if digits.isEmpty then none
  else match Text.readDigits 10 (UInt32.size - 1) 0 digits with
    | .ok n => some (UInt32.ofNat n)
    | .error _ => none

/-- The queue of a name, or what is to be told about it. -/
def queueOfName (name : String) : Except Event QueueId :=
  match Text.cutFirst ':' name with
  | none => .error (.queueMalformed name)
  | some (port, rest) =>
    match queueNumber? rest with
    | none => .error (.queueUnnumbered name)
    | some queue =>
      match Net.IfName.index port with
      | .error e => .error (.queueOnUnknownPort name e)
      | .ok index => .ok ⟨index, queue⟩

/-- Enters one entry of the queue name map, and notes whether the queue has counters. -/
def addEntry (ns : Namespace) (acc : QueueMaps × Bool) (entry : String × String) :
    Load AgentError (QueueMaps × Bool) :=
  match queueOfName entry.1 with
  | .error e => do
    Load.tell e
    pure acc
  | .ok q => do
    let counted ← Load.ofRead (ns.has .counters (Schema.queueCounterKey entry.2))
    pure (acc.1.addQueue q entry.2, acc.2 || counted)

/-- The queues of a namespace from the entries of its queue name map, visited as listed. -/
def ofEntries (ns : Namespace) (entries : List (String × String)) : Load AgentError QueueMaps := do
  if entries.isEmpty then throw (.incoherent Schema.queueNameMap (.noQueues ns.name))
  let (maps, counted) ← entries.foldlM (addEntry ns) (empty, false)
  if !counted then throw (.incoherent Schema.queueNameMap (.noQueueCounters ns.name))
  pure maps

def load (ns : Namespace) : Load AgentError QueueMaps := do
  let entries ← Load.ofRead (ns.getAll .counters Schema.queueNameMap)
  ofEntries ns (ns.visit.order entries)

def loadAll (n : Namespaces) : Load AgentError QueueMaps :=
  n.members.foldlM (fun maps ns => do pure (maps.merge (← load ns))) empty

end QueueMaps

end SwitchMib.Identity
