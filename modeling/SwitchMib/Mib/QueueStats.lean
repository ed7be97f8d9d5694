import SwitchMib.Identity.Queues
import SwitchMib.Mib.Outside
import SwitchMib.Snmp.Cell
import SwitchMib.Snmp.Snapshot
import SwitchMib.Snmp.Value

/-!
# The queue statistics table

The counters of egress queues by port, direction, queue and counter. Queues count from 1 in the
table. A counter that the store lacks has no row. The last of all numbers has none after it: where
the queue of that number has a counter, the row overflows.

* `queueCounters`, `queueCounterArcs?`: the counters of a queue and their places.
* `readQueues`: the rows of all queues.
* `QueueStats`: the table.
-/

namespace SwitchMib.Mib
set_option autoImplicit false

open Identity Snmp Store

def queueCounters : List (UInt32 × String) :=
  [ (1, "SAI_QUEUE_STAT_PACKETS")
  , (2, "SAI_QUEUE_STAT_BYTES")
  , (3, "SAI_QUEUE_STAT_DROPPED_PACKETS")
  , (4, "SAI_QUEUE_STAT_DROPPED_BYTES") ]

/-- The direction of traffic that leaves the device. -/
def egress : UInt32 := 2

/-- The arcs of a counter of a queue, if a number follows that of the queue. -/
def queueCounterArcs? (q : QueueId) (counter : UInt32) : Option SubId :=
  if q.queue.toNat + 1 < UInt32.size then some [q.port, egress, q.queue + 1, counter] else none

/-- The rows found so far and the missing counters told about, by key and counter. -/
structure QueueRows where
  rows : SubIdIndex UInt64
  warned : Once String

/-- Enters a counter of a queue, or tells that it is missing. -/
def addQueueCounter (q : QueueId) (key : String) (stats : Fields) (counter : UInt32 × String)
    (acc : QueueRows) : Logged (Attempt QueueRows Failure) :=
  match (stats.get? counter.2).map Text.readWord64 with
  | some (.ok v) =>
    match queueCounterArcs? q counter.1 with
    | some arcs => pure (.done { acc with rows := acc.rows.insert arcs v })
    | none => pure (.failed .overflow acc)
  | _ => do
    let complaint := (Once.joined ':' key counter.2, Event.queueCounterMissing key counter.2)
    let warned ← acc.warned.tellNew [complaint]
    pure (.done { acc with warned })

def addQueueCounters (n : Namespaces) (maps : QueueMaps) (q : QueueId) (acc : QueueRows) :
    Logged (Attempt QueueRows Failure) :=
  match maps.idByQueue.get? q with
  | none => pure (.done acc)
  | some id => do
    let key := Schema.queueCounterKey id
    let stats ← (n.getAll .counters key).serve "COUNTERS"
    Attempt.each (addQueueCounter q key stats) queueCounters acc

def queuesOf (maps : QueueMaps) : List QueueId :=
  maps.queuesByPort.toList.flatMap fun (port, queues) => queues.map fun queue => ⟨port, queue⟩

/-- Reads the counters of all queues, up to one that has no row to be entered in. -/
def readQueues (n : Namespaces) (maps : QueueMaps) (warned : Once String) :
    Logged (Attempt QueueRows Failure) :=
  Attempt.each (addQueueCounters n maps) (queuesOf maps) ⟨.empty, warned⟩

structure QueueStats where
  queues : QueueMaps
  cell : SnapshotCell (SubIdIndex UInt64)
  /-- The missing counters told about, by key and counter. -/
  warned : Once String

namespace QueueStats

def top : Oid := ⟨[1, 3, 6, 1, 4, 1, 9, 9, 580, 1, 5, 5, 1, 4]⟩

/-- Commits the rows, if all queues can be read. The memory of the counters told about outlives an
overflow. -/
def refresh (out : Outside) (t : QueueStats) : Logged (Attempt QueueStats Failure) := do
  let read ← readQueues out.namespaces t.queues t.warned
  let built := read.outcome.map fun _ => read.after.rows
  pure ⟨read.outcome, { t with cell := t.cell.refresh built, warned := read.after.warned }⟩

/-- Loads the queues again. Complaints start anew when they have changed. -/
def reinit (out : Outside) (t : QueueStats) : Logged (Attempt QueueStats) := do
  match ← (QueueMaps.loadAll out.namespaces).run with
  | .error e => pure (.failed e t)
  | .ok queues =>
    if queues = t.queues then pure (.done t)
    else do
      Logged.tell .queuesChanged
      pure (.done { t with queues, warned := .fresh })

/-- The table with its first snapshot. -/
def build (out : Outside) : Load Failure QueueStats := do
  let queues ← (QueueMaps.loadAll out.namespaces).lift
  Attempt.toLoad (refresh out ⟨queues, .fresh .empty, .fresh⟩)

def valueAt (t : QueueStats) (sub : SubId) : Option Value :=
  (t.cell.current.get? sub).map .counter64

def next (t : QueueStats) (sub : SubId) : Option SubId := t.cell.current.above? sub

/-- Every cell, in walk order. -/
def cells (t : QueueStats) : List SubId := t.cell.current.keys

end QueueStats

end SwitchMib.Mib
