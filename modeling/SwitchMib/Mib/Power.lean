import SwitchMib.Mib.Outside
import SwitchMib.Snmp.Snapshot
import SwitchMib.Snmp.Value
import SwitchMib.Store.Schema
import SwitchMib.Text.Numeral

/-!
# The power supply table

One row per power supply, numbered from 1.

* `PsuStatus`: the states of a supply, with the codes of the table.
* `PowerSource.ofHost`: what the platform publishes in the state database of the host.
* `pollAll`: the states of all supplies. A supply that cannot be asked has none.
* `Power`: the table.
-/

namespace SwitchMib.Mib
set_option autoImplicit false

open Snmp Store

inductive PsuStatus where
  | on
  /-- Present without delivering power. -/
  | faulty
  /-- Not present. -/
  | off
  deriving DecidableEq, Repr

namespace PsuStatus

/-- The state of a supply that is present or not and works or not. -/
def ofFlags (present ok : Bool) : PsuStatus :=
  if !present then .off else if ok then .on else .faulty

def code : PsuStatus → Int32
  | .on => 2
  | .faulty => 7
  | .off => 8

end PsuStatus

namespace PowerSource

def chassisKey : String := Schema.tableKey Schema.chassisInfo '|' Schema.chassisEntry

def supplyKey (i : Nat) : String := Schema.tableKey Schema.psuInfo '|' ("PSU " ++ Text.decimal i)

/-- A flag of a supply. What is missing is not set. -/
def flagOfHost (host : Namespace) (i : Nat) (field : String) : Except AgentError Bool :=
  ((host.getAll .state (supplyKey i)).mapError .store).map fun entry =>
    entry.get? field == some "true"

/-- The number of supplies that a chassis entry gives. -/
def countOfEntry (entry : Fields) : Except AgentError UInt32 :=
  match (entry.get? Schema.psuCount).map Text.readWord32 with
  | some (.ok count) => .ok count
  | _ => .error (.power (.noCount chassisKey))

/-- The supplies as the platform publishes them in the state database. -/
def ofHost (host : Namespace) : PowerSource where
  count := ((host.getAll .state chassisKey).mapError .store).bind countOfEntry
  presence i := flagOfHost host i Schema.presence
  status i := flagOfHost host i Schema.status

/-- The state of one supply. Whether it works is asked only of one that is present. -/
def poll (source : PowerSource) (i : Nat) : Except AgentError PsuStatus := do
  let present ← source.presence i
  let ok ← if present then source.status i else pure false
  pure (.ofFlags present ok)

end PowerSource

/-- The state of one supply, or a complaint. -/
def pollOne (source : PowerSource) (i : Nat) : Logged (Option PsuStatus) :=
  match source.poll i with
  | .ok status => pure (some status)
  | .error e => do
    Logged.tell (.powerStatusUnread i e)
    pure none

/-- The number of supplies; none if it cannot be read. -/
def countSupplies (source : PowerSource) : Logged Nat :=
  match source.count with
  | .ok count => pure count.toNat
  | .error e => do
    Logged.tell (.powerCountUnread e)
    pure 0

def pollAll (source : PowerSource) : Logged (List (Option PsuStatus)) := do
  let count ← countSupplies source
  (List.range' 1 count).mapM (pollOne source)

inductive PowerOrigin where
  /-- The state database of the host. -/
  | host
  /-- The platform itself. -/
  | platform
  deriving DecidableEq, Repr

def PowerOrigin.source (out : Outside) : PowerOrigin → PowerSource
  | .host => .ofHost out.namespaces.host
  | .platform => out.platform

structure Power where
  origin : PowerOrigin
  cell : SnapshotCell (List (Option PsuStatus))

namespace Power

def top : Oid := ⟨[1, 3, 6, 1, 4, 1, 9, 9, 117, 1, 1, 2, 1, 2]⟩

def refresh (out : Outside) (t : Power) : Logged (Attempt Power) := do
  let statuses ← pollAll (t.origin.source out)
  pure (.done { t with cell := t.cell.refresh (ε := AgentError) (.ok statuses) })

/-- There is no identity to load. -/
def reinit (_out : Outside) (t : Power) : Logged (Attempt Power) := pure (.done t)

/-- The table with its first snapshot. -/
def build (origin : PowerOrigin) (out : Outside) : Load AgentError Power :=
  Attempt.toLoad (refresh out ⟨origin, .fresh []⟩)

/-- The state of the supply with a number. -/
def statusOf (statuses : List (Option PsuStatus)) : Nat → Option PsuStatus
  | 0 => none
  | i + 1 => statuses[i]?.join

def valueAt (t : Power) (sub : SubId) : Option Value :=
  match sub with
  | [i] => (statusOf t.cell.current i.toNat).map fun status => .integer status.code
  | _ => none

/-- The number after the first arc of a sub-identifier, up to a count. -/
def nextNumber (count : Nat) (sub : SubId) : Option SubId :=
  let candidate := match sub with
    | [] => 1
    | first :: _ => first.toNat + 1
  if candidate ≤ count ∧ candidate < UInt32.size then some [UInt32.ofNat candidate] else none

def next (t : Power) (sub : SubId) : Option SubId := nextNumber t.cell.current.length sub

/-- Every cell, in walk order. -/
def cells (t : Power) : List SubId :=
  (List.range' 1 t.cell.current.length).map fun i => [UInt32.ofNat i]

end Power

end SwitchMib.Mib
