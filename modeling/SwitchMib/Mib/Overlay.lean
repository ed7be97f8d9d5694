import SwitchMib.Mib.Outside
import SwitchMib.Snmp.Cell
import SwitchMib.Snmp.Snapshot
import SwitchMib.Snmp.Value
import SwitchMib.Store.Schema

/-!
# Overlay tables

Other programs publish counters of their own in the overlay database of the host, each under the
dotted identifier of its object. One table serves what lies below one configured root.

* `decodeOverlay`: the value of an entry, or what is wrong with it.
* `readOverlay`: the rows below a root.
* `Overlay`: the table.
-/

namespace SwitchMib.Mib
set_option autoImplicit false

open Snmp Store

/-- What is wrong with an entry. -/
inductive OverlayFault where
  | noData
  | noType
  | unknownType (type : String)
  | badNumber (type data : String) (fault : Text.NumeralFault)
  deriving DecidableEq, Repr

def OverlayFault.message : OverlayFault → String
  | .noData => "no data field"
  | .noType => "no type field"
  | .unknownType type => "unsupported type '" ++ type ++ "'"
  | .badNumber type data fault => "bad " ++ type ++ " '" ++ data ++ "': " ++ fault.message

def decodeOverlay (entry : Fields) : Except OverlayFault Value :=
  match entry.get? Schema.overlayData, entry.get? Schema.overlayType with
  | none, _ => .error .noData
  | some _, none => .error .noType
  | some data, some type =>
    if type = "COUNTER_32" then
      ((Text.readWord32 data).map .counter32).mapError (.badNumber type data)
    else if type = "COUNTER_64" then
      ((Text.readWord64 data).map .counter64).mapError (.badNumber type data)
    else .error (.unknownType type)

/-- The place of a key below a root. The root itself is no place. -/
def overlayPlace (top : Oid) (key : String) : Option SubId := do
  let oid ← (Oid.parse key).toOption
  let sub ← oid.below? top
  if sub.isEmpty then none else some sub

/-- The rows found so far and the faulty entries by key. -/
structure OverlayRows where
  rows : SubIdIndex Value
  faulty : List (String × Event)

/-- Adds the entry with a key. -/
def addOverlay (host : Namespace) (top : Oid) (acc : OverlayRows) (key : String) :
    OverlayRows × Except StoreError Unit :=
  match overlayPlace top key with
  | none => (acc, .ok ())
  | some sub =>
    match host.getAll .overlay key with
    | .error e => (acc, .error e)
    | .ok entry =>
      match decodeOverlay entry with
      | .ok value => ({ acc with rows := acc.rows.insert sub value }, .ok ())
      | .error fault =>
        let complaint := (key, Event.overlaySkipped key fault.message)
        ({ acc with faulty := acc.faulty ++ [complaint] }, .ok ())

/-- Adds entries up to the first read that fails. -/
def addOverlays (host : Namespace) (top : Oid) (acc : OverlayRows) :
    List String → OverlayRows × Except StoreError Unit
  | [] => (acc, .ok ())
  | key :: rest =>
    match addOverlay host top acc key with
    | (acc, .ok _) => addOverlays host top acc rest
    | (acc, .error e) => (acc, .error e)

theorem addOverlays_cons (host : Namespace) (top : Oid) (acc : OverlayRows) (key : String)
    (rest : List String) :
    addOverlays host top acc (key :: rest) =
      match addOverlay host top acc key with
      | (acc, .ok _) => addOverlays host top acc rest
      | (acc, .error e) => (acc, .error e) := by
  show (match addOverlay host top acc key with
    | (acc, .ok _) => _
    | (acc, .error e) => _) = _
  obtain ⟨acc, _ | _⟩ := addOverlay host top acc key <;> rfl

/-- Reads the entries below a root up to the first read that fails. -/
def readOverlay (host : Namespace) (top : Oid) : OverlayRows × Except StoreError Unit :=
  match host.keys .overlay "*" with
  | .error e => (⟨.empty, []⟩, .error e)
  | .ok keys => addOverlays host top ⟨.empty, []⟩ keys

/-- The table below a configured root. -/
structure Overlay where
  top : Oid
  cell : SnapshotCell (SubIdIndex Value)
  /-- The keys of the faulty entries told about. -/
  warned : Once String

namespace Overlay

/-- Commits what is below the root, if all of it can be read. The memory of the entries told about
outlives a failure. -/
def refresh (out : Outside) (t : Overlay) : Logged (Attempt Overlay) := do
  let (found, done) := readOverlay out.namespaces.host t.top
  let warned ← t.warned.tellNew found.faulty
  let built := (done.mapError AgentError.store).map fun _ => found.rows
  pure ⟨built.map fun _ => (), { t with cell := t.cell.refresh built, warned }⟩

/-- There is no identity to load. -/
def reinit (_out : Outside) (t : Overlay) : Logged (Attempt Overlay) := pure (.done t)

/-- The table with its first snapshot. -/
def build (top : Oid) (out : Outside) : Load AgentError Overlay :=
  Attempt.toLoad (refresh out ⟨top, .fresh .empty, .fresh⟩)

def valueAt (t : Overlay) (sub : SubId) : Option Value := t.cell.current.get? sub

def next (t : Overlay) (sub : SubId) : Option SubId := t.cell.current.above? sub

/-- Every cell, in walk order. -/
def cells (t : Overlay) : List SubId := t.cell.current.keys

end Overlay

end SwitchMib.Mib
