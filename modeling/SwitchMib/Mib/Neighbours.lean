import SwitchMib.Mib.Outside
import SwitchMib.Net.IfName
import SwitchMib.Net.Ipv4
import SwitchMib.Net.Mac
import SwitchMib.Snmp.Cell
import SwitchMib.Snmp.Snapshot
import SwitchMib.Snmp.Value

/-!
# The neighbour table

The physical addresses of IPv4 neighbours, by interface index and address.

* `Neighbour.ofLine?`, `readNeighbours`: the neighbour file. It has a heading, then one neighbour a
  line, with the address, the physical address and the device in columns 1, 4 and 6.
* `Neighbours`: the table.
-/

namespace SwitchMib.Mib
set_option autoImplicit false

open Snmp

/-- A neighbour and the device that it is reached by. -/
structure Neighbour where
  address : Net.Ipv4
  mac : Net.Mac
  device : String
  deriving DecidableEq

def Neighbour.ofLine? (line : String) : Option Neighbour :=
  match Text.words line with
  | address :: _ :: _ :: mac :: _ :: device :: _ =>
    match Net.Ipv4.parse address, Net.Mac.parse mac with
    | .ok address, .ok mac => some { address, mac, device }
    | _, _ => none
  | _ => none

/-- The neighbours of a file. Lines that are none are left out. -/
def readNeighbours (text : String) : List Neighbour :=
  (Text.lines text).tail.filterMap Neighbour.ofLine?

/-- The row of a neighbour on a device with an index. -/
def Neighbour.row? (n : Neighbour) : Option (SubId × Net.Mac) :=
  (Net.IfName.index? n.device).map fun index => (index :: n.address.arcs, n.mac)

structure Neighbours where
  cell : SnapshotCell (SubIdIndex Net.Mac)

namespace Neighbours

def top : Oid := ⟨[1, 3, 6, 1, 2, 1, 4, 22, 1, 2]⟩

/-- The rows of a file; of two for one address the later counts. -/
def rowsOf (text : String) : SubIdIndex Net.Mac :=
  Dict.empty.insertAll ((readNeighbours text).filterMap Neighbour.row?)

/-- Commits what is in the neighbour file. -/
def refresh (out : Outside) (t : Neighbours) : Logged (Attempt Neighbours) :=
  let built := (out.neighbours.mapError AgentError.file).map rowsOf
  pure ⟨built.map fun _ => (), { t with cell := t.cell.refresh built }⟩

/-- There is no identity to load. -/
def reinit (_out : Outside) (t : Neighbours) : Logged (Attempt Neighbours) := pure (.done t)

/-- The table with its first snapshot. -/
def build (out : Outside) : Load AgentError Neighbours :=
  Attempt.toLoad (refresh out ⟨.fresh .empty⟩)

def valueAt (t : Neighbours) (sub : SubId) : Option Value :=
  (t.cell.current.get? sub).map fun mac => .octets mac.octets

def next (t : Neighbours) (sub : SubId) : Option SubId := t.cell.current.above? sub

/-- Every cell, in walk order. -/
def cells (t : Neighbours) : List SubId := t.cell.current.keys

end Neighbours

end SwitchMib.Mib
