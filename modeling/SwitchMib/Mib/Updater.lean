import SwitchMib.Mib.Forwarding
import SwitchMib.Mib.Interfaces
import SwitchMib.Mib.Neighbours
import SwitchMib.Mib.Overlay
import SwitchMib.Mib.Power
import SwitchMib.Mib.QueueStats
import SwitchMib.Mib.Routes
import SwitchMib.Mib.Sensors
import SwitchMib.Snmp.Query

/-!
# The tables of the agent

* `Updater`: any table of the agent. A tree can hold it, and its reads can be watched.
* `Updater.refresh`, `Updater.reinit`: the two ways in which a table follows the outside world.
* `Updater.noteRead`: what a table tells about a cell that is read.
* `Blueprint`: a table yet to be built.
-/

namespace SwitchMib.Mib
set_option autoImplicit false

open Snmp

inductive Updater where
  | interfaces (t : Interfaces)
  | neighbours (t : Neighbours)
  | forwarding (t : Forwarding)
  | routes (t : Routes)
  | sensors (t : Sensors)
  | queueStats (t : QueueStats)
  | power (t : Power)
  | overlay (t : Overlay)

namespace Updater

def name : Updater → String
  | .interfaces _ => "interfaces"
  | .neighbours _ => "arp"
  | .forwarding _ => "fdb"
  | .routes _ => "routes"
  | .sensors _ => "sensors"
  | .queueStats _ => "queue_stats"
  | .power _ => "psu"
  | .overlay _ => "overlay"

def top : Updater → Oid
  | .interfaces _ => Interfaces.top
  | .neighbours _ => Neighbours.top
  | .forwarding _ => Forwarding.top
  | .routes _ => Routes.top
  | .sensors _ => Sensors.top
  | .queueStats _ => QueueStats.top
  | .power _ => Power.top
  | .overlay t => t.top

def valueAt : Updater → SubId → Option Value
  | .interfaces t => t.valueAt
  | .neighbours t => t.valueAt
  | .forwarding t => t.valueAt
  | .routes t => t.valueAt
  | .sensors t => t.valueAt
  | .queueStats t => t.valueAt
  | .power t => t.valueAt
  | .overlay t => t.valueAt

def next : Updater → SubId → Option SubId
  | .interfaces t => t.next
  | .neighbours t => t.next
  | .forwarding t => t.next
  | .routes t => t.next
  | .sensors t => t.next
  | .queueStats t => t.next
  | .power t => t.next
  | .overlay t => t.next

/-- Every cell, in walk order. -/
def cells : Updater → List SubId
  | .interfaces t => t.cells
  | .neighbours t => t.cells
  | .forwarding t => t.cells
  | .routes t => t.cells
  | .sensors t => t.cells
  | .queueStats t => t.cells
  | .power t => t.cells
  | .overlay t => t.cells

def state : Updater → Lifecycle
  | .interfaces t => t.cell.state
  | .neighbours t => t.cell.state
  | .forwarding t => t.cell.state
  | .routes t => t.cell.state
  | .sensors t => t.cell.state
  | .queueStats t => t.cell.state
  | .power t => t.cell.state
  | .overlay t => t.cell.state

/-- Builds the next snapshot and commits it. Only the queue statistics can overflow. -/
def refresh (out : Outside) : Updater → Logged (Attempt Updater Failure)
  | .interfaces t => return ((← t.refresh out).map .interfaces).lift
  | .neighbours t => return ((← t.refresh out).map .neighbours).lift
  | .forwarding t => return ((← t.refresh out).map .forwarding).lift
  | .routes t => return ((← t.refresh out).map .routes).lift
  | .sensors t => return ((← t.refresh out).map .sensors).lift
  | .queueStats t => return (← t.refresh out).map .queueStats
  | .power t => return ((← t.refresh out).map .power).lift
  | .overlay t => return ((← t.refresh out).map .overlay).lift

/-- Loads what rarely changes again. The snapshot stays as it is. -/
def reinit (out : Outside) : Updater → Logged (Attempt Updater)
  | .interfaces t => return (← t.reinit out).map .interfaces
  | .neighbours t => return (← t.reinit out).map .neighbours
  | .forwarding t => return (← t.reinit out).map .forwarding
  | .routes t => return (← t.reinit out).map .routes
  | .sensors t => return (← t.reinit out).map .sensors
  | .queueStats t => return (← t.reinit out).map .queueStats
  | .power t => return (← t.reinit out).map .power
  | .overlay t => return (← t.reinit out).map .overlay

/-- Tells what reading a cell misses. Only the interface table has anything to tell. -/
def noteRead (sub : SubId) : Updater → Logged Updater
  | .interfaces t => return .interfaces (← t.noteRead sub)
  | u => pure u

instance : Watched Updater where
  name := name
  top := top
  valueAt := valueAt
  next := next
  cells := cells
  state := state
  noteRead := noteRead

/-- How a table follows a world that does not change. -/
def upkeep (out : Outside) : Upkeep Updater Failure where
  reinit u := Attempt.lift <$> u.reinit out
  refresh := refresh out

end Updater

inductive Blueprint where
  | interfaces
  | neighbours
  | forwarding
  | routes
  | sensors
  | queueStats
  | power (origin : PowerOrigin)
  | overlay (top : Oid)
  deriving DecidableEq, Repr

namespace Blueprint

def name : Blueprint → String
  | .interfaces => "interfaces"
  | .neighbours => "arp"
  | .forwarding => "fdb"
  | .routes => "routes"
  | .sensors => "sensors"
  | .queueStats => "queue_stats"
  | .power _ => "psu"
  | .overlay _ => "overlay"

/-- The table with its first snapshot. -/
def build (out : Outside) : Blueprint → Load Failure Updater
  | .interfaces => return .interfaces (← (Interfaces.build out).lift)
  | .neighbours => return .neighbours (← (Neighbours.build out).lift)
  | .forwarding => return .forwarding (← (Forwarding.build out).lift)
  | .routes => return .routes (← (Routes.build out).lift)
  | .sensors => return .sensors (← (Sensors.build out).lift)
  | .queueStats => return .queueStats (← QueueStats.build out)
  | .power origin => return .power (← (Power.build origin out).lift)
  | .overlay top => return .overlay (← (Overlay.build top out).lift)

end Blueprint

end SwitchMib.Mib
