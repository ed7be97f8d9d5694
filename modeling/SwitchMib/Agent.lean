import SwitchMib.Config.Settings
import SwitchMib.Mib.Updater

/-!
# The agent

The agent builds the tables that its settings ask for, each with its first snapshot, and registers
them in a tree. A table whose part of the store is incoherent is left out and the others are served
without it; any other failure ends the start.

* `PlanStep`, `Settings.plan`: what is built, in order.
* `buildTree`: the tree of all tables.
* `buildAlone`: a tree of a single table.
* `refreshTables`, `reinitTables`, `tickTables`: the tables follow the outside world.
-/

namespace SwitchMib
set_option autoImplicit false

open Config Mib Snmp

/-! ## Building -/

inductive PlanStep where
  | table (blueprint : Blueprint)
  /-- There are no power supplies to serve. -/
  | omitPower
  /-- A table at a root that is still a text. -/
  | overlay (text : String)
  deriving DecidableEq, Repr

def Config.PowerProvider.step : PowerProvider → PlanStep
  | .stateDatabase => .table (.power .host)
  | .absent => .omitPower

/-- The steps of the start, in order. -/
def Config.Settings.plan (s : Settings) : List PlanStep :=
  let fixed : List (Bool × PlanStep) :=
    [ (s.tables.interfaces, .table .interfaces)
    , (s.tables.neighbours, .table .neighbours)
    , (s.tables.forwarding, .table .forwarding)
    , (s.tables.routes, .table .routes)
    , (s.tables.sensors, .table .sensors)
    , (s.tables.queues, .table .queueStats)
    , (s.tables.power, s.power.step) ]
  (fixed.filter (·.1)).map (·.2) ++ s.tables.overlays.map .overlay

abbrev Agent := MibTree Updater

/-- Registers a table that is built. -/
def registerTable (tree : Agent) (u : Updater) : Load Failure Agent :=
  match tree.register u with
  | .ok tree => do
    Load.tell (.registered u.name u.top)
    pure tree
  | .error e => throw (.error e)

/-- Builds a table and registers it. One that the store has nothing coherent for is left out. -/
def installTable (out : Outside) (tree : Agent) (blueprint : Blueprint) : Load Failure Agent := do
  match ← Load.ofLogged (blueprint.build out).run with
  | .ok u => registerTable tree u
  | .error (.error e) =>
    if e.isFatal then
      Load.tell (.notRegistered blueprint.name e)
      pure tree
    else throw (.error e)
  | .error .overflow => throw .overflow

def installStep (out : Outside) (tree : Agent) : PlanStep → Load Failure Agent
  | .table blueprint => installTable out tree blueprint
  | .omitPower => do
    Load.tell .powerOmitted
    pure tree
  | .overlay text =>
    match overlayRoot text with
    | .ok top => installTable out tree (.overlay top)
    | .error cause => throw (.error (.config (.unreadableOverlay text cause)))

/-- The tree of all tables that the settings ask for. -/
def buildTree (settings : Settings) (out : Outside) : Load Failure Agent := do
  let tree ← settings.plan.foldlM (installStep out) MibTree.empty
  Load.tell (.treeReady tree.size)
  pure tree

def buildAlone (blueprint : Blueprint) (out : Outside) : Load Failure Agent := do
  registerTable MibTree.empty (← blueprint.build out)

/-! ## Following the outside world -/

/-- The name of a table with what an operation on it came to. -/
abbrev Report := String × Except Failure Unit

/-- Applies an operation to the tables whose names are chosen, in order. -/
def attemptTables (chosen : String → Bool) (op : Updater → Logged (Attempt Updater Failure))
    (tree : Agent) : Logged (List Report × Agent) := do
  let visited ← tree.mibs.mapM fun u =>
    if chosen u.name then do
      let a ← op u
      pure ([(u.name, a.outcome)], a.after)
    else pure ([], u)
  pure (visited.flatMap (·.1), ⟨visited.map (·.2)⟩)

/-- Refreshes the tables whose names are chosen. -/
def refreshTables (out : Outside) (chosen : String → Bool) (tree : Agent) :
    Logged (List Report × Agent) :=
  attemptTables chosen (Updater.upkeep out).refresh tree

/-- Reinitialises the tables whose names are chosen. -/
def reinitTables (out : Outside) (chosen : String → Bool) (tree : Agent) :
    Logged (List Report × Agent) :=
  attemptTables chosen (Updater.upkeep out).reinit tree

/-- One cycle of every table. Errors are told about, so the report of a table is whether its cycle
overflowed. -/
def tickTables (out : Outside) (rate : UInt32) (n : Nat) (tree : Agent) :
    Logged (List Report × Agent) :=
  attemptTables (fun _ => true) ((Updater.upkeep out).cycle rate n) tree

end SwitchMib
