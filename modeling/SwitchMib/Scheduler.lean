import SwitchMib.Mib.Attempt
import SwitchMib.Snmp.Tree

/-!
# Periodic upkeep

Every table has a runner of its own, which wakes up for two reasons: its timer, and the switch that
stops all runners. Time is counted in milliseconds.

* `StopSwitch`, `StopSwitch.notice`: the switch, and what it says to a runner.
* `Runner`, `Runner.onTimer`, `Runner.onSwitch`: a runner and its two reasons to act.
* `nextDeadline`: when the timer rings again.
* `Scheduler`: runners over the tables that they keep up, and a clock.
* `Scheduler.start`, `Scheduler.sleep`, `Scheduler.jump`, `Scheduler.put`, `Scheduler.close`: what
  may happen to them.
-/

namespace SwitchMib
set_option autoImplicit false

open Mib Snmp

/-! ## The switch -/

/-- The switch that stops all runners. It keeps its latest value and may be given up. -/
structure StopSwitch where
  value : Bool
  /-- How often the value has been set. -/
  version : Nat
  closed : Bool
  deriving DecidableEq, Repr

namespace StopSwitch

def off : StopSwitch := ⟨false, 0, false⟩

/-- Sets the value. A switch that has been given up keeps its last one. -/
def put (s : StopSwitch) (value : Bool) : StopSwitch :=
  if s.closed then s else { s with value, version := s.version + 1 }

def close (s : StopSwitch) : StopSwitch := { s with closed := true }

/-- What a switch says to a runner. -/
inductive Notice where
  | nothing
  /-- There is a new value, which is no reason to stop. -/
  | carryOn
  | stop
  deriving DecidableEq, Repr

/-- What the switch says to a runner that has seen its first `seen` values. A value not yet seen
comes before the news that there will be no more. -/
def notice (s : StopSwitch) (seen : Nat) : Notice :=
  if s.version ≠ seen then if s.value then .stop else .carryOn
  else if s.closed then .stop
  else .nothing

end StopSwitch

/-! ## Runners -/

structure Runner where
  /-- The position of its table. -/
  table : Nat
  /-- Cycles so far. -/
  ticks : Nat
  /-- Values of the switch it knows of. -/
  seen : Nat
  running : Bool
  /-- When its timer rings. -/
  deadline : Nat
  deriving DecidableEq, Repr

/-- When a timer rings again after it rang at `now` for `deadline`. One that rang more than five
milliseconds late starts a new period at once. -/
def nextDeadline (period deadline now : Nat) : Nat :=
  if deadline + 5 < now then now + period else deadline + period

namespace Runner

variable {υ : Type}

/-- The timer rang at `now`: one more cycle. -/
def onTimer (ops : Upkeep υ) (rate : UInt32) (period now : Nat) (r : Runner) (u : υ) :
    Logged (Runner × υ) := do
  let u ← ops.tick rate (r.ticks + 1) u
  pure ({ r with ticks := r.ticks + 1, deadline := nextDeadline period r.deadline now }, u)

def onSwitch (name : String) (s : StopSwitch) (r : Runner) : Logged Runner :=
  if r.running then
    match s.notice r.seen with
    | .nothing => pure r
    | .carryOn => pure { r with seen := s.version }
    | .stop => do
      Logged.tell (.updaterStopped name)
      pure { r with running := false }
  else pure r

end Runner

/-! ## The scheduler -/

/-- Runners over tables, with a clock. -/
structure Scheduler (υ : Type) where
  /-- Milliseconds between cycles. -/
  period : Nat
  /-- Cycles between reinits. -/
  rate : UInt32
  tables : List υ
  runners : List Runner
  switch : StopSwitch
  now : Nat

namespace Scheduler

variable {υ : Type}

/-- Tables without runners. -/
def idle (period : Nat) (rate : UInt32) (tables : List υ) : Scheduler υ :=
  ⟨period, rate, tables, [], .off, 0⟩

/-- Number of runners that have not stopped. -/
def running (s : Scheduler υ) : Nat := (s.runners.filter (·.running)).length

/-- Lets every runner hear all that the switch has to say, at most a new value and then its end. -/
def heed [Snmp.Mib υ] (s : Scheduler υ) : Logged (Scheduler υ) := do
  let runners ← s.runners.mapM fun r => do
    let name := (s.tables[r.table]?.map Snmp.Mib.name).getD ""
    r.onSwitch name s.switch >>= Runner.onSwitch name s.switch
  pure { s with runners }

/-- Adds a runner for every table. A period of zero lets it end at once. -/
def start [Snmp.Mib υ] (s : Scheduler υ) : Logged (Scheduler υ) :=
  let fresh := (List.range s.tables.length).map fun table =>
    { table, ticks := 0, seen := 0, running := s.period != 0, deadline := s.now + s.period }
  heed { s with runners := s.runners ++ fresh }

def put [Snmp.Mib υ] (s : Scheduler υ) (value : Bool) : Logged (Scheduler υ) :=
  heed { s with switch := s.switch.put value }

def close [Snmp.Mib υ] (s : Scheduler υ) : Logged (Scheduler υ) :=
  heed { s with switch := s.switch.close }

/-- The earlier of two timers, the first of two that ring together. -/
def earlier (best : Option (Nat × Runner)) (candidate : Nat × Runner) : Option (Nat × Runner) :=
  match best with
  | none => some candidate
  | some b => if candidate.2.deadline < b.2.deadline then some candidate else some b

/-- The runner whose timer rings first, if it does by the time `limit`, with its position. -/
def firstDue (s : Scheduler υ) (limit : Nat) : Option (Nat × Runner) :=
  ((s.runners.zipIdx.filter fun p => p.1.running && decide (p.1.deadline ≤ limit)).map
    fun p => (p.2, p.1)).foldl earlier none

def fire (ops : Upkeep υ) (s : Scheduler υ) (i : Nat) (r : Runner) : Logged (Scheduler υ) :=
  match s.tables[r.table]? with
  | none => pure s
  | some u => do
    let now := max s.now r.deadline
    let (r, u) ← r.onTimer ops s.rate s.period now u
    pure { s with now, runners := s.runners.set i r, tables := s.tables.set r.table u }

/-- Lets timers ring in order, at most `steps` times. -/
def fireUpTo (ops : Upkeep υ) (limit : Nat) : Nat → Scheduler υ → Logged (Scheduler υ)
  | 0, s => pure s
  | steps + 1, s =>
    match s.firstDue limit with
    | none => pure s
    | some (i, r) => fire ops s i r >>= fireUpTo ops limit steps

/-- How often timers can ring up to a time: each by whole periods after its deadline. -/
def ringsUpTo (s : Scheduler υ) (limit : Nat) : Nat :=
  s.runners.foldr (fun r rings => (limit + s.period - r.deadline) / s.period + rings) 0

/-- Lets every timer ring that is due by a time. -/
def fireDue (ops : Upkeep υ) (limit : Nat) (s : Scheduler υ) : Logged (Scheduler υ) :=
  fireUpTo ops limit (s.ringsUpTo limit) s

/-- Lets time pass, every timer ringing when it is due. -/
def sleep (ops : Upkeep υ) (s : Scheduler υ) (ms : Nat) : Logged (Scheduler υ) := do
  let limit := s.now + ms
  pure { ← fireDue ops limit s with now := limit }

/-- Moves the clock in one leap; the timers that have been due ring then. -/
def jump (ops : Upkeep υ) (s : Scheduler υ) (ms : Nat) : Logged (Scheduler υ) :=
  let now := s.now + ms
  fireDue ops now { s with now }

/-- One cycle of every table with a given number, apart from the runners. -/
def tickAll (ops : Upkeep υ) (s : Scheduler υ) (n : Nat) : Logged (Scheduler υ) := do
  pure { s with tables := ← s.tables.mapM (ops.tick s.rate n) }

end Scheduler

end SwitchMib
