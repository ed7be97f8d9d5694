import SwitchMib.Log

/-!
# Attempts

* `Attempt`: what an operation on a table came to. The table that it leaves behind is part of the
  outcome, also of a failure.
* `Attempt.each`: an operation for every element of a list, up to the first that fails.
* `Upkeep`: the two operations by which a table follows the outside world.
* `Upkeep.cycle`: one cycle of both, and `Upkeep.tick` where they cannot overflow.
-/

namespace SwitchMib.Mib
set_option autoImplicit false

/-- What an operation on a table came to, and the table after it. -/
structure Attempt (υ : Type) (ε : Type := AgentError) where
  outcome : Except ε Unit
  after : υ

namespace Attempt

variable {υ ε : Type}

def done (u : υ) : Attempt υ ε := ⟨.ok (), u⟩

/-- A failure that leaves a table behind. -/
def failed (e : ε) (u : υ) : Attempt υ ε := ⟨.error e, u⟩

/-- The same operation on a part of a larger table. -/
def map {ω : Type} (f : υ → ω) (a : Attempt υ ε) : Attempt ω ε := ⟨a.outcome, f a.after⟩

/-- The same operation among others that may overflow. -/
def lift (a : Attempt υ) : Attempt υ Failure := ⟨a.outcome.mapError .error, a.after⟩

/-- The table after a success; after a failure there is none. -/
def table (a : Attempt υ ε) : Except ε υ := a.outcome.map fun _ => a.after

/-- Goes on with the table after a success. -/
def toLoad (a : Logged (Attempt υ ε)) : Load ε υ := ExceptT.mk ⟨a.value.table, a.events⟩

/-- An operation for every element in order, up to the first that fails. -/
def each {α : Type} (op : α → υ → Logged (Attempt υ ε)) : List α → υ → Logged (Attempt υ ε)
  | [], u => pure (.done u)
  | a :: rest, u => do
    let first ← op a u
    match first.outcome with
    | .ok _ => each op rest first.after
    | .error _ => pure first

/-- Goes on with the table after an error too, which is told about. An overflow stays one. -/
def settle (complaint : AgentError → Event) (a : Attempt υ Failure) :
    Logged (Attempt υ Failure) :=
  match a.outcome with
  | .error (.error e) => do
    Logged.tell (complaint e)
    pure (.done a.after)
  | _ => pure a

end Attempt

/-- How a table follows the outside world. -/
structure Upkeep (υ : Type) (ε : Type := AgentError) where
  /-- Loads what rarely changes again. -/
  reinit : υ → Logged (Attempt υ ε)
  /-- Builds the next snapshot and commits it. -/
  refresh : υ → Logged (Attempt υ ε)

namespace Upkeep

variable {υ : Type}

/-- The same operations among others that may overflow. -/
def lift (ops : Upkeep υ) : Upkeep υ Failure where
  reinit u := Attempt.lift <$> ops.reinit u
  refresh u := Attempt.lift <$> ops.refresh u

/-- Whether a tick starts with a reinit: every `rate` ticks, a rate of zero counting as one. -/
def reinitDue (rate : UInt32) (tick : Nat) : Bool := tick % max rate.toNat 1 == 0

/-- One cycle: a reinit if one is due, then a refresh. Errors are told about, and an overflow ends
the cycle. -/
def cycle (ops : Upkeep υ Failure) (rate : UInt32) (n : Nat) (u : υ) :
    Logged (Attempt υ Failure) := do
  let first ←
    if reinitDue rate n then ops.reinit u >>= Attempt.settle .reinitFailed else pure (.done u)
  match first.outcome with
  | .ok _ => ops.refresh first.after >>= Attempt.settle .refreshFailed
  | .error _ => pure first

/-- One cycle of operations that cannot overflow. -/
def tick (ops : Upkeep υ) (rate : UInt32) (n : Nat) (u : υ) : Logged υ :=
  Attempt.after <$> ops.lift.cycle rate n u

end Upkeep

end SwitchMib.Mib
