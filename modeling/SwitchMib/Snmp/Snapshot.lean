/-!
# Committed snapshots

A table answers from its committed snapshot. A refresh builds the next one beside it and swaps it
in as a whole, or gives up and leaves everything as it was.

* `Lifecycle`: what can be said about a table from outside.
* `SnapshotCell`: the committed snapshot and the reported state.
* `SnapshotCell.begin`, `SnapshotCell.commit`, `SnapshotCell.giveUp`: the three moves of a refresh.
  The ticket of a refresh remembers the state that it found.
* `SnapshotCell.refresh`: a whole refresh.
-/

namespace SwitchMib.Snmp
set_option autoImplicit false

inductive Lifecycle where
  /-- Nothing has been committed yet. -/
  | uninitialized
  /-- A snapshot is committed. -/
  | seeded
  /-- A refresh is under way. -/
  | refreshing
  deriving DecidableEq, Repr

def Lifecycle.name : Lifecycle → String
  | .uninitialized => "Uninitialized"
  | .seeded => "Seeded"
  | .refreshing => "Refreshing"

/-- The committed snapshot of a table and its reported state. -/
structure SnapshotCell (σ : Type) where
  current : σ
  state : Lifecycle

/-- A refresh under way: the state found when it began. -/
structure RefreshTicket where
  previous : Lifecycle
  deriving DecidableEq, Repr

namespace SnapshotCell

variable {σ : Type}

/-- A cell in which nothing has been committed. -/
def fresh (initial : σ) : SnapshotCell σ := ⟨initial, .uninitialized⟩

def begin (cell : SnapshotCell σ) : RefreshTicket × SnapshotCell σ :=
  (⟨cell.state⟩, { cell with state := .refreshing })

/-- Ends a refresh with a new snapshot. -/
def commit (_cell : SnapshotCell σ) (next : σ) : SnapshotCell σ := ⟨next, .seeded⟩

/-- Ends a refresh without one. -/
def giveUp (cell : SnapshotCell σ) (ticket : RefreshTicket) : SnapshotCell σ :=
  { cell with state := ticket.previous }

/-- A whole refresh: commits what was built, or gives up. -/
def refresh {ε : Type} (cell : SnapshotCell σ) (built : Except ε σ) : SnapshotCell σ :=
  let (ticket, opened) := cell.begin
  match built with
  | .ok next => opened.commit next
  | .error _ => opened.giveUp ticket

@[simp] theorem refresh_ok {ε : Type} (cell : SnapshotCell σ) (next : σ) :
    cell.refresh (ε := ε) (.ok next) = ⟨next, .seeded⟩ := rfl

@[simp] theorem refresh_error {ε : Type} (cell : SnapshotCell σ) (e : ε) :
    cell.refresh (.error e) = cell := rfl

end SnapshotCell

end SwitchMib.Snmp
