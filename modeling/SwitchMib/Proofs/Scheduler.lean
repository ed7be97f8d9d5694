import Mathlib.Algebra.Order.Group.Nat
import Mathlib.Data.List.Induction
import SwitchMib.Proofs.Log
import SwitchMib.Scheduler

/-!
# Runners in any order of events

A runner waits for its timer and for the switch, and nothing says which of the two comes first. So
timers ring, the switch is put and runners hear of it in any order here, one thing at a time; what
the scheduler does with its clock is one of these orders.

* `Upkeep.cycles`, `Upkeep.callsTo`: cycles numbered from 1, and the calls that they make.
* `Upkeep.recorded`: an upkeep that writes down the calls.
* `Scheduler.Move`, `Scheduler.play`: the events and what they do.
* `Scheduler.rung`: the rings of the timer of a runner before its loop ends.
* `Scheduler.Kept.play`: the table of a runner has been through the cycles of these rings.
* `Scheduler.ticks_in_order`: what a runner does in any order of events.
* `Scheduler.cycles_by_clock`: the same of starting, putting the switch and letting time pass, which
  make one of these orders.
-/

namespace SwitchMib
set_option autoImplicit false

open Mib

/-! ## Cycles and their calls -/

namespace Mib

/-- A call that a cycle makes. -/
inductive Call where
  | reinit
  | refresh
  deriving DecidableEq, Repr

/-- An error is over once it is told. -/
theorem Attempt.value_settle_lift {υ : Type} (complaint : AgentError → Event) (a : Attempt υ) :
    (a.lift.settle complaint).value = .done a.after := by
  obtain ⟨outcome, after⟩ := a
  cases outcome <;> rfl

namespace Upkeep

variable {υ : Type}

/-- The upkeep of a table beside which the calls are written down. -/
def recorded (ops : Upkeep υ) : Upkeep (υ × List Call) where
  reinit p := do
    let a ← ops.reinit p.1
    pure (a.map (·, p.2 ++ [.reinit]))
  refresh p := do
    let a ← ops.refresh p.1
    pure (a.map (·, p.2 ++ [.refresh]))

/-- The calls of one cycle. -/
def cycleCalls (rate : UInt32) (n : Nat) : List Call :=
  if reinitDue rate n then [.reinit, .refresh] else [.refresh]

/-- The calls of the cycles from 1 to `k`. -/
def callsTo (rate : UInt32) (k : Nat) : List Call :=
  (List.range k).flatMap fun i => cycleCalls rate (i + 1)

/-- A table after cycles that are numbered from 1, each by an upkeep of its own. -/
def cycles (rate : UInt32) (upkeeps : List (Upkeep υ)) (u : υ) : υ :=
  (upkeeps.zipIdx 1).foldl (fun u p => (p.1.tick rate p.2 u).value) u

theorem value_tick (ops : Upkeep υ) (rate : UInt32) (n : Nat) (u : υ) :
    (ops.tick rate n u).value =
      (ops.refresh (if reinitDue rate n then (ops.reinit u).value.after else u)).value.after := by
  have hrefresh : ∀ u, (ops.lift.refresh u >>= Attempt.settle .refreshFailed).value =
      .done (ops.refresh u).value.after :=
    fun u => Attempt.value_settle_lift .refreshFailed (ops.refresh u).value
  have hreinit : (ops.lift.reinit u >>= Attempt.settle .reinitFailed).value =
      .done (ops.reinit u).value.after :=
    Attempt.value_settle_lift .reinitFailed (ops.reinit u).value
  rw [tick, Logged.value_map, cycle]
  cases reinitDue rate n with
  | false =>
    show (ops.lift.refresh u >>= Attempt.settle .refreshFailed).value.after = _
    rw [hrefresh]
    rfl
  | true =>
    rw [if_pos rfl, Logged.value_bind, hreinit]
    show (ops.lift.refresh _ >>= Attempt.settle .refreshFailed).value.after = _
    rw [hrefresh]
    rfl

/-- The record does not disturb the cycle, whether or not its calls fail. -/
theorem value_tick_recorded (ops : Upkeep υ) (rate : UInt32) (n : Nat) (u : υ)
    (calls : List Call) :
    (ops.recorded.tick rate n (u, calls)).value =
      ((ops.tick rate n u).value, calls ++ cycleCalls rate n) := by
  rw [value_tick, value_tick, cycleCalls]
  cases reinitDue rate n <;> simp [recorded, Attempt.map]

theorem cycles_concat (rate : UInt32) (upkeeps : List (Upkeep υ)) (ops : Upkeep υ) (u : υ) :
    cycles rate (upkeeps ++ [ops]) u =
      (ops.tick rate (upkeeps.length + 1) (cycles rate upkeeps u)).value := by
  rw [cycles, List.zipIdx_append, List.foldl_append, Nat.add_comm 1]
  rfl

theorem callsTo_succ (rate : UInt32) (k : Nat) :
    callsTo rate (k + 1) = callsTo rate k ++ cycleCalls rate (k + 1) := by
  simp [callsTo, List.range_succ]

theorem cycles_recorded (rate : UInt32) (upkeeps : List (Upkeep υ)) (u : υ) :
    cycles rate (upkeeps.map recorded) (u, []) =
      (cycles rate upkeeps u, callsTo rate upkeeps.length) := by
  induction upkeeps using List.reverseRecOn with
  | nil => rfl
  | append_singleton upkeeps ops ih =>
    rw [List.map_append, List.map_singleton, cycles_concat, ih, value_tick_recorded, cycles_concat,
      List.length_map, List.length_append, List.length_singleton, callsTo_succ]

theorem count_refresh_callsTo (rate : UInt32) (k : Nat) : (callsTo rate k).count .refresh = k := by
  have hone : ∀ n, (cycleCalls rate n).count .refresh = 1 := by
    intro n
    unfold cycleCalls
    cases reinitDue rate n <;> rfl
  induction k with
  | zero => rfl
  | succ k ih => rw [callsTo_succ, List.count_append, ih, hone]

theorem count_reinit_callsTo (rate : UInt32) (k : Nat) :
    (callsTo rate k).count .reinit = k / max rate.toNat 1 := by
  have hone : ∀ n, (cycleCalls rate n).count .reinit = if max rate.toNat 1 ∣ n then 1 else 0 := by
    intro n
    have hdue : reinitDue rate n = true ↔ max rate.toNat 1 ∣ n := by
      rw [reinitDue, beq_iff_eq, Nat.dvd_iff_mod_eq_zero]
    unfold cycleCalls
    by_cases hn : max rate.toNat 1 ∣ n
    · rw [if_pos (hdue.2 hn), if_pos hn]
      rfl
    · rw [if_neg (fun h => hn (hdue.1 h)), if_neg hn]
      rfl
  induction k with
  | zero => simp [callsTo]
  | succ k ih => rw [callsTo_succ, List.count_append, ih, hone, Nat.succ_div]

end Upkeep

end Mib

namespace Runner

/-- Besides what is told about it, it does not matter whose runner hears of the switch. -/
def heard (s : StopSwitch) (r : Runner) : Runner := (r.onSwitch "" s).value

theorem value_onSwitch (name : String) (s : StopSwitch) (r : Runner) :
    (r.onSwitch name s).value = r.heard s := by
  unfold heard onSwitch
  cases r.running with
  | false => rfl
  | true => cases s.notice r.seen <;> rfl

/-- A loop ends when the switch is on or has been given up. -/
theorem running_of_heard {s : StopSwitch} {r : Runner} (h : r.running = true)
    (hended : (r.heard s).running = false) : s.value = true ∨ s.closed = true := by
  have hstop : s.notice r.seen = .stop := by
    cases hnotice : s.notice r.seen with
    | stop => rfl
    | nothing => simp [heard, onSwitch, h, hnotice] at hended
    | carryOn => simp [heard, onSwitch, h, hnotice] at hended
  unfold StopSwitch.notice at hstop
  cases hvalue : s.value with
  | true => exact .inl rfl
  | false =>
    cases hclosed : s.closed with
    | true => exact .inr rfl
    | false => by_cases hnew : s.version = r.seen <;> simp [hvalue, hclosed, hnew] at hstop

theorem heard_of_stopped {s : StopSwitch} {r : Runner} (h : r.running = false) : r.heard s = r := by
  simp [heard, onSwitch, h]

/-- News that the switch is off changes nothing but that they are known. -/
theorem heard_of_off {s : StopSwitch} {r : Runner} (h : r.running = true)
    (hnew : r.seen ≠ s.version) (hoff : s.value = false) :
    r.heard s = { r with seen := s.version } := by
  have hnotice : s.notice r.seen = .carryOn := by
    simp [StopSwitch.notice, hoff, Ne.symm hnew]
  simp [heard, onSwitch, h, hnotice]

/-- Hearing of the switch makes no cycle and does not change the table. -/
theorem heard_keeps (s : StopSwitch) (r : Runner) :
    (r.heard s).table = r.table ∧ (r.heard s).ticks = r.ticks := by
  unfold heard onSwitch
  cases r.running with
  | false => exact ⟨rfl, rfl⟩
  | true => cases s.notice r.seen <;> exact ⟨rfl, rfl⟩

end Runner

/-! ## Events in any order -/

namespace Scheduler

variable {υ : Type}

/-- Adds a runner for every table, none of which has heard of the switch. -/
def enlist (s : Scheduler υ) : Scheduler υ :=
  let fresh := (List.range s.tables.length).map fun table =>
    { table, ticks := 0, seen := 0, running := s.period != 0, deadline := s.now + s.period }
  { s with runners := s.runners ++ fresh }

/-- One thing that happens. -/
inductive Move (υ : Type) where
  | put (value : Bool)
  | close
  /-- A runner hears what the switch has to say. -/
  | hear (i : Nat)
  /-- The timer of a runner rings. -/
  | ring (ops : Upkeep υ) (i : Nat)
  | clock (now : Nat)

def isRunning (s : Scheduler υ) (i : Nat) : Bool := s.runners[i]?.any (·.running)

/-- Lets the timer of a runner ring, unless its loop has ended. -/
def ring (s : Scheduler υ) (ops : Upkeep υ) (i : Nat) : Scheduler υ :=
  match s.runners[i]? with
  | some r => if r.running then (s.fire ops i r).value else s
  | none => s

def move (s : Scheduler υ) : Move υ → Scheduler υ
  | .put value => { s with switch := s.switch.put value }
  | .close => { s with switch := s.switch.close }
  | .hear i => { s with runners := s.runners.modify i (Runner.heard s.switch) }
  | .ring ops i => s.ring ops i
  | .clock now => { s with now }

def play (s : Scheduler υ) (moves : List (Move υ)) : Scheduler υ := moves.foldl move s

@[simp] theorem play_append (s : Scheduler υ) (moves later : List (Move υ)) :
    s.play (moves ++ later) = (s.play moves).play later := List.foldl_append

/-- The upkeep of a ring of the timer of a runner, unless its loop has ended. -/
def rungBy (s : Scheduler υ) (i : Nat) : Move υ → List (Upkeep υ)
  | .ring ops j => if j = i ∧ s.isRunning i = true then [ops] else []
  | _ => []

/-- The upkeeps of all rings of the timer of a runner until its loop ends. -/
def rung (i : Nat) : Scheduler υ → List (Move υ) → List (Upkeep υ)
  | _, [] => []
  | s, m :: moves => s.rungBy i m ++ rung i (s.move m) moves

/-! ## What a move does to one runner -/

section Step

variable {s : Scheduler υ} {i j : Nat}

theorem getElem?_runners_hear :
    (s.move (.hear j)).runners[i]? =
      if j = i then s.runners[i]?.map (Runner.heard s.switch) else s.runners[i]? := by
  show (s.runners.modify j (Runner.heard s.switch))[i]? = _
  rw [List.getElem?_modify]
  split
  · rfl
  · cases s.runners[i]? <;> rfl

/-- A runner after its timer has rung. -/
def rangAt (s : Scheduler υ) (r : Runner) : Runner :=
  { r with
    ticks := r.ticks + 1
    deadline := nextDeadline s.period r.deadline (max s.now r.deadline) }

/-- A ring takes a runner and its table through the next cycle. -/
theorem ring_eq (ops : Upkeep υ) {r : Runner} {u : υ} (hr : s.runners[j]? = some r)
    (hrunning : r.running = true) (hu : s.tables[r.table]? = some u) :
    s.ring ops j =
      { s with
        now := max s.now r.deadline
        runners := s.runners.set j (s.rangAt r)
        tables := s.tables.set r.table (ops.tick s.rate (r.ticks + 1) u).value } := by
  unfold ring
  rw [hr]
  show (if r.running = true then (s.fire ops j r).value else s) = _
  rw [if_pos hrunning]
  unfold fire
  rw [hu]
  rfl

/-- A ring for a runner whose loop has ended does nothing, and neither does one without a table. -/
theorem ring_of_idle (ops : Upkeep υ)
    (h : ∀ r, s.runners[j]? = some r → r.running = true → s.tables[r.table]? = none) :
    s.ring ops j = s := by
  unfold ring
  cases hr : s.runners[j]? with
  | none => rfl
  | some r =>
    show (if r.running = true then (s.fire ops j r).value else s) = s
    by_cases hrunning : r.running = true
    · rw [if_pos hrunning]
      unfold fire
      rw [h r hr hrunning]
      rfl
    · rw [if_neg hrunning]

/-- A ring changes nothing, or it is one of a runner that goes on. -/
theorem ring_cases (s : Scheduler υ) (ops : Upkeep υ) (j : Nat) :
    s.ring ops j = s ∨ ∃ r u, s.runners[j]? = some r ∧ r.running = true ∧
      s.tables[r.table]? = some u ∧ s.ring ops j =
        { s with
          now := max s.now r.deadline
          runners := s.runners.set j (s.rangAt r)
          tables := s.tables.set r.table (ops.tick s.rate (r.ticks + 1) u).value } := by
  by_cases h : ∀ r, s.runners[j]? = some r → r.running = true → s.tables[r.table]? = none
  · exact .inl (ring_of_idle ops h)
  · simp only [not_forall] at h
    obtain ⟨r, hr, hrunning, htable⟩ := h
    obtain ⟨u, hu⟩ := Option.ne_none_iff_exists'.1 htable
    exact .inr ⟨r, u, hr, hrunning, hu, ring_eq ops hr hrunning hu⟩

theorem isRunning_eq_true_iff :
    s.isRunning i = true ↔ ∃ r, s.runners[i]? = some r ∧ r.running = true := by
  unfold isRunning
  cases s.runners[i]? <;> simp

theorem isRunning_of_some {r : Runner} (h : s.runners[i]? = some r) :
    s.isRunning i = r.running := by
  rw [isRunning, h]
  rfl

/-- A ring ends no loop and starts none. -/
theorem isRunning_ring (ops : Upkeep υ) : (s.ring ops j).isRunning i = s.isRunning i := by
  rcases ring_cases s ops j with hsame | ⟨r, u, hr, -, -, hring⟩
  · rw [hsame]
  · rw [hring, isRunning]
    by_cases hj : j = i
    · subst hj
      obtain ⟨hlt, -⟩ := List.getElem?_eq_some_iff.1 hr
      rw [List.getElem?_set_self hlt, isRunning_of_some hr]
      rfl
    · rw [List.getElem?_set_ne hj]
      rfl

/-- A loop that ends does so because its runner hears that the switch is on or given up. -/
theorem ended_by_move {m : Move υ} (h : s.isRunning i = true)
    (hended : (s.move m).isRunning i = false) :
    m = .hear i ∧ (s.switch.value = true ∨ s.switch.closed = true) := by
  have hgoes : (s.move m).isRunning i ≠ s.isRunning i := by simp [h, hended]
  cases m with
  | put value => exact absurd rfl hgoes
  | close => exact absurd rfl hgoes
  | clock now => exact absurd rfl hgoes
  | ring ops j => exact absurd (isRunning_ring ops) hgoes
  | hear j =>
    obtain ⟨r, hr, hrunning⟩ := isRunning_eq_true_iff.1 h
    by_cases hj : j = i
    · have hheard : (s.move (.hear j)).runners[i]? = some (r.heard s.switch) := by
        rw [getElem?_runners_hear, if_pos hj, hr]
        rfl
      rw [isRunning_of_some hheard] at hended
      exact ⟨by rw [hj], Runner.running_of_heard hrunning hended⟩
    · refine absurd ?_ hgoes
      rw [isRunning, getElem?_runners_hear, if_neg hj]
      rfl

/-- No move starts a loop again, and none lets it tick. -/
theorem stopped_move (h : s.isRunning i = false) (m : Move υ) :
    (s.move m).isRunning i = false ∧ s.rungBy i m = [] := by
  cases m with
  | put value => exact ⟨h, rfl⟩
  | close => exact ⟨h, rfl⟩
  | clock now => exact ⟨h, rfl⟩
  | ring ops j =>
    refine ⟨(isRunning_ring ops).trans h, ?_⟩
    simp [rungBy, h]
  | hear j =>
    refine ⟨?_, rfl⟩
    rw [isRunning, getElem?_runners_hear]
    by_cases hj : j = i
    · cases hr : s.runners[i]? with
      | none => simp
      | some r =>
        rw [isRunning_of_some hr] at h
        simpa [hj, Runner.heard_of_stopped h] using h
    · rw [if_neg hj]
      exact h

end Step

theorem stopped_play {s : Scheduler υ} {i : Nat} (h : s.isRunning i = false)
    (moves : List (Move υ)) : (s.play moves).isRunning i = false ∧ s.rung i moves = [] := by
  induction moves generalizing s with
  | nil => exact ⟨h, rfl⟩
  | cons m moves ih =>
    obtain ⟨hmove, hrung⟩ := stopped_move h m
    obtain ⟨hplay, hrest⟩ := ih hmove
    refine ⟨hplay, ?_⟩
    rw [rung, hrung, hrest]
    rfl

/-! ## What a runner has done -/

/-- Every runner keeps the table at its own position, and one of them has been through the cycles of
some upkeeps. -/
structure Kept (s : Scheduler υ) (rate : UInt32) (i : Nat) (u : υ) (upkeeps : List (Upkeep υ)) :
    Prop where
  rate_eq : s.rate = rate
  own : ∀ (j : Nat) (r : Runner), s.runners[j]? = some r → r.table = j
  ticks : s.runners[i]?.map (·.ticks) = some upkeeps.length
  table : s.tables[i]? = some (Upkeep.cycles rate upkeeps u)

section Kept

variable {s : Scheduler υ} {rate : UInt32} {i : Nat} {u : υ} {upkeeps : List (Upkeep υ)}

theorem Kept.hear (h : s.Kept rate i u upkeeps) (j : Nat) :
    (s.move (.hear j)).Kept rate i u upkeeps where
  rate_eq := h.rate_eq
  own k r hr := by
    rw [getElem?_runners_hear] at hr
    split at hr
    · obtain ⟨r', hr', rfl⟩ := Option.map_eq_some_iff.1 hr
      rw [(Runner.heard_keeps _ r').1]
      exact h.own k r' hr'
    · exact h.own k r hr
  ticks := by
    rw [← h.ticks, getElem?_runners_hear]
    split
    · rw [Option.map_map]
      exact congrArg (Option.map · _) (funext fun r => (r.heard_keeps s.switch).2)
    · rfl
  table := h.table

theorem Kept.own_set (h : s.Kept rate i u upkeeps) {j : Nat} {r : Runner}
    (hr : s.runners[j]? = some r) (k : Nat) (x : Runner)
    (hx : (s.runners.set j (s.rangAt r))[k]? = some x) : x.table = k := by
  by_cases hk : j = k
  · subst hk
    obtain ⟨hlt, -⟩ := List.getElem?_eq_some_iff.1 hr
    rw [List.getElem?_set_self hlt] at hx
    rw [← Option.some.inj hx]
    exact h.own j r hr
  · rw [List.getElem?_set_ne hk] at hx
    exact h.own k x hx

theorem Kept.ring (h : s.Kept rate i u upkeeps) (ops : Upkeep υ) (j : Nat) :
    (s.ring ops j).Kept rate i u (upkeeps ++ s.rungBy i (.ring ops j)) := by
  rw [rungBy]
  by_cases hown : j = i ∧ s.isRunning i = true
  · -- the ring is one of this runner
    obtain ⟨rfl, hgoes⟩ := hown
    obtain ⟨r, hr, hrunning⟩ := isRunning_eq_true_iff.1 hgoes
    obtain ⟨hlt, -⟩ := List.getElem?_eq_some_iff.1 hr
    have hplace : r.table = j := h.own j r hr
    have hticks : r.ticks = upkeeps.length := by simpa [hr] using h.ticks
    have htable := h.table
    obtain ⟨hlt', -⟩ := List.getElem?_eq_some_iff.1 htable
    rw [if_pos ⟨rfl, hgoes⟩, ring_eq ops hr hrunning (hplace ▸ htable)]
    refine ⟨h.rate_eq, h.own_set hr, ?_, ?_⟩
    · simp [hlt, rangAt, hticks]
    · show (s.tables.set r.table _)[j]? = _
      rw [hplace, List.getElem?_set_self hlt', Upkeep.cycles_concat, h.rate_eq, hticks]
  · rw [if_neg hown, List.append_nil]
    rcases ring_cases s ops j with hsame | ⟨r, v, hr, hrunning, -, hring⟩
    · rw [hsame]
      exact h
    · -- it is one of another runner, which keeps another table
      have hne : j ≠ i := by
        rintro rfl
        exact hown ⟨rfl, (isRunning_of_some hr).trans hrunning⟩
      rw [hring]
      refine ⟨h.rate_eq, h.own_set hr, ?_, ?_⟩
      · rw [List.getElem?_set_ne hne]
        exact h.ticks
      · rw [h.own j r hr, List.getElem?_set_ne hne]
        exact h.table

theorem Kept.move (h : s.Kept rate i u upkeeps) (m : Move υ) :
    (s.move m).Kept rate i u (upkeeps ++ s.rungBy i m) := by
  cases m with
  | ring ops j => exact h.ring ops j
  | hear j => exact (List.append_nil upkeeps).symm ▸ h.hear j
  | put value => exact (List.append_nil upkeeps).symm ▸ ⟨h.rate_eq, h.own, h.ticks, h.table⟩
  | close => exact (List.append_nil upkeeps).symm ▸ ⟨h.rate_eq, h.own, h.ticks, h.table⟩
  | clock now => exact (List.append_nil upkeeps).symm ▸ ⟨h.rate_eq, h.own, h.ticks, h.table⟩

theorem Kept.play (h : s.Kept rate i u upkeeps) (moves : List (Move υ)) :
    (s.play moves).Kept rate i u (upkeeps ++ s.rung i moves) := by
  induction moves generalizing s upkeeps with
  | nil => exact (List.append_nil upkeeps).symm ▸ h
  | cons m moves ih =>
    rw [rung, ← List.append_assoc]
    exact ih (h.move m)

theorem kept_enlist (hs : s.runners = []) (hu : s.tables[i]? = some u) :
    s.enlist.Kept s.rate i u [] where
  rate_eq := rfl
  own j r hr := by
    simp only [enlist, hs, List.nil_append, List.getElem?_map, Option.map_eq_some_iff] at hr
    obtain ⟨k, hk, rfl⟩ := hr
    obtain ⟨hlt, hk⟩ := List.getElem?_eq_some_iff.1 hk
    rw [← hk, List.getElem_range]
  ticks := by
    obtain ⟨hlt, -⟩ := List.getElem?_eq_some_iff.1 hu
    simp [enlist, hs, hlt]
  table := hu

theorem isRunning_enlist (hs : s.runners = []) (hu : s.tables[i]? = some u) :
    s.enlist.isRunning i = (s.period != 0) := by
  obtain ⟨hlt, -⟩ := List.getElem?_eq_some_iff.1 hu
  simp [isRunning, enlist, hs, hlt]

end Kept

/-! ## The calls of a runner -/

/-- The same tables, each with an empty record of calls. -/
def recorded (s : Scheduler υ) : Scheduler (υ × List Call) :=
  ⟨s.period, s.rate, s.tables.map (·, []), s.runners, s.switch, s.now⟩

/-- The same move, the calls of which are written down. -/
def Move.recorded : Move υ → Move (υ × List Call)
  | .put value => .put value
  | .close => .close
  | .hear i => .hear i
  | .ring ops i => .ring ops.recorded i
  | .clock now => .clock now

theorem Move.eq_hear_of_recorded {m : Move υ} {i : Nat} (h : m.recorded = .hear i) :
    m = .hear i := by
  cases m with
  | hear j =>
    cases h
    rfl
  | _ => cases h

theorem exists_rung_recorded (s : Scheduler (υ × List Call)) (i : Nat) (moves : List (Move υ)) :
    ∃ upkeeps : List (Upkeep υ), s.rung i (moves.map .recorded) = upkeeps.map .recorded := by
  induction moves generalizing s with
  | nil => exact ⟨[], rfl⟩
  | cons m moves ih =>
    obtain ⟨later, hlater⟩ := ih (s.move m.recorded)
    have hfirst : ∃ now : List (Upkeep υ), s.rungBy i m.recorded = now.map .recorded := by
      cases m with
      | ring ops j =>
        by_cases hown : j = i ∧ s.isRunning i = true
        · exact ⟨[ops], if_pos hown⟩
        · exact ⟨[], if_neg hown⟩
      | _ => exact ⟨[], rfl⟩
    obtain ⟨now, hnow⟩ := hfirst
    refine ⟨now ++ later, ?_⟩
    rw [List.map_cons, rung, hnow, hlater, List.map_append]

section Recorded

variable {s : Scheduler υ} {i : Nat} {u : υ}

theorem kept_recorded (hs : s.runners = []) (hu : s.tables[i]? = some u) :
    s.recorded.enlist.Kept s.rate i (u, []) [] :=
  kept_enlist hs (by simp [recorded, hu])

/-- After any moves a table has been through the cycles of its rings, and the calls that they make
are written down. -/
theorem exists_cycles_play (hs : s.runners = []) (hu : s.tables[i]? = some u)
    (moves : List (Move υ)) :
    let after := s.recorded.enlist.play (moves.map .recorded)
    ∃ (upkeeps : List (Upkeep υ)) (r : Runner),
      s.recorded.enlist.rung i (moves.map .recorded) = upkeeps.map .recorded ∧
      after.runners[i]? = some r ∧ r.ticks = upkeeps.length ∧
      after.tables[i]? =
        some (Upkeep.cycles s.rate upkeeps u, Upkeep.callsTo s.rate r.ticks) ∧
      (Upkeep.callsTo s.rate r.ticks).count .refresh = r.ticks ∧
      (Upkeep.callsTo s.rate r.ticks).count .reinit = r.ticks / max s.rate.toNat 1 := by
  intro after
  obtain ⟨upkeeps, hrung⟩ := exists_rung_recorded s.recorded.enlist i moves
  have hafter := (kept_recorded hs hu).play (moves.map .recorded)
  rw [hrung, List.nil_append] at hafter
  obtain ⟨r, hr, hticks⟩ := Option.map_eq_some_iff.1 hafter.ticks
  rw [List.length_map] at hticks
  have htable := hafter.table
  rw [Upkeep.cycles_recorded, ← hticks] at htable
  exact ⟨upkeeps, r, hrung, hr, hticks, htable, Upkeep.count_refresh_callsTo _ _,
    Upkeep.count_reinit_callsTo _ _⟩

/-- No call is made for a table after the loop of its runner has ended. -/
theorem stopped_recorded (hs : s.runners = []) (hu : s.tables[i]? = some u)
    (earlier later : List (Move υ)) :
    let before := s.recorded.enlist.play (earlier.map .recorded)
    let after := before.play (later.map .recorded)
    before.isRunning i = false →
      after.isRunning i = false ∧ after.tables[i]? = before.tables[i]? := by
  intro before after hstopped
  have hbefore := (kept_recorded hs hu).play (earlier.map .recorded)
  obtain ⟨hplay, hrung⟩ := stopped_play hstopped (later.map .recorded)
  have hafter := hbefore.play (later.map .recorded)
  rw [hrung, List.append_nil] at hafter
  exact ⟨hplay, hafter.table.trans hbefore.table.symm⟩

end Recorded

/-- In any order of rings, values of the switch and its end, and whatever becomes of the calls, the
runner of a table takes it through cycles numbered from 1, one for each ring before its loop ends.
So there are as many refreshes as cycles and a reinit right before every refresh whose number is a
multiple of the rate. The loop ends only when the runner hears that the switch is on or given up, no
call is made after that, and hearing that the switch is off changes nothing. -/
theorem ticks_in_order {s : Scheduler υ} (hs : s.runners = []) {i : Nat} {u : υ}
    (hu : s.tables[i]? = some u) (moves : List (Move υ)) :
    let begun := s.recorded.enlist
    let after := begun.play (moves.map .recorded)
    begun.isRunning i = (s.period != 0) ∧
    (∃ (upkeeps : List (Upkeep υ)) (r : Runner),
      begun.rung i (moves.map .recorded) = upkeeps.map .recorded ∧
      after.runners[i]? = some r ∧ r.ticks = upkeeps.length ∧
      after.tables[i]? =
        some (Upkeep.cycles s.rate upkeeps u, Upkeep.callsTo s.rate r.ticks) ∧
      (Upkeep.callsTo s.rate r.ticks).count .refresh = r.ticks ∧
      (Upkeep.callsTo s.rate r.ticks).count .reinit = r.ticks / max s.rate.toNat 1) ∧
    ∀ earlier m later, moves = earlier ++ m :: later →
      let before := begun.play (earlier.map .recorded)
      let next := before.move m.recorded
      (before.isRunning i = true → next.isRunning i = false →
        m = .hear i ∧ (before.switch.value = true ∨ before.switch.closed = true)) ∧
      (before.isRunning i = false →
        after.isRunning i = false ∧ after.tables[i]? = before.tables[i]?) ∧
      ∀ r, before.runners[i]? = some r → r.running = true → m = .hear i →
        r.seen ≠ before.switch.version → before.switch.value = false →
          next.runners[i]? = some { r with seen := before.switch.version } ∧
            next.tables = before.tables := by
  intro begun after
  have hrecord : s.recorded.tables[i]? = some (u, []) := by simp [recorded, hu]
  refine ⟨isRunning_enlist hs hrecord, exists_cycles_play hs hu moves, ?_⟩
  rintro earlier m later rfl before next
  have hafter : after = before.play ((m :: later).map .recorded) := by
    simp [after, before]
  refine ⟨fun hgoes hended => ?_, fun hstopped => ?_, ?_⟩
  · obtain ⟨hm, hswitch⟩ := ended_by_move hgoes hended
    exact ⟨Move.eq_hear_of_recorded hm, hswitch⟩
  · rw [hafter]
    exact stopped_recorded hs hu earlier (m :: later) hstopped
  · rintro r hr hrunning rfl hnew hoff
    refine ⟨?_, rfl⟩
    show (before.move (.hear i)).runners[i]? = _
    rw [getElem?_runners_hear, if_pos rfl, hr, Option.map_some,
      Runner.heard_of_off hrunning hnew hoff]

/-- Two cycles, a third one after the switch has been put on but before the runner hears of it, and
none after that. Every call fails. -/
theorem ticks_in_order_of_late_hearing :
    let failing : Upkeep Unit :=
      { reinit := fun u => pure (.failed (.incoherent "PORT" (.stated "empty")) u)
        refresh := fun u => pure (.failed (.power (.stated "unavailable")) u) }
    let s := Scheduler.idle 5000 2 [()]
    let ring := Move.ring failing 0
    let moves := [ring, .put false, .hear 0, ring, .put true, ring, .hear 0, ring]
    let after := s.recorded.enlist.play (moves.map .recorded)
    s.runners = [] ∧ s.tables[0]? = some () ∧
      after.tables[0]? = some ((), [.refresh, .reinit, .refresh, .refresh]) ∧
      after.isRunning 0 = false ∧ ∃ r, after.runners[0]? = some r ∧ r.ticks = 3 := by
  intro failing s ring moves after
  obtain ⟨-, ⟨upkeeps, r, hrung, hr, hticks, htable, -, -⟩, -⟩ :=
    ticks_in_order (s := s) rfl (i := 0) (u := ()) rfl moves
  have hrings : (s.recorded.enlist.rung 0 (moves.map .recorded)).length = 3 := by decide +kernel
  have hended : after.isRunning 0 = false := by decide +kernel
  rw [hrung, List.length_map, ← hticks] at hrings
  have hcalls : Upkeep.callsTo s.rate 3 = [.refresh, .reinit, .refresh, .refresh] := by decide
  rw [hrings, hcalls] at htable
  exact ⟨rfl, rfl, htable, hended, r, hr, hrings⟩

/-! ## The order of the clock -/

section Clock

theorem value_heed [Snmp.Mib υ] (s : Scheduler υ) :
    s.heed.value =
      { s with runners := s.runners.map fun r => (r.heard s.switch).heard s.switch } := by
  unfold heed
  simp [Runner.value_onSwitch]

/-- All runners up to a position hear twice what the switch has to say. -/
def hearings (k : Nat) : List (Move υ) := (List.range k).flatMap fun i => [.hear i, .hear i]

theorem play_hearings (s : Scheduler υ) (k : Nat) :
    s.play (hearings k) =
      { s with
        runners := s.runners.mapIdx fun i r =>
          if i < k then (r.heard s.switch).heard s.switch else r } := by
  induction k with
  | zero =>
    have hnone : (s.runners.mapIdx fun i r =>
        if i < 0 then (r.heard s.switch).heard s.switch else r) = s.runners := by
      apply List.ext_getElem?
      simp
    rw [hnone]
    rfl
  | succ k ih =>
    have hmore : (hearings (k + 1) : List (Move υ)) = hearings k ++ [.hear k, .hear k] := by
      simp [hearings, List.range_succ]
    rw [hmore, play_append, ih]
    show ({ s with runners := ((s.runners.mapIdx _).modify k _).modify k _ } : Scheduler υ) = _
    congr 1
    apply List.ext_getElem?
    intro i
    simp only [List.getElem?_modify, List.getElem?_mapIdx]
    cases s.runners[i]? with
    | none => simp
    | some r =>
      by_cases hi : k = i
      · subst hi
        simp [move]
      · by_cases hlt : i < k
        · have hlt' : i < k + 1 := by omega
          simp [hi, hlt, hlt']
        · have hlt' : ¬ i < k + 1 := by omega
          simp [hi, hlt, hlt']

theorem value_heed_eq_play [Snmp.Mib υ] (s : Scheduler υ) :
    s.heed.value = s.play (hearings s.runners.length) := by
  rw [value_heed, play_hearings]
  congr 1
  apply List.ext_getElem (by simp)
  intro i hi hi'
  have hlt : i < s.runners.length := by simpa using hi
  simp [hlt]

/-- The runner whose timer rings first is one whose loop has not ended. -/
theorem firstDue_eq_some {s : Scheduler υ} {limit i : Nat} {r : Runner}
    (h : s.firstDue limit = some (i, r)) : s.runners[i]? = some r ∧ r.running = true := by
  have hmem : ∀ (l : List (Nat × Runner)) (best : Option (Nat × Runner)) (x : Nat × Runner),
      l.foldl earlier best = some x → x ∈ l ∨ best = some x := by
    intro l
    induction l with
    | nil => exact fun best x hx => .inr hx
    | cons y l ih =>
      intro best x hx
      rcases ih _ x hx with hx | hx
      · exact .inl (List.mem_cons_of_mem y hx)
      · unfold earlier at hx
        split at hx
        · exact .inl (by simp [Option.some.inj hx])
        · split at hx
          · exact .inl (by simp [Option.some.inj hx])
          · exact .inr hx
  have hdue := (hmem _ _ _ h).resolve_right (by simp)
  obtain ⟨p, hp, hpair⟩ := List.mem_map.1 hdue
  obtain ⟨rfl, rfl⟩ := Prod.mk.inj hpair
  obtain ⟨hplace, hring⟩ := List.mem_filter.1 hp
  refine ⟨?_, ?_⟩
  · exact List.mem_zipIdx_iff_getElem?.1 hplace
  · exact (Bool.and_eq_true_iff.1 hring).1

theorem exists_rings_fireUpTo (ops : Upkeep υ) (limit steps : Nat) (s : Scheduler υ) :
    ∃ places : List Nat, (fireUpTo ops limit steps s).value = s.play (places.map (.ring ops)) := by
  induction steps generalizing s with
  | zero => exact ⟨[], rfl⟩
  | succ steps ih =>
    unfold fireUpTo
    cases hdue : s.firstDue limit with
    | none => exact ⟨[], rfl⟩
    | some first =>
      obtain ⟨i, r⟩ := first
      obtain ⟨hr, hrunning⟩ := firstDue_eq_some hdue
      have hring : (s.fire ops i r).value = s.ring ops i := by
        unfold ring
        rw [hr]
        exact (if_pos hrunning).symm
      obtain ⟨places, hplaces⟩ := ih (s.ring ops i)
      refine ⟨i :: places, ?_⟩
      rw [Logged.value_bind, hring, hplaces]
      rfl

theorem exists_rings_fireDue (ops : Upkeep υ) (limit : Nat) (s : Scheduler υ) :
    ∃ places : List Nat, (fireDue ops limit s).value = s.play (places.map (.ring ops)) :=
  exists_rings_fireUpTo ops limit _ s

/-- What is done with runners that have been started. -/
inductive Act (υ : Type) where
  | put (value : Bool)
  | close
  | sleep (ops : Upkeep υ) (ms : Nat)
  | jump (ops : Upkeep υ) (ms : Nat)

def act [Snmp.Mib υ] (s : Scheduler υ) : Act υ → Scheduler υ
  | .put value => (s.put value).value
  | .close => s.close.value
  | .sleep ops ms => (s.sleep ops ms).value
  | .jump ops ms => (s.jump ops ms).value

/-- The same act, the calls of which are written down. -/
def Act.recorded : Act υ → Act (υ × List Call)
  | .put value => .put value
  | .close => .close
  | .sleep ops ms => .sleep ops.recorded ms
  | .jump ops ms => .jump ops.recorded ms

theorem map_recorded_hearings (k : Nat) :
    (hearings k : List (Move υ)).map .recorded = hearings k := by
  simp [hearings, List.map_flatMap, Move.recorded]

theorem map_recorded_rings (ops : Upkeep υ) (places : List Nat) :
    (places.map (Move.ring ops)).map Move.recorded = places.map (Move.ring ops.recorded) :=
  List.map_map

variable [Snmp.Mib υ]

/-- A table with a record is served as the table is. -/
instance : Snmp.Mib (υ × List Call) where
  name p := Snmp.Mib.name p.1
  top p := Snmp.Mib.top p.1
  valueAt p := Snmp.Mib.valueAt p.1
  next p := Snmp.Mib.next p.1
  cells p := Snmp.Mib.cells p.1
  state p := Snmp.Mib.state p.1

theorem exists_moves_act (s : Scheduler (υ × List Call)) (a : Act υ) :
    ∃ moves : List (Move υ), s.act a.recorded = s.play (moves.map .recorded) := by
  cases a with
  | put value =>
    refine ⟨.put value :: hearings s.runners.length, ?_⟩
    rw [List.map_cons, map_recorded_hearings]
    exact value_heed_eq_play (s.move (.put value))
  | close =>
    refine ⟨.close :: hearings s.runners.length, ?_⟩
    rw [List.map_cons, map_recorded_hearings]
    exact value_heed_eq_play (s.move .close)
  | jump ops ms =>
    obtain ⟨places, hplaces⟩ :=
      exists_rings_fireDue ops.recorded (s.now + ms) (s.move (.clock (s.now + ms)))
    refine ⟨.clock (s.now + ms) :: places.map (.ring ops), ?_⟩
    rw [List.map_cons, map_recorded_rings]
    exact hplaces
  | sleep ops ms =>
    obtain ⟨places, hplaces⟩ := exists_rings_fireDue ops.recorded (s.now + ms) s
    refine ⟨places.map (.ring ops) ++ [.clock (s.now + ms)], ?_⟩
    rw [List.map_append, map_recorded_rings, play_append, ← hplaces]
    rfl

theorem exists_moves_acts (acts : List (Act υ)) (s : Scheduler (υ × List Call)) :
    ∃ moves : List (Move υ),
      (acts.map .recorded).foldl act s = s.play (moves.map .recorded) := by
  induction acts generalizing s with
  | nil => exact ⟨[], rfl⟩
  | cons a acts ih =>
    obtain ⟨first, hfirst⟩ := exists_moves_act s a
    obtain ⟨later, hlater⟩ := ih (s.act a.recorded)
    refine ⟨first ++ later, ?_⟩
    rw [List.map_cons, List.foldl_cons, hlater, hfirst, List.map_append, play_append]

theorem exists_moves_start (s : Scheduler υ) (acts : List (Act υ)) :
    ∃ moves : List (Move υ),
      (acts.map .recorded).foldl act s.recorded.start.value =
        s.recorded.enlist.play (moves.map .recorded) := by
  obtain ⟨later, hlater⟩ := exists_moves_acts acts s.recorded.start.value
  refine ⟨hearings s.recorded.enlist.runners.length ++ later, ?_⟩
  rw [hlater, List.map_append, map_recorded_hearings, play_append, ← value_heed_eq_play]
  rfl

/-- Whatever is done with runners after their start, each has taken its table through cycles
numbered from 1, with as many refreshes and a reinit before every one whose number is a multiple of
the rate, and nothing is called for a table once the loop of its runner has ended. -/
theorem cycles_by_clock {s : Scheduler υ} (hs : s.runners = []) {i : Nat} {u : υ}
    (hu : s.tables[i]? = some u) (acts : List (Act υ)) :
    let begun := s.recorded.start.value
    let after := (acts.map .recorded).foldl act begun
    (∃ (upkeeps : List (Upkeep υ)) (r : Runner),
      after.runners[i]? = some r ∧ r.ticks = upkeeps.length ∧
      after.tables[i]? =
        some (Upkeep.cycles s.rate upkeeps u, Upkeep.callsTo s.rate r.ticks) ∧
      (Upkeep.callsTo s.rate r.ticks).count .refresh = r.ticks ∧
      (Upkeep.callsTo s.rate r.ticks).count .reinit = r.ticks / max s.rate.toNat 1) ∧
    ∀ earlier later, acts = earlier ++ later →
      let before := (earlier.map .recorded).foldl act begun
      before.isRunning i = false →
        after.isRunning i = false ∧ after.tables[i]? = before.tables[i]? := by
  intro begun after
  refine ⟨?_, ?_⟩
  · obtain ⟨moves, hmoves⟩ := exists_moves_start s acts
    obtain ⟨upkeeps, r, -, hcycles⟩ := exists_cycles_play hs hu moves
    rw [← hmoves] at hcycles
    exact ⟨upkeeps, r, hcycles⟩
  · rintro earlier later rfl before hstopped
    obtain ⟨first, hfirst⟩ := exists_moves_start s earlier
    obtain ⟨rest, hrest⟩ := exists_moves_acts later before
    have hafter : after = before.play (rest.map .recorded) := by
      rw [← hrest]
      simp [after, before]
    have hbefore : before = s.recorded.enlist.play (first.map .recorded) := hfirst
    rw [hafter]
    rw [hbefore] at hstopped ⊢
    exact stopped_recorded hs hu first rest hstopped

end Clock

end Scheduler

end SwitchMib
