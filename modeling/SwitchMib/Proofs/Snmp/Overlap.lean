import SwitchMib.Snmp.Snapshot

/-!
# Overlapping refreshes

Several refreshes of one cell may be under way at once and end in any order. Each ticket brings
back the state that it found, so one that ends late can report what is no longer so.

* `Refreshes`, `Move`: a cell with its open refreshes, and what can happen to them.
* `Refreshes.Truthful`: the cell reports what is so.
* `Refreshes.Orderly`: a commit ends the only open refresh, and the oldest of several is not given
  up.
* `Refreshes.step_truthful_iff`: from where orderly moves lead, a move keeps to the truth just when
  it is orderly.
* `Refreshes.truthful_iff_orderly`: so a whole run is truthful just when all its moves are orderly.
-/

namespace SwitchMib.Snmp
set_option autoImplicit false

/-- A cell with the refreshes under way on it. -/
structure Refreshes (σ : Type) where
  cell : SnapshotCell σ
  /-- The tickets of the open refreshes, the oldest first. -/
  tickets : List RefreshTicket
  /-- Whether a snapshot has been committed. -/
  committed : Bool

/-- What can happen to the refreshes of a cell. An open one is named by its place. -/
inductive Move (σ : Type) where
  | begin
  | commit (place : Nat) (next : σ)
  | giveUp (place : Nat)

namespace Refreshes

variable {σ : Type}

def fresh (initial : σ) : Refreshes σ := ⟨.fresh initial, [], false⟩

/-- One move. Only an open refresh can end. -/
def step (r : Refreshes σ) : Move σ → Option (Refreshes σ)
  | .begin =>
    let (ticket, cell) := r.cell.begin
    some { r with cell, tickets := r.tickets ++ [ticket] }
  | .commit place next =>
    r.tickets[place]?.map fun _ => ⟨r.cell.commit next, r.tickets.eraseIdx place, true⟩
  | .giveUp place =>
    r.tickets[place]?.map fun ticket =>
      { r with cell := r.cell.giveUp ticket, tickets := r.tickets.eraseIdx place }

def run (r : Refreshes σ) (moves : List (Move σ)) : Option (Refreshes σ) := moves.foldlM step r

/-- The state between refreshes. -/
def quiet (r : Refreshes σ) : Lifecycle := if r.committed then .seeded else .uninitialized

/-- The cell reports a refresh just when one is open, and otherwise whether anything has been
committed. -/
def Truthful (r : Refreshes σ) : Prop :=
  r.cell.state = if r.tickets = [] then r.quiet else .refreshing

/-- A commit ends the only open refresh, and the oldest of several is not given up. -/
def Orderly (r : Refreshes σ) : Move σ → Prop
  | .begin => True
  | .commit _ _ => r.tickets.length = 1
  | .giveUp place => place = 0 → r.tickets.length = 1

/-! ## One move -/

/-- The oldest open refresh found the cell quiet, all others found it refreshing. -/
def Stacked (r : Refreshes σ) : Prop :=
  ∀ oldest later, r.tickets = oldest :: later →
    oldest.previous = r.quiet ∧ ∀ ticket ∈ later, ticket.previous = .refreshing

theorem quiet_ne_refreshing (r : Refreshes σ) : r.quiet ≠ .refreshing := by
  rw [quiet]
  split <;> decide

theorem stacked_of_none {r : Refreshes σ} (h : r.tickets = []) : r.Stacked := by
  intro oldest later htickets
  rw [h] at htickets
  cases htickets

theorem step_begin {r r' : Refreshes σ} (hstacked : r.Stacked) (htrue : r.Truthful)
    (h : r.step .begin = some r') : r'.Truthful ∧ r'.Stacked := by
  cases h
  rw [Truthful] at htrue
  constructor
  · simp [Truthful]
  · intro oldest later htickets
    cases hopen : r.tickets with
    | nil =>
      rw [hopen] at htickets htrue
      cases htickets
      exact ⟨htrue, fun ticket hmem => absurd hmem List.not_mem_nil⟩
    | cons first rest =>
      rw [hopen] at htickets htrue
      obtain ⟨rfl, rfl⟩ := List.cons.inj htickets
      obtain ⟨hfirst, hrest⟩ := hstacked first rest hopen
      refine ⟨hfirst, fun ticket hmem => ?_⟩
      rcases List.mem_append.1 hmem with hmem | hmem
      · exact hrest ticket hmem
      · rw [List.mem_singleton.1 hmem]
        exact htrue

theorem step_commit {r r' : Refreshes σ} {place : Nat} {next : σ}
    (h : r.step (.commit place next) = some r') :
    (r'.Truthful ↔ r.tickets.length = 1) ∧ (r.tickets.length = 1 → r'.Stacked) := by
  obtain ⟨ticket, hticket, rfl⟩ := Option.map_eq_some_iff.1 h
  obtain ⟨hplace, -⟩ := List.getElem?_eq_some_iff.1 hticket
  have hlength := List.length_eraseIdx_of_lt hplace
  have hnone : r.tickets.eraseIdx place = [] ↔ r.tickets.length = 1 := by
    rw [← List.length_eq_zero_iff, hlength]
    omega
  constructor
  · rw [Truthful, ← hnone]
    by_cases hleft : r.tickets.eraseIdx place = []
    · simp [hleft, SnapshotCell.commit, quiet]
    · simp [hleft, SnapshotCell.commit]
  · exact fun hone => stacked_of_none (hnone.2 hone)

theorem step_giveUp {r r' : Refreshes σ} {place : Nat} (hstacked : r.Stacked)
    (h : r.step (.giveUp place) = some r') :
    (r'.Truthful ↔ (place = 0 → r.tickets.length = 1)) ∧
      ((place = 0 → r.tickets.length = 1) → r'.Stacked) := by
  obtain ⟨ticket, hticket, rfl⟩ := Option.map_eq_some_iff.1 h
  cases hopen : r.tickets with
  | nil =>
    rw [hopen] at hticket
    cases hticket
  | cons oldest later =>
    obtain ⟨holdest, hlater⟩ := hstacked oldest later hopen
    rw [hopen] at hticket
    cases place with
    | zero =>
      obtain rfl : oldest = ticket := Option.some.inj hticket
      have hquiet : oldest.previous ≠ .refreshing := holdest ▸ r.quiet_ne_refreshing
      cases later with
      | nil =>
        refine ⟨iff_of_true holdest fun _ => rfl, fun _ => stacked_of_none ?_⟩
        simp
      | cons second rest =>
        have hmany : ¬ (0 = 0 → (oldest :: second :: rest).length = 1) := by simp
        refine ⟨iff_of_false ?_ hmany, fun horderly => absurd horderly hmany⟩
        simp [Truthful, SnapshotCell.giveUp, hquiet]
    | succ place =>
      have hmem : ticket ∈ later := List.mem_of_getElem? hticket
      constructor
      · refine iff_of_true ?_ fun hzero => absurd hzero (Nat.succ_ne_zero place)
        simp [Truthful, SnapshotCell.giveUp, hlater ticket hmem]
      · intro _ oldest' later' htickets
        obtain ⟨rfl, rfl⟩ := List.cons.inj htickets
        exact ⟨holdest, fun t ht => hlater t (List.mem_of_mem_eraseIdx ht)⟩

/-- From a truthful cell with stacked tickets a move leads to a truthful one just when it is
orderly, and the tickets stay stacked then. -/
theorem step_truthful_iff {r r' : Refreshes σ} {move : Move σ} (hstacked : r.Stacked)
    (htrue : r.Truthful) (h : r.step move = some r') :
    (r'.Truthful ↔ r.Orderly move) ∧ (r.Orderly move → r'.Stacked) := by
  cases move with
  | begin =>
    obtain ⟨htrue', hstacked'⟩ := step_begin hstacked htrue h
    exact ⟨iff_of_true htrue' trivial, fun _ => hstacked'⟩
  | commit place next => exact step_commit h
  | giveUp place => exact step_giveUp hstacked h

/-! ## Whole runs -/

/-- `Takes r moves t move t'`: in the course of `moves` from `r` on, `move` leads from `t` to
`t'`. -/
def Takes (r : Refreshes σ) (moves : List (Move σ)) (t : Refreshes σ) (move : Move σ)
    (t' : Refreshes σ) : Prop :=
  ∃ before after, moves = before ++ move :: after ∧ r.run before = some t ∧ t.step move = some t'

theorem not_takes_nil {r t t' : Refreshes σ} {move : Move σ} : ¬ Takes r [] t move t' := by
  rintro ⟨before, after, hmoves, -⟩
  cases before <;> cases hmoves

theorem takes_cons {r t t' : Refreshes σ} {first move : Move σ} {moves : List (Move σ)} :
    Takes r (first :: moves) t move t' ↔
      (t = r ∧ move = first ∧ r.step first = some t') ∨
        ∃ next, r.step first = some next ∧ Takes next moves t move t' := by
  constructor
  · rintro ⟨before, after, hmoves, hrun, hstep⟩
    cases before with
    | nil =>
      obtain ⟨rfl, rfl⟩ := List.cons.inj hmoves
      cases hrun
      exact Or.inl ⟨rfl, rfl, hstep⟩
    | cons head before =>
      obtain ⟨rfl, rfl⟩ := List.cons.inj hmoves
      rw [run, List.foldlM_cons, Option.bind_eq_bind, Option.bind_eq_some_iff] at hrun
      obtain ⟨next, hnext, hrest⟩ := hrun
      exact Or.inr ⟨next, hnext, before, after, rfl, hrest, hstep⟩
  · rintro (⟨rfl, rfl, hstep⟩ | ⟨next, hnext, before, after, rfl, hrun, hstep⟩)
    · exact ⟨[], moves, rfl, rfl, hstep⟩
    · refine ⟨first :: before, after, rfl, ?_, hstep⟩
      rw [run, List.foldlM_cons, Option.bind_eq_bind, Option.bind_eq_some_iff]
      exact ⟨next, hnext, hrun⟩

theorem takes_truthful_iff {r : Refreshes σ} (hstacked : r.Stacked) (htrue : r.Truthful)
    (moves : List (Move σ)) :
    (∀ t move t', Takes r moves t move t' → t'.Truthful) ↔
      ∀ t move t', Takes r moves t move t' → t.Orderly move := by
  induction moves generalizing r with
  | nil =>
    refine iff_of_true ?_ ?_ <;> exact fun t move t' h => absurd h not_takes_nil
  | cons first moves ih =>
    cases hstep : r.step first with
    | none =>
      -- the run ends here, nothing is taken
      have hnone : ∀ t move t', ¬ Takes r (first :: moves) t move t' := by
        intro t move t' h
        rw [takes_cons, hstep] at h
        rcases h with ⟨-, -, h⟩ | ⟨_, h, -⟩ <;> cases h
      refine iff_of_true ?_ ?_ <;> exact fun t move t' h => absurd h (hnone t move t')
    | some next =>
      obtain ⟨hiff, hkeeps⟩ := step_truthful_iff hstacked htrue hstep
      have hfirst : Takes r (first :: moves) r first next := takes_cons.2 (Or.inl ⟨rfl, rfl, hstep⟩)
      have hlater : ∀ {t move t'}, Takes next moves t move t' →
          Takes r (first :: moves) t move t' :=
        fun h => takes_cons.2 (Or.inr ⟨next, hstep, h⟩)
      constructor
      · intro htruthful
        have hnext : next.Truthful := htruthful r first next hfirst
        have hrest := (ih (hkeeps (hiff.1 hnext)) hnext).1
          fun t move t' h => htruthful t move t' (hlater h)
        intro t move t' h
        rcases takes_cons.1 h with ⟨rfl, rfl, -⟩ | ⟨mid, hmid, h⟩
        · exact hiff.1 hnext
        · obtain rfl : next = mid := Option.some.inj (hstep.symm.trans hmid)
          exact hrest t move t' h
      · intro horderly
        have hfine : r.Orderly first := horderly r first next hfirst
        have hrest := (ih (hkeeps hfine) (hiff.2 hfine)).2
          fun t move t' h => horderly t move t' (hlater h)
        intro t move t' h
        rcases takes_cons.1 h with ⟨rfl, rfl, h⟩ | ⟨mid, hmid, h⟩
        · obtain rfl : next = t' := Option.some.inj (hstep.symm.trans h)
          exact hiff.2 hfine
        · obtain rfl : next = mid := Option.some.inj (hstep.symm.trans hmid)
          exact hrest t move t' h

/-- From its making on, a cell reports the truth after every move just when every commit ends the
only open refresh and the oldest of several refreshes is never given up. -/
theorem truthful_iff_orderly (initial : σ) (moves : List (Move σ)) :
    (∀ t move t', Takes (fresh initial) moves t move t' → t'.Truthful) ↔
      ∀ t move t', Takes (fresh initial) moves t move t' → t.Orderly move := by
  have hstacked : (fresh initial).Stacked := stacked_of_none rfl
  have htrue : (fresh initial).Truthful := rfl
  exact takes_truthful_iff hstacked htrue moves

/-- Refreshes that overlap can leave a cell that denies its commit, and one that reports a refresh
where none is open. -/
theorem not_truthful_of_overlap :
    (fresh 0).run [.begin, .begin, .commit 1 5, .giveUp 0] =
        some ⟨⟨5, .uninitialized⟩, [], true⟩ ∧
      (fresh 0).run [.begin, .begin, .giveUp 0, .giveUp 0] =
        some ⟨⟨0, .refreshing⟩, [], false⟩ ∧
      ¬ ∀ (moves : List (Move Nat)) (t : Refreshes Nat),
        (fresh 0).run moves = some t → t.Truthful := by
  refine ⟨rfl, rfl, fun hall => ?_⟩
  have htrue := hall [.begin, .begin, .commit 1 5, .giveUp 0] _ rfl
  cases htrue

end Refreshes

end SwitchMib.Snmp
