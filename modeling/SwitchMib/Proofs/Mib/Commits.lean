import SwitchMib.Proofs.Mib.Session

/-!
# What a turn leaves alone

Only a refresh that succeeds commits anything. Until the next one does, a table answers from what
that one refresh read by the identity that the table then had. An operation that fails changes
nothing but the memory of complaints, which decides what is told and nothing else.

* `Updater.unwarned`, `Updater.unread`: a table without its memory of complaints, and without its
  snapshot as well.
* `Session.Commits`, `Session.Quiet`: a refresh that succeeds, and turns among which there is none.
* `Session.answersAs_of_quiet`: what a table answers after quiet turns.
* `Session.Alike`: sessions that differ in the memory of complaints only.
* `Session.answersAs_of_failed`: an operation that fails can be left out.
-/

namespace SwitchMib
set_option autoImplicit false

/-! ## One refresh of a cell -/

namespace Snmp.SnapshotCell

variable {σ ε : Type} (cell : SnapshotCell σ) {built : Except ε σ}

theorem refresh_of_failed {e : ε} (h : built.map (fun _ => ()) = .error e) :
    cell.refresh built = cell := by
  cases built with
  | ok next => cases h
  | error _ => rfl

theorem refresh_of_done (h : built.map (fun _ => ()) = .ok ())
    (other : SnapshotCell σ) : cell.refresh built = other.refresh built := by
  cases built with
  | ok next => rfl
  | error _ => cases h

theorem state_refresh (h : built.map (fun _ => ()) = .ok ()) :
    (cell.refresh built).state = .seeded := by
  cases built with
  | ok next => rfl
  | error _ => cases h

end Snmp.SnapshotCell

namespace Mib

open Identity Snmp

/-! ## One reinit of a table -/

theorem Attempt.eq_error_of_table {υ ι : Type} {a : Attempt υ} {loaded : Except AgentError ι}
    {f : ι → υ} {e : AgentError} (htable : a.table = loaded.map f) (h : a.outcome = .error e) :
    loaded = .error e := by
  rw [table, h] at htable
  cases loaded with
  | error e' => exact congrArg Except.error (Except.error.inj htable).symm
  | ok identity => cases htable

theorem Attempt.map_eq_of_table {υ ω : Type} {a b : Attempt υ} {g : υ → ω}
    (htable : a.table.map g = b.table.map g)
    (hfailed : ∀ e, a.outcome = .error e → b.outcome = .error e → g a.after = g b.after) :
    a.map g = b.map g := by
  obtain ⟨outcome, after⟩ := a
  obtain ⟨outcome', after'⟩ := b
  cases outcome with
  | ok _ =>
    cases outcome' with
    | ok _ => exact congrArg (Attempt.mk (.ok ())) (Except.ok.inj htable)
    | error e' => cases htable
  | error e =>
    cases outcome' with
    | ok _ => cases htable
    | error e' =>
      obtain rfl : e = e' := Except.error.inj htable
      exact congrArg (Attempt.mk (.error e)) (hfailed e rfl rfl)

section Reinit

variable {out : Outside} {e : AgentError}

theorem Interfaces.reinit_of_failed {t : Interfaces}
    (h : (InterfaceMaps.load out.namespaces).outcome = .error e) :
    (reinit out t).value = .failed e t := by
  rw [Load.outcome] at h
  rw [reinit, Logged.value_bind, h]
  rfl

theorem Sensors.reinit_of_failed {t : Sensors}
    (h : (PortMaps.loadAll out.namespaces).outcome = .error e) :
    (reinit out t).value = .failed e t := by
  rw [Load.outcome] at h
  rw [reinit, Logged.value_bind, h]
  rfl

theorem QueueStats.reinit_of_failed {t : QueueStats}
    (h : (QueueMaps.loadAll out.namespaces).outcome = .error e) :
    (reinit out t).value = .failed e t := by
  rw [Load.outcome] at h
  rw [reinit, Logged.value_bind, h]
  rfl

theorem Forwarding.reinit_of_failed {t : Forwarding}
    (h : (ForwardingMaps.load out.namespaces t.bridgePortsWarned).value.1 = .error e) :
    ∃ told, (reinit out t).value = .failed e { t with bridgePortsWarned := told } := by
  rw [reinit, Logged.value_bind]
  generalize (ForwardingMaps.load out.namespaces t.bridgePortsWarned).value = read at h ⊢
  obtain ⟨loaded, told⟩ := read
  obtain rfl : loaded = .error e := h
  exact ⟨told, rfl⟩

end Reinit

/-! ## What an operation depends on -/

namespace Updater

/-- The table with its complaints forgotten. -/
def unwarned : Updater → Updater
  | .interfaces t => .interfaces { t with warned := .fresh }
  | .forwarding t => .forwarding { t with warned := .fresh, bridgePortsWarned := .fresh }
  | .queueStats t => .queueStats { t with warned := .fresh }
  | .overlay t => .overlay { t with warned := .fresh }
  | u => u

/-- The table with its snapshot and its complaints forgotten. -/
def unread : Updater → Updater
  | .interfaces t => .interfaces ⟨t.identity, .fresh .empty, .fresh⟩
  | .neighbours _ => .neighbours ⟨.fresh .empty⟩
  | .forwarding t => .forwarding ⟨t.identity, .fresh .empty, .fresh, .fresh⟩
  | .routes _ => .routes ⟨.fresh .empty⟩
  | .sensors t => .sensors ⟨t.ports, .fresh .empty⟩
  | .queueStats t => .queueStats ⟨t.queues, .fresh .empty, .fresh⟩
  | .power t => .power ⟨t.origin, .fresh []⟩
  | .overlay t => .overlay ⟨t.top, .fresh .empty, .fresh⟩

theorem committed_unwarned (u : Updater) : u.unwarned.committed = u.committed := by
  cases u <;> rfl

theorem unwarned_unwarned (u : Updater) : u.unwarned.unwarned = u.unwarned := by
  cases u <;> rfl

theorem answersAs_of_unwarned {u v : Updater} (h : u.unwarned = v.unwarned) : AnswersAs u v := by
  apply answersAs_of_committed
  rw [← committed_unwarned u, ← committed_unwarned v, h]

theorem unwarned_noteRead (sub : SubId) (u : Updater) :
    (u.noteRead sub).value.unwarned = u.unwarned := by
  cases u <;> rfl

variable (out : Outside)

/-! ## Refreshes -/

theorem refresh_unwarned (u : Updater) :
    (u.unwarned.refresh out).value.map unwarned = (u.refresh out).value.map unwarned := by
  cases u with
  | forwarding t =>
    have hrows := (rows_readForwarding out.namespaces t.identity t.warned).symm
    exact congrArg (fun rows => Attempt.done (forwarding ⟨t.identity, ⟨rows, .seeded⟩, .fresh,
      .fresh⟩)) hrows
  | queueStats t =>
    have houtcome := (t.outcome_refresh out).symm
    have hcell := (t.cell_refresh out).symm
    rw [← QueueStats.outcome_refresh out { t with warned := .fresh }] at houtcome
    rw [← QueueStats.cell_refresh out { t with warned := .fresh }] at hcell
    exact congrArg₂ (fun outcome cell => Attempt.mk outcome
      (queueStats ⟨t.queues, cell, .fresh⟩)) houtcome hcell
  | _ => rfl

theorem unwarned_refresh_of_failed {u : Updater} {e : Failure}
    (h : (u.refresh out).value.outcome = .error e) :
    (u.refresh out).value.after.unwarned = u.unwarned := by
  cases u with
  | neighbours t =>
    obtain ⟨cause, hfailed, -⟩ := mapError_eq_error_iff.1 h
    have hcell := t.cell.refresh_of_failed hfailed
    exact congrArg (fun cell => neighbours ⟨cell⟩) hcell
  | queueStats t =>
    have hcell : (t.refresh out).value.after.cell = t.cell :=
      (t.cell_refresh out).trans
        (t.cell.refresh_of_failed ((t.outcome_refresh out).symm.trans h))
    exact congrArg (fun cell => queueStats ⟨t.queues, cell, .fresh⟩) hcell
  | overlay t =>
    obtain ⟨cause, hfailed, -⟩ := mapError_eq_error_iff.1 h
    have hcell : (t.refresh out).value.after.cell = t.cell :=
      (t.cell_refresh out).trans (t.cell.refresh_of_failed hfailed)
    exact congrArg (fun cell => overlay ⟨t.top, cell, .fresh⟩) hcell
  | _ => cases h

/-- What a refresh commits depends on the world and on the identity of the table. -/
theorem committed_refresh_of_done {u : Updater} (h : (u.refresh out).value.outcome = .ok ()) :
    (u.refresh out).value.after.committed = (u.unread.refresh out).value.after.committed := by
  cases u with
  | neighbours t =>
    have hcell := t.cell.refresh_of_done (mapError_eq_ok_iff.1 h) (.fresh .empty)
    exact congrArg (fun cell => neighbours ⟨cell⟩) hcell
  | forwarding t =>
    have hrows := rows_readForwarding out.namespaces t.identity t.warned
    exact congrArg (fun rows => forwarding ⟨.empty, ⟨rows, .seeded⟩, .fresh, .fresh⟩) hrows
  | queueStats t =>
    have hdone := (t.outcome_refresh out).symm.trans h
    have hcell := (t.cell_refresh out).trans (t.cell.refresh_of_done hdone (.fresh .empty))
    have honce := QueueStats.cell_refresh out ⟨t.queues, .fresh .empty, .fresh⟩
    exact congrArg (fun cell => queueStats ⟨.empty, cell, .fresh⟩) (hcell.trans honce.symm)
  | overlay t =>
    have hcell := (t.cell_refresh out).trans
      (t.cell.refresh_of_done (mapError_eq_ok_iff.1 h) (.fresh .empty))
    exact congrArg (fun cell => overlay ⟨Oid.root, cell, .fresh⟩) hcell
  | _ => rfl

theorem state_refresh_of_done {u : Updater} (h : (u.refresh out).value.outcome = .ok ()) :
    (u.refresh out).value.after.state = .seeded := by
  cases u with
  | neighbours t => exact t.cell.state_refresh (mapError_eq_ok_iff.1 h)
  | queueStats t =>
    have hcell := congrArg SnapshotCell.state (t.cell_refresh out)
    exact hcell.trans (t.cell.state_refresh ((t.outcome_refresh out).symm.trans h))
  | overlay t =>
    have hcell := congrArg SnapshotCell.state (t.cell_refresh out)
    exact hcell.trans (t.cell.state_refresh (mapError_eq_ok_iff.1 h))
  | _ => rfl

/-! ## Reinits -/

theorem unwarned_reinit_of_failed {u : Updater} {e : AgentError}
    (h : (u.reinit out).value.outcome = .error e) :
    (u.reinit out).value.after.unwarned = u.unwarned := by
  cases u with
  | interfaces t =>
    have hload := Attempt.eq_error_of_table (t.table_reinit out) h
    show (interfaces (t.reinit out).value.after).unwarned = _
    rw [Interfaces.reinit_of_failed hload]
    rfl
  | forwarding t =>
    have hload := Attempt.eq_error_of_table (t.table_reinit out) h
    obtain ⟨told, hafter⟩ := Forwarding.reinit_of_failed hload
    show (forwarding (t.reinit out).value.after).unwarned = _
    rw [hafter]
    rfl
  | sensors t =>
    have hload := Attempt.eq_error_of_table (t.table_reinit out) h
    show (sensors (t.reinit out).value.after).unwarned = _
    rw [Sensors.reinit_of_failed hload]
    rfl
  | queueStats t =>
    have hload := Attempt.eq_error_of_table (t.table_reinit out) h
    show (queueStats (t.reinit out).value.after).unwarned = _
    rw [QueueStats.reinit_of_failed hload]
    rfl
  | _ => cases h

/-- What a reinit comes to does not depend on what was told before. -/
theorem reinit_unwarned (u : Updater) :
    (u.unwarned.reinit out).value.map unwarned = (u.reinit out).value.map unwarned := by
  refine Attempt.map_eq_of_table ?_ fun e h h' => ?_
  · cases u with
    | interfaces t =>
      change ((Interfaces.reinit out _).value.map interfaces).table.map unwarned =
        ((t.reinit out).value.map interfaces).table.map unwarned
      rw [Attempt.table_map, Attempt.table_map, Interfaces.table_reinit, Interfaces.table_reinit]
      cases (InterfaceMaps.load out.namespaces).outcome <;> rfl
    | forwarding t =>
      change ((Forwarding.reinit out _).value.map forwarding).table.map unwarned =
        ((t.reinit out).value.map forwarding).table.map unwarned
      rw [Attempt.table_map, Attempt.table_map, Forwarding.table_reinit, Forwarding.table_reinit]
      simp only
      rw [ForwardingMaps.load_value _ t.bridgePortsWarned]
      cases (ForwardingMaps.load out.namespaces .fresh).value.1 <;> rfl
    | sensors t => rfl
    | queueStats t =>
      change ((QueueStats.reinit out _).value.map queueStats).table.map unwarned =
        ((t.reinit out).value.map queueStats).table.map unwarned
      rw [Attempt.table_map, Attempt.table_map, QueueStats.table_reinit, QueueStats.table_reinit]
      cases (QueueMaps.loadAll out.namespaces).outcome <;> rfl
    | _ => rfl
  · rw [unwarned_reinit_of_failed out h, unwarned_reinit_of_failed out h', unwarned_unwarned]

end Updater

namespace Session

/-! ## Turns that commit nothing -/

/-- What an operation comes to. -/
def outcome (s : Session) : Turn → Option (Except Failure Unit)
  | .refresh => some (s.table.refresh s.world).value.outcome
  | .reinit => some ((s.table.reinit s.world).value.outcome.mapError .error)
  | _ => none

/-- The turn is a refresh that succeeds. -/
def Commits (s : Session) (turn : Turn) : Prop := turn = .refresh ∧ s.outcome turn = some (.ok ())

/-- No turn is a refresh that succeeds. -/
def Quiet : Session → List Turn → Prop
  | _, [] => True
  | s, turn :: later => ¬ s.Commits turn ∧ (s.step turn).Quiet later

theorem committed_step {s : Session} {turn : Turn} (h : ¬ s.Commits turn) :
    (s.step turn).table.committed = s.table.committed := by
  cases turn with
  | change out => rfl
  | refresh =>
    cases houtcome : (s.table.refresh s.world).value.outcome with
    | ok _ => exact absurd ⟨rfl, congrArg some houtcome⟩ h
    | error e =>
      have hsame := Updater.unwarned_refresh_of_failed s.world houtcome
      rw [← Updater.committed_unwarned, step, hsame, Updater.committed_unwarned]
  | reinit => exact s.table.committed_reinit s.world
  | query sub => exact s.table.committed_noteRead sub

theorem committed_run {s : Session} {turns : List Turn} (h : s.Quiet turns) :
    (s.run turns).table.committed = s.table.committed := by
  induction turns generalizing s with
  | nil => rfl
  | cons turn turns ih =>
    obtain ⟨hturn, hlater⟩ := h
    exact (ih hlater).trans (committed_step hturn)

/-- As long as no refresh succeeds, no answer changes, whatever else happens. After a refresh that
succeeds a table answers as one that has its identity and was refreshed just once, in the world of
that refresh. For interfaces, that is from the one snapshot read by that identity. -/
theorem answersAs_of_quiet (s : Session) (later : List Turn) :
    (s.Quiet later → AnswersAs (s.run later).table s.table) ∧
    (s.Commits .refresh → (s.step .refresh).Quiet later →
      AnswersAs (s.run (.refresh :: later)).table (s.table.unread.refresh s.world).value.after ∧
      ∀ t, s.table = .interfaces t →
        let snap := (InterfaceSnapshot.read s.world.namespaces t.identity).value
        snap.identity = t.identity ∧ ∀ sub,
          (s.run (.refresh :: later)).table.valueAt sub = snap.valueAt sub ∧
          (s.run (.refresh :: later)).table.next sub = snap.next sub) := by
  refine ⟨fun hquiet => Updater.answersAs_of_committed (committed_run hquiet), ?_⟩
  rintro ⟨-, hdone⟩ hquiet
  have hlater : (s.run (.refresh :: later)).table.committed =
      (s.step .refresh).table.committed := committed_run hquiet
  have honce := Updater.committed_refresh_of_done s.world (Option.some.inj hdone)
  have hanswers : AnswersAs (s.run (.refresh :: later)).table
      (s.table.unread.refresh s.world).value.after :=
    Updater.answersAs_of_committed (hlater.trans honce)
  refine ⟨hanswers, fun t ht => ⟨rfl, fun sub => ?_⟩⟩
  rw [hanswers.valueAt, hanswers.next, ht]
  exact ⟨rfl, rfl⟩

/-- After the port has got another name, a reinit has noticed and a cell has been read, its row
still stands where it was when it was read; the next refresh moves it. -/
theorem answersAs_of_renamed_port_noticed :
    let s := start .interfaces (worldOfPort "Ethernet0")
    let later := [.change (worldOfPort "Ethernet4"), .reinit, .query [2, 1, 10, 1]]
    s.Commits .refresh ∧ (s.step .refresh).Quiet later ∧
      AnswersAs ((s.step .refresh).run later).table (s.step .refresh).table ∧
      AnswersAs (s.run (.refresh :: later)).table (s.table.unread.refresh s.world).value.after ∧
      (s.run (.refresh :: later)).table.next [2, 1] = some [2, 1, 1, 1] ∧
      (s.run (.refresh :: later ++ [.refresh])).table.next [2, 1] = some [2, 1, 1, 5] := by
  intro s later
  obtain ⟨⟨⟩, hdone⟩ : ∃ done, (s.table.refresh s.world).value.outcome = .ok done :=
    exists_eq_ok_of_isOk (by decide +kernel)
  have hcommits : s.Commits .refresh := ⟨rfl, congrArg some hdone⟩
  have hquiet : (s.step .refresh).Quiet later := by
    refine ⟨?_, ?_, ?_, trivial⟩ <;>
      · rintro ⟨hrefresh, -⟩
        cases hrefresh
  exact ⟨hcommits, hquiet, (answersAs_of_quiet (s.step .refresh) later).1 hquiet,
    ((answersAs_of_quiet s later).2 hcommits hquiet).1, by decide +kernel, by decide +kernel⟩

/-! ## Operations that fail -/

/-- Sessions that differ in the memory of complaints only. -/
structure Alike (s s' : Session) : Prop where
  world : s.world = s'.world
  table : s.table.unwarned = s'.table.unwarned

section Alike

variable {s s' : Session}

theorem Alike.refresh (h : s.Alike s') :
    (s.table.refresh s.world).value.map Updater.unwarned =
      (s'.table.refresh s'.world).value.map Updater.unwarned := by
  rw [← Updater.refresh_unwarned, h.table, h.world, Updater.refresh_unwarned]

theorem Alike.reinit (h : s.Alike s') :
    (s.table.reinit s.world).value.map Updater.unwarned =
      (s'.table.reinit s'.world).value.map Updater.unwarned := by
  rw [← Updater.reinit_unwarned, h.table, h.world, Updater.reinit_unwarned]

theorem Alike.outcome_eq (h : s.Alike s') (turn : Turn) : s.outcome turn = s'.outcome turn := by
  cases turn with
  | refresh =>
    have hsame := congrArg Attempt.outcome h.refresh
    exact congrArg some hsame
  | reinit =>
    have hsame := congrArg (fun a => a.lift.outcome) h.reinit
    exact congrArg some hsame
  | _ => rfl

theorem Alike.step (h : s.Alike s') (turn : Turn) : (s.step turn).Alike (s'.step turn) := by
  cases turn with
  | change out => exact ⟨rfl, h.table⟩
  | refresh => exact ⟨h.world, congrArg Attempt.after h.refresh⟩
  | reinit => exact ⟨h.world, congrArg Attempt.after h.reinit⟩
  | query sub =>
    have hread : ∀ u : Updater, (u.noteRead sub).value.unwarned = u.unwarned :=
      Updater.unwarned_noteRead sub
    exact ⟨h.world, (hread _).trans (h.table.trans (hread _).symm)⟩

theorem Alike.run (h : s.Alike s') (turns : List Turn) : (s.run turns).Alike (s'.run turns) := by
  induction turns generalizing s s' with
  | nil => exact h
  | cons turn turns ih => exact ih (h.step turn)

theorem alike_step_of_failed {op : Turn} {e : Failure} (h : s.outcome op = some (.error e)) :
    (s.step op).Alike s := by
  cases op with
  | refresh => exact ⟨rfl, Updater.unwarned_refresh_of_failed s.world (Option.some.inj h)⟩
  | reinit =>
    obtain ⟨cause, hfailed, -⟩ := mapError_eq_error_iff.1 (Option.some.inj h)
    exact ⟨rfl, Updater.unwarned_reinit_of_failed s.world hfailed⟩
  | _ => cases h

end Alike

/-- A table has committed something from its building on. -/
theorem state_run {s : Session} {b : Blueprint} (hs : s.Opened b) (turns : List Turn) :
    (s.run turns).table.state = .seeded := by
  refine run_induction (P := fun u => u.state = .seeded) ?_ ?_ ?_ ?_ turns
  · intro out u hu
    cases houtcome : (u.refresh out).value.outcome with
    | ok _ => exact Updater.state_refresh_of_done out houtcome
    | error e =>
      have hsame := Updater.unwarned_refresh_of_failed out houtcome
      exact (Updater.answersAs_of_unwarned hsame).state.trans hu
  · intro out u hu
    exact (Updater.answersAs_of_committed (u.committed_reinit out)).state.trans hu
  · intro sub u hu
    exact (Updater.answersAs_of_committed (u.committed_noteRead sub)).state.trans hu
  · rw [Opened, Blueprint.outcome_build] at hs
    obtain ⟨-, hdone, hafter⟩ := (Updater.renew_eq_ok_iff s.world).1 hs
    rw [← hafter]
    exact Updater.state_refresh_of_done s.world hdone

/-- A refresh or reinit that fails or overflows leaves snapshot, state and identity as they were,
and whatever comes after it comes out as if it had not been called. -/
theorem answersAs_of_failed {s : Session} {b : Blueprint} (hs : s.Opened b) {turns : List Turn}
    {op : Turn} {e : Failure} (h : (s.run turns).outcome op = some (.error e))
    (later : List Turn) :
    let t := s.run turns
    t.table.state = .seeded ∧ (t.step op).table.state = .seeded ∧
      (t.step op).table.unwarned = t.table.unwarned ∧
      AnswersAs (s.run (turns ++ op :: later)).table (s.run (turns ++ later)).table ∧
      ∀ turn, (s.run (turns ++ op :: later)).outcome turn =
        (s.run (turns ++ later)).outcome turn := by
  intro t
  have hfailed : (t.step op).Alike t := alike_step_of_failed h
  have hseeded : t.table.state = .seeded := state_run hs turns
  have hstate := (Updater.answersAs_of_unwarned hfailed.table).state
  have hlater : (s.run (turns ++ op :: later)).Alike (s.run (turns ++ later)) := by
    rw [run_append, run_append]
    exact hfailed.run later
  exact ⟨hseeded, hstate.trans hseeded, hfailed.table, Updater.answersAs_of_unwarned hlater.table,
    hlater.outcome_eq⟩

/-- A reinit in a world that cannot be reached fails. The table is built on and renewed later as if
nothing had happened. -/
theorem answersAs_of_unreachable :
    let s := start .interfaces (worldOfPort "Ethernet0")
    let unreachable : Outside :=
      { s.world with namespaces := ⟨s.world.namespaces.host.setReachable false, []⟩ }
    let later := [.change (worldOfPort "Ethernet4"), .reinit, .refresh]
    ∃ e, s.Opened .interfaces ∧ (s.run [.change unreachable]).outcome .reinit = some (.error e) ∧
      AnswersAs (s.run ([.change unreachable] ++ .reinit :: later)).table
        (s.run ([.change unreachable] ++ later)).table ∧
      (s.run ([.change unreachable] ++ .reinit :: later)).table.next [2, 1] =
        some [2, 1, 1, 5] := by
  intro s unreachable later
  have hs : s.Opened .interfaces := opened_start (by decide +kernel)
  let t := s.run [.change unreachable]
  have hfails : (t.table.reinit t.world).value.outcome.isOk = false := by decide +kernel
  cases houtcome : (t.table.reinit t.world).value.outcome with
  | ok _ =>
    rw [houtcome] at hfails
    cases hfails
  | error e =>
    have h : t.outcome .reinit = some (.error (.error e)) :=
      congrArg some (mapError_eq_error_iff.2 ⟨e, houtcome, rfl⟩)
    exact ⟨.error e, hs, h, (answersAs_of_failed hs h later).2.2.2.1, by decide +kernel⟩

end Session

end Mib

end SwitchMib
