import SwitchMib.Mib.Updater
import SwitchMib.Proofs.Mib.ForwardingReads
import SwitchMib.Proofs.Mib.QueueReads

/-!
# Renewing a table

A reinit followed by a refresh reads everything again. What a table answers afterwards depends on
the outside world alone, and not on what the table was before: to build a table is to renew one
that has never seen anything.

* `Upkeep.renew`: a reinit and then a refresh, both of which have to succeed.
* `Interfaces.cell_renew` and its like: what a renewed table has committed.
* `Blueprint.outcome_build`: building is renewing the blank table.
* `AnswersAs`: tables that no query tells apart.
* `Updater.committed_renew`: renewed and built tables have committed the same.
-/

namespace SwitchMib.Mib
set_option autoImplicit false

open Identity Snmp

/-! ## Renewal -/

/-- A reinit and then a refresh, both of which have to succeed. -/
def Upkeep.renew {υ ε : Type} (ops : Upkeep υ ε) (u : υ) : Except ε υ := do
  let u ← (ops.reinit u).value.table
  (ops.refresh u).value.table

theorem Upkeep.renew_eq_ok_iff {υ ε : Type} {ops : Upkeep υ ε} {u w : υ} :
    ops.renew u = .ok w ↔
      ∃ v, (ops.reinit u).value.table = .ok v ∧ (ops.refresh v).value.table = .ok w := by
  rw [renew]
  cases (ops.reinit u).value.table with
  | error e =>
    constructor
    · intro h
      cases h
    · rintro ⟨_, hv, _⟩
      cases hv
  | ok v =>
    constructor
    · exact fun h => ⟨v, rfl, h⟩
    · rintro ⟨_, hv, h⟩
      cases hv
      exact h

theorem Upkeep.renew_lift {υ : Type} (ops : Upkeep υ) (u : υ) :
    ops.lift.renew u = (ops.renew u).mapError Failure.error := by
  have hreinit : (ops.lift.reinit u).value.table =
      (ops.reinit u).value.table.mapError Failure.error := Attempt.table_lift _
  have hrefresh : ∀ v, (ops.lift.refresh v).value.table =
      (ops.refresh v).value.table.mapError Failure.error := fun v => Attempt.table_lift _
  rw [renew, renew, hreinit]
  cases (ops.reinit u).value.table with
  | error e => rfl
  | ok v => exact hrefresh v

theorem Upkeep.renew_map {υ ω ε : Type} {ops : Upkeep υ ε} {whole : Upkeep ω ε} {f : υ → ω}
    (hreinit : ∀ u, (whole.reinit (f u)).value = (ops.reinit u).value.map f)
    (hrefresh : ∀ u, (whole.refresh (f u)).value = (ops.refresh u).value.map f) (u : υ) :
    whole.renew (f u) = (ops.renew u).map f := by
  rw [renew, renew, hreinit, Attempt.table_map]
  cases (ops.reinit u).value.table with
  | error e => rfl
  | ok v =>
    show (whole.refresh (f v)).value.table = ((ops.refresh v).value.table).map f
    rw [hrefresh, Attempt.table_map]

/-! ## Tables without an identity -/

variable (out : Outside)

theorem Neighbours.cell_renew (t : Neighbours) :
    (Upkeep.renew ⟨reinit out, refresh out⟩ t).map (·.cell) =
      ((out.neighbours.mapError AgentError.file).map rowsOf).map fun rows => ⟨rows, .seeded⟩ := by
  show ((refresh out t).value.table).map _ = _
  rw [refresh, Logged.value_pure]
  cases out.neighbours <;> rfl

theorem Routes.cell_renew (t : Routes) :
    (Upkeep.renew ⟨reinit out, refresh out⟩ t).map (·.cell) =
      .ok ⟨(out.namespaces.members.foldlM addHops Dict.empty).value, .seeded⟩ := rfl

theorem Power.cell_renew (t : Power) :
    (Upkeep.renew ⟨reinit out, refresh out⟩ t).map (·.cell) =
      .ok ⟨(pollAll (t.origin.source out)).value, .seeded⟩ := rfl

theorem Overlay.cell_refresh (t : Overlay) :
    (refresh out t).value.after.cell =
      t.cell.refresh (((readOverlay out.namespaces.host t.top).2.mapError AgentError.store).map
        fun _ => (readOverlay out.namespaces.host t.top).1.rows) := by
  rw [refresh]
  rcases readOverlay out.namespaces.host t.top with ⟨found, done⟩
  rfl

theorem Overlay.cell_renew (t : Overlay) :
    (Upkeep.renew ⟨reinit out, refresh out⟩ t).map (·.cell) =
      ((readOverlay out.namespaces.host t.top).2.mapError AgentError.store).map fun _ =>
        ⟨(readOverlay out.namespaces.host t.top).1.rows, .seeded⟩ := by
  show ((refresh out t).value.table).map _ = _
  rw [refresh]
  rcases readOverlay out.namespaces.host t.top with ⟨found, done⟩
  cases done <;> rfl

/-! ## Tables with an identity

A reinit loads the identity again and hands the cell on, whether the load fails, finds another
identity or finds the same. -/

theorem Sensors.table_reinit (t : Sensors) :
    (reinit out t).value.table =
      (PortMaps.loadAll out.namespaces).outcome.map fun ports => { t with ports } := by
  rw [reinit, Load.outcome, Logged.value_bind]
  cases (PortMaps.loadAll out.namespaces).run.value <;> rfl

theorem Sensors.cell_reinit (t : Sensors) : (reinit out t).value.after.cell = t.cell := by
  rw [reinit, Logged.value_bind]
  cases (PortMaps.loadAll out.namespaces).run.value <;> rfl

theorem Sensors.cell_renew (t : Sensors) :
    (Upkeep.renew ⟨reinit out, refresh out⟩ t).map (·.cell) =
      (PortMaps.loadAll out.namespaces).outcome.map fun ports =>
        ⟨(readSensors SensorKind.encode out.namespaces ports).value, .seeded⟩ := by
  simp only [Upkeep.renew, table_reinit]
  cases (PortMaps.loadAll out.namespaces).outcome <;> rfl

theorem QueueStats.table_reinit (t : QueueStats) :
    (reinit out t).value.table = (QueueMaps.loadAll out.namespaces).outcome.map fun queues =>
      { t with queues, warned := if queues = t.queues then t.warned else .fresh } := by
  rw [reinit, Load.outcome, Logged.value_bind]
  cases (QueueMaps.loadAll out.namespaces).run.value with
  | error e => rfl
  | ok queues =>
    by_cases h : queues = t.queues
    · subst h
      simp [Except.map]
    · simp [Except.map, h]

theorem QueueStats.cell_reinit (t : QueueStats) :
    (reinit out t).value.after.cell = t.cell := by
  rw [reinit, Logged.value_bind]
  cases (QueueMaps.loadAll out.namespaces).run.value with
  | error e => rfl
  | ok queues =>
    simp only
    split <;> rfl

/-- How the queue statistics follow a world. Their refresh may overflow. -/
def QueueStats.upkeep : Upkeep QueueStats Failure where
  reinit t := Attempt.lift <$> reinit out t
  refresh := refresh out

/-- What a refresh commits for given queues, if none of their counters overflows. -/
def QueueStats.built (queues : QueueMaps) : Except Failure (SubIdIndex UInt64) :=
  let read := (readQueues out.namespaces queues .fresh).value
  read.outcome.map fun _ => read.after.rows

theorem QueueStats.outcome_refresh (t : QueueStats) :
    (refresh out t).value.outcome = (built out t.queues).map fun _ => () := by
  rw [built, ← outcome_readQueues _ _ t.warned, refresh, Logged.value_bind, Logged.value_pure]
  cases (readQueues out.namespaces t.queues t.warned).value.outcome <;> rfl

theorem QueueStats.cell_refresh (t : QueueStats) :
    (refresh out t).value.after.cell = t.cell.refresh (built out t.queues) := by
  rw [built, ← outcome_readQueues _ _ t.warned, ← rows_readQueues _ _ t.warned, refresh,
    Logged.value_bind, Logged.value_pure]

theorem QueueStats.cell_renew (t : QueueStats) : ((upkeep out).renew t).map (·.cell) =
    (QueueMaps.loadAll out.namespaces).outcome.mapError Failure.error >>= fun queues =>
      (built out queues).map (⟨·, .seeded⟩) := by
  have hreinit : ((upkeep out).reinit t).value.table =
      (reinit out t).value.table.mapError Failure.error := Attempt.table_lift _
  rw [Upkeep.renew, hreinit, table_reinit]
  cases (QueueMaps.loadAll out.namespaces).outcome with
  | error e => rfl
  | ok queues =>
    have hcell := cell_refresh out
      { t with queues, warned := if queues = t.queues then t.warned else .fresh }
    show ((refresh out _).value.table).map _ = (built out queues).map _
    rw [Attempt.table, outcome_refresh]
    cases hbuilt : built out queues with
    | error e => rfl
    | ok rows =>
      rw [hbuilt] at hcell
      exact congrArg Except.ok hcell

theorem Interfaces.table_reinit (t : Interfaces) :
    (reinit out t).value.table = (InterfaceMaps.load out.namespaces).outcome.map fun identity =>
      { t with identity, warned := if identity = t.identity then t.warned else .fresh } := by
  rw [reinit, Load.outcome, Logged.value_bind]
  cases (InterfaceMaps.load out.namespaces).run.value with
  | error e => rfl
  | ok identity =>
    by_cases h : identity = t.identity
    · subst h
      simp [Except.map]
    · simp [Except.map, h]

theorem Interfaces.cell_reinit (t : Interfaces) :
    (reinit out t).value.after.cell = t.cell := by
  rw [reinit, Logged.value_bind]
  cases (InterfaceMaps.load out.namespaces).run.value with
  | error e => rfl
  | ok identity =>
    simp only
    split <;> rfl

theorem Interfaces.cell_renew (t : Interfaces) :
    (Upkeep.renew ⟨reinit out, refresh out⟩ t).map (·.cell) =
      (InterfaceMaps.load out.namespaces).outcome.map fun identity =>
        ⟨(InterfaceSnapshot.read out.namespaces identity).value, .seeded⟩ := by
  simp only [Upkeep.renew, table_reinit]
  cases (InterfaceMaps.load out.namespaces).outcome <;> rfl

/-- What is loaded for the forwarding table does not depend on what was told before. -/
theorem ForwardingMaps.load_value (n : Store.Namespaces) (warned : Once String) :
    (load n warned).value.1 = (load n .fresh).value.1 := by
  simp only [load, Logged.value_bind]
  cases (PortMaps.loadAll n).run.value with
  | error e => rfl
  | ok ports =>
    simp only [Logged.value_bind]
    cases (readBridgePorts ⟨.empty, []⟩ n.members).2 <;> rfl

theorem Forwarding.table_reinit (t : Forwarding) :
    (reinit out t).value.table =
      let loaded := (ForwardingMaps.load out.namespaces t.bridgePortsWarned).value
      loaded.1.map fun identity =>
        { t with
          identity
          warned := if identity = t.identity then t.warned else .fresh
          bridgePortsWarned := loaded.2 } := by
  rw [reinit, Logged.value_bind]
  rcases (ForwardingMaps.load out.namespaces t.bridgePortsWarned).value with ⟨loaded, warned⟩
  cases loaded with
  | error e => rfl
  | ok identity =>
    by_cases h : identity = t.identity
    · subst h
      simp [Except.map]
    · simp [Except.map, h]

theorem Forwarding.cell_reinit (t : Forwarding) :
    (reinit out t).value.after.cell = t.cell := by
  rw [reinit, Logged.value_bind]
  obtain ⟨loaded, warned⟩ := (ForwardingMaps.load out.namespaces t.bridgePortsWarned).value
  cases loaded with
  | error e => rfl
  | ok identity =>
    simp only
    split <;> rfl

theorem Forwarding.cell_renew (t : Forwarding) :
    (Upkeep.renew ⟨reinit out, refresh out⟩ t).map (·.cell) =
      (ForwardingMaps.load out.namespaces .fresh).value.1.map fun identity =>
        ⟨(readForwarding out.namespaces identity .fresh).value.rows, .seeded⟩ := by
  simp only [Upkeep.renew, table_reinit]
  rw [ForwardingMaps.load_value]
  cases (ForwardingMaps.load out.namespaces .fresh).value.1 with
  | error e => rfl
  | ok identity =>
    refine congrArg (fun rows => Except.ok (SnapshotCell.mk rows .seeded)) ?_
    exact rows_readForwarding out.namespaces identity _

/-! ## Building as renewal -/

/-- The table that has never seen anything. -/
def Blueprint.blank : Blueprint → Updater
  | .interfaces => .interfaces ⟨.empty, .fresh .empty, .fresh⟩
  | .neighbours => .neighbours ⟨.fresh .empty⟩
  | .forwarding => .forwarding ⟨.empty, .fresh .empty, .fresh, .fresh⟩
  | .routes => .routes ⟨.fresh .empty⟩
  | .sensors => .sensors ⟨.empty, .fresh .empty⟩
  | .queueStats => .queueStats ⟨.empty, .fresh .empty, .fresh⟩
  | .power origin => .power ⟨origin, .fresh []⟩
  | .overlay top => .overlay ⟨top, .fresh .empty, .fresh⟩

/-- Each table is renewed by the operations of its own. -/
theorem Updater.renew_eq (u : Updater) :
    (upkeep out).renew u = match u with
      | .interfaces t =>
        ((Upkeep.renew ⟨Interfaces.reinit out, Interfaces.refresh out⟩ t).mapError .error).map
          .interfaces
      | .neighbours t =>
        ((Upkeep.renew ⟨Neighbours.reinit out, Neighbours.refresh out⟩ t).mapError .error).map
          .neighbours
      | .forwarding t =>
        ((Upkeep.renew ⟨Forwarding.reinit out, Forwarding.refresh out⟩ t).mapError .error).map
          .forwarding
      | .routes t =>
        ((Upkeep.renew ⟨Routes.reinit out, Routes.refresh out⟩ t).mapError .error).map .routes
      | .sensors t =>
        ((Upkeep.renew ⟨Sensors.reinit out, Sensors.refresh out⟩ t).mapError .error).map .sensors
      | .queueStats t => ((QueueStats.upkeep out).renew t).map .queueStats
      | .power t =>
        ((Upkeep.renew ⟨Power.reinit out, Power.refresh out⟩ t).mapError .error).map .power
      | .overlay t =>
        ((Upkeep.renew ⟨Overlay.reinit out, Overlay.refresh out⟩ t).mapError .error).map
          .overlay := by
  cases u <;> simp only [← Upkeep.renew_lift] <;> refine Upkeep.renew_map ?_ ?_ _ <;>
    exact fun _ => rfl

/-- A table is renewed when both operations succeed. -/
theorem Updater.renew_eq_ok_iff {u w : Updater} : (upkeep out).renew u = .ok w ↔
    (u.reinit out).value.outcome = .ok () ∧
      ((u.reinit out).value.after.refresh out).value.outcome = .ok () ∧
      ((u.reinit out).value.after.refresh out).value.after = w := by
  have hreinit : ∀ v, ((upkeep out).reinit u).value.table = .ok v ↔
      (u.reinit out).value.outcome = .ok () ∧ (u.reinit out).value.after = v := by
    intro v
    rw [show ((upkeep out).reinit u).value.table = _ from Attempt.table_lift _,
      ← Attempt.table_eq_ok_iff]
    cases (u.reinit out).value.table <;> simp [Except.mapError]
  simp only [Upkeep.renew_eq_ok_iff, hreinit]
  constructor
  · rintro ⟨_, ⟨hdone, rfl⟩, hw⟩
    exact ⟨hdone, Attempt.table_eq_ok_iff.1 hw⟩
  · rintro ⟨hdone, hw⟩
    exact ⟨_, ⟨hdone, rfl⟩, Attempt.table_eq_ok_iff.2 hw⟩

theorem Interfaces.outcome_build :
    (build out).outcome =
      Upkeep.renew ⟨reinit out, refresh out⟩ ⟨.empty, .fresh .empty, .fresh⟩ := by
  rw [build, Load.outcome_bind]
  simp only [Upkeep.renew, table_reinit, ite_self]
  cases (InterfaceMaps.load out.namespaces).outcome <;> rfl

theorem Sensors.outcome_build :
    (build out).outcome = Upkeep.renew ⟨reinit out, refresh out⟩ ⟨.empty, .fresh .empty⟩ := by
  rw [build, Load.outcome_bind]
  simp only [Upkeep.renew, table_reinit]
  cases (PortMaps.loadAll out.namespaces).outcome <;> rfl

theorem QueueStats.outcome_build :
    (build out).outcome = (upkeep out).renew ⟨.empty, .fresh .empty, .fresh⟩ := by
  have hreinit : ((upkeep out).reinit ⟨.empty, .fresh .empty, .fresh⟩).value.table =
      ((reinit out ⟨.empty, .fresh .empty, .fresh⟩).value.table).mapError Failure.error :=
    Attempt.table_lift _
  rw [build, Load.outcome_bind, Upkeep.renew, hreinit, table_reinit, Load.outcome_lift]
  simp only [ite_self]
  cases (QueueMaps.loadAll out.namespaces).outcome <;> rfl

theorem Forwarding.outcome_build :
    (build out).outcome =
      Upkeep.renew ⟨reinit out, refresh out⟩ ⟨.empty, .fresh .empty, .fresh, .fresh⟩ := by
  rw [build, Load.outcome_bind]
  rfl

/-- Building a table is renewing the blank one. -/
theorem Blueprint.outcome_build (b : Blueprint) :
    (b.build out).outcome = (Updater.upkeep out).renew b.blank := by
  rw [Updater.renew_eq]
  cases b with
  | interfaces => rw [build, Load.outcome_return, Load.outcome_lift, Interfaces.outcome_build]; rfl
  | neighbours => rw [build, Load.outcome_return]; rfl
  | forwarding => rw [build, Load.outcome_return, Load.outcome_lift, Forwarding.outcome_build]; rfl
  | routes => rw [build, Load.outcome_return]; rfl
  | sensors => rw [build, Load.outcome_return, Load.outcome_lift, Sensors.outcome_build]; rfl
  | queueStats => rw [build, Load.outcome_return, QueueStats.outcome_build]; rfl
  | power origin => rw [build, Load.outcome_return]; rfl
  | overlay top => rw [build, Load.outcome_return]; rfl

/-! ## What queries can tell -/

/-- Tables that no query tells apart. -/
structure AnswersAs (u v : Updater) : Prop where
  valueAt : ∀ sub, u.valueAt sub = v.valueAt sub
  next : ∀ sub, u.next sub = v.next sub
  state : u.state = v.state

namespace Updater

/-- What a table is built from. -/
def blueprint : Updater → Blueprint
  | .interfaces _ => .interfaces
  | .neighbours _ => .neighbours
  | .forwarding _ => .forwarding
  | .routes _ => .routes
  | .sensors _ => .sensors
  | .queueStats _ => .queueStats
  | .power t => .power t.origin
  | .overlay t => .overlay t.top

/-- What a table has committed, all else being forgotten. -/
def committed : Updater → Updater
  | .interfaces t => .interfaces ⟨.empty, t.cell, .fresh⟩
  | .neighbours t => .neighbours t
  | .forwarding t => .forwarding ⟨.empty, t.cell, .fresh, .fresh⟩
  | .routes t => .routes t
  | .sensors t => .sensors ⟨.empty, t.cell⟩
  | .queueStats t => .queueStats ⟨.empty, t.cell, .fresh⟩
  | .power t => .power ⟨.host, t.cell⟩
  | .overlay t => .overlay ⟨Oid.root, t.cell, .fresh⟩

/-- What is committed decides every answer. -/
theorem answersAs_committed (u : Updater) : AnswersAs u u.committed := by
  cases u <;> exact ⟨fun _ => rfl, fun _ => rfl, rfl⟩

theorem answersAs_of_committed {u v : Updater} (h : u.committed = v.committed) :
    AnswersAs u v := by
  have hu := answersAs_committed u
  have hv := answersAs_committed v
  rw [h] at hu
  exact ⟨fun sub => (hu.valueAt sub).trans (hv.valueAt sub).symm,
    fun sub => (hu.next sub).trans (hv.next sub).symm, hu.state.trans hv.state.symm⟩

/-- A reinit leaves alone what is committed. -/
theorem committed_reinit (u : Updater) : (u.reinit out).value.after.committed = u.committed := by
  cases u with
  | interfaces t =>
    exact congrArg (fun cell => interfaces ⟨.empty, cell, .fresh⟩) (t.cell_reinit out)
  | forwarding t =>
    exact congrArg (fun cell => forwarding ⟨.empty, cell, .fresh, .fresh⟩) (t.cell_reinit out)
  | sensors t => exact congrArg (fun cell => sensors ⟨.empty, cell⟩) (t.cell_reinit out)
  | queueStats t =>
    exact congrArg (fun cell => queueStats ⟨.empty, cell, .fresh⟩) (t.cell_reinit out)
  | _ => rfl

/-- So does a read. -/
theorem committed_noteRead (sub : SubId) (u : Updater) :
    (u.noteRead sub).value.committed = u.committed := by
  cases u <;> rfl

theorem committed_of_cell {υ σ : Type} {f : υ → Updater} {cell : υ → SnapshotCell σ}
    (g : SnapshotCell σ → Updater) (hg : ∀ t, (f t).committed = g (cell t))
    {ε : Type} {x y : Except ε υ} (hcell : x.map cell = y.map cell) :
    (x.map f).map committed = (y.map f).map committed := by
  cases x with
  | error e =>
    cases y with
    | error e' => exact congrArg Except.error (Except.error.inj hcell)
    | ok t' => cases hcell
  | ok t =>
    cases y with
    | error e' => cases hcell
    | ok t' =>
      show Except.ok (f t).committed = Except.ok (f t').committed
      rw [hg, hg, Except.ok.inj hcell]

/-- A renewed table has committed what one that is built in the same world has; neither can be had
where the other cannot. -/
theorem committed_renew (u : Updater) :
    ((upkeep out).renew u).map committed = (u.blueprint.build out).outcome.map committed := by
  rw [Blueprint.outcome_build, renew_eq, renew_eq]
  cases u with
  | interfaces t =>
    refine committed_of_cell (fun cell => .interfaces ⟨.empty, cell, .fresh⟩) (fun _ => rfl) ?_
    rw [map_mapError, map_mapError, Interfaces.cell_renew, Interfaces.cell_renew]
  | neighbours t =>
    refine committed_of_cell (fun cell => .neighbours ⟨cell⟩) (fun _ => rfl) ?_
    rw [map_mapError, map_mapError, Neighbours.cell_renew, Neighbours.cell_renew]
  | forwarding t =>
    refine committed_of_cell (fun cell => .forwarding ⟨.empty, cell, .fresh, .fresh⟩)
      (fun _ => rfl) ?_
    rw [map_mapError, map_mapError, Forwarding.cell_renew, Forwarding.cell_renew]
  | routes t =>
    refine committed_of_cell (fun cell => .routes ⟨cell⟩) (fun _ => rfl) ?_
    rw [map_mapError, map_mapError, Routes.cell_renew, Routes.cell_renew]
  | sensors t =>
    refine committed_of_cell (fun cell => .sensors ⟨.empty, cell⟩) (fun _ => rfl) ?_
    rw [map_mapError, map_mapError, Sensors.cell_renew, Sensors.cell_renew]
  | queueStats t =>
    refine committed_of_cell (fun cell => .queueStats ⟨.empty, cell, .fresh⟩) (fun _ => rfl) ?_
    rw [QueueStats.cell_renew, QueueStats.cell_renew]
  | power t =>
    refine committed_of_cell (fun cell => .power ⟨.host, cell⟩) (fun _ => rfl) ?_
    rw [map_mapError, map_mapError, Power.cell_renew, Power.cell_renew]
  | overlay t =>
    refine committed_of_cell (fun cell => .overlay ⟨Oid.root, cell, .fresh⟩) (fun _ => rfl) ?_
    rw [map_mapError, map_mapError, Overlay.cell_renew, Overlay.cell_renew]

end Updater

end SwitchMib.Mib
