import SwitchMib.Agent
import SwitchMib.Proofs.Log
import SwitchMib.Proofs.Snmp.Admission

/-!
# The start of the agent

The agent builds its tables one after the other and registers each at once. A table that the store
has nothing coherent for is left out, and the start goes on as if it had never been asked for; the
first other failure ends the start.

* `PlanStep.blueprint?`, `tablesOf`: the tables that steps are about, and those that come about when
  each is built by itself.
* `PlanStep.Stops`, `installStep_error_iff`: why a step ends the start.
* `FirstStop`, `run_error_iff`: a start fails with the error of the first step that ends it.
* `run_ok`: a start that succeeds has registered the tables that can be built.
* `Settings.blueprints`, `mem_plan`: the tables that settings ask for.
* `Settings.keeping`, `outcome_buildTree_keeping`: settings with some tables switched off.
* `Settings.start_iff`: all of this for the plan of the settings.
* `Settings.not_error_of_last_queue`: a table that overflows hides what would end the start later.
-/

namespace SwitchMib
set_option autoImplicit false

open Config Mib Snmp

variable {out : Outside}

/-! ## One step -/

namespace PlanStep

/-- The table that a step is about, if there is one. -/
def blueprint? : PlanStep → Option Blueprint
  | .table b => some b
  | .omitPower => none
  | .overlay text => (overlayRoot text).toOption.map .overlay

/-- The table that a step comes to when it is built by itself. -/
def table? (out : Outside) (step : PlanStep) : Option Updater :=
  step.blueprint?.bind fun b => (b.build out).outcome.toOption

/-- `Stops out standing step e`: where the tables `standing` are registered, the step ends the start
with the failure `e`. -/
inductive Stops (out : Outside) (standing : List Updater) : PlanStep → Failure → Prop where
  /-- The table cannot be built, and not because the store is incoherent. -/
  | failed {step : PlanStep} {b : Blueprint} {e : Failure} : step.blueprint? = some b →
      (b.build out).outcome = .error e → e.isFatal = false → Stops out standing step e
  /-- The root is no object identifier. -/
  | unreadable {text : String} {cause : Oid.ParseError} : overlayRoot text = .error cause →
      Stops out standing (.overlay text) (.error (.config (.unreadableOverlay text cause)))
  /-- The table is built, and a registered one is in its way. -/
  | blocked {step : PlanStep} {b : Blueprint} {u v : Updater} : step.blueprint? = some b →
      (b.build out).outcome = .ok u → MibTree.InWay standing u v →
      Stops out standing step (.error (.config (.overlap u.name u.top v.name v.top)))

theorem Stops.congr {standing standing' : List Updater} {step : PlanStep} {e : Failure}
    (h : step.Stops out standing e) (hmem : ∀ w, w ∈ standing ↔ w ∈ standing') :
    step.Stops out standing' e := by
  cases h with
  | failed hb hbuild hfatal => exact .failed hb hbuild hfatal
  | unreadable hroot => exact .unreadable hroot
  | blocked hb hbuild hway => exact .blocked hb hbuild (hway.congr hmem)

theorem blueprint?_overlay_iff {text : String} {b : Blueprint} :
    (overlay text).blueprint? = some b ↔ ∃ top, overlayRoot text = .ok top ∧ b = .overlay top := by
  rw [blueprint?]
  cases overlayRoot text <;> simp [Except.toOption, eq_comm]

/-- A step that is about no table leaves out the power supplies or has an unreadable root. -/
theorem eq_of_blueprint?_eq_none {step : PlanStep} (h : step.blueprint? = none) :
    step = .omitPower ∨ ∃ text cause, step = .overlay text ∧ overlayRoot text = .error cause := by
  cases step with
  | table b => cases h
  | omitPower => exact .inl rfl
  | overlay text =>
    refine .inr ⟨text, ?_⟩
    cases hroot : overlayRoot text with
    | error cause => exact ⟨cause, rfl, rfl⟩
    | ok top =>
      rw [blueprint?_overlay_iff.2 ⟨top, hroot, rfl⟩] at h
      cases h

section Stops

variable {standing : List Updater} {e : Failure}

theorem not_stops_omitPower : ¬ omitPower.Stops out standing e := by
  intro h
  cases h with
  | failed hb _ _ => cases hb
  | blocked hb _ _ => cases hb

theorem stops_unreadable_iff {text : String} {cause : Oid.ParseError}
    (hroot : overlayRoot text = .error cause) :
    (overlay text).Stops out standing e ↔ e = .error (.config (.unreadableOverlay text cause)) := by
  have hnone : ∀ b, (overlay text).blueprint? ≠ some b := by
    intro b hb
    obtain ⟨top, hread, -⟩ := blueprint?_overlay_iff.1 hb
    rw [hroot] at hread
    cases hread
  constructor
  · intro h
    cases h with
    | failed hb _ _ => exact absurd hb (hnone _)
    | unreadable hroot' => rw [Except.error.inj (hroot.symm.trans hroot')]
    | blocked hb _ _ => exact absurd hb (hnone _)
  · rintro rfl
    exact .unreadable hroot

theorem stops_of_blueprint_iff {step : PlanStep} {b : Blueprint} (hb : step.blueprint? = some b) :
    step.Stops out standing e ↔
      ((b.build out).outcome = .error e ∧ e.isFatal = false) ∨
      ∃ u v, (b.build out).outcome = .ok u ∧ MibTree.InWay standing u v ∧
        e = .error (.config (.overlap u.name u.top v.name v.top)) := by
  constructor
  · intro h
    cases h with
    | failed hb' hbuild hfatal =>
      obtain rfl := Option.some.inj (hb'.symm.trans hb)
      exact .inl ⟨hbuild, hfatal⟩
    | unreadable hroot =>
      obtain ⟨top, hread, -⟩ := blueprint?_overlay_iff.1 hb
      rw [hroot] at hread
      cases hread
    | blocked hb' hbuild hway =>
      obtain rfl := Option.some.inj (hb'.symm.trans hb)
      exact .inr ⟨_, _, hbuild, hway, rfl⟩
  · rintro (⟨hbuild, hfatal⟩ | ⟨u, v, hbuild, hway, rfl⟩)
    · exact .failed hb hbuild hfatal
    · exact .blocked hb hbuild hway

end Stops

end PlanStep

theorem outcome_installTable (tree : Agent) (b : Blueprint) :
    (installTable out tree b).outcome = match (b.build out).outcome with
      | .ok u => (tree.register u).mapError .error
      | .error e => if e.isFatal then .ok tree else .error e := by
  have hrun : (b.build out).run.value = (b.build out).outcome := rfl
  rw [installTable, Load.outcome_bind, Load.outcome_ofLogged, hrun]
  cases (b.build out).outcome with
  | ok u =>
    show (registerTable tree u).outcome = (tree.register u).mapError .error
    rw [registerTable]
    cases tree.register u <;> rfl
  | error failure =>
    cases failure with
    | error e =>
      show (if e.isFatal then (do Load.tell (.notRegistered b.name e); pure tree)
        else throw (.error e) : Load Failure Agent).outcome =
          if e.isFatal then .ok tree else .error (.error e)
      split <;> rfl
    | overflow => rfl

theorem outcome_installStep_unreadable {text : String} {cause : Oid.ParseError}
    (h : overlayRoot text = .error cause) (tree : Agent) :
    (installStep out tree (.overlay text)).outcome =
      .error (.error (.config (.unreadableOverlay text cause))) := by
  unfold installStep
  simp only [h]
  rfl

theorem installStep_of_blueprint {step : PlanStep} {b : Blueprint} (h : step.blueprint? = some b)
    (tree : Agent) : installStep out tree step = installTable out tree b := by
  cases step with
  | table b' =>
    unfold installStep
    exact congrArg (installTable out tree) (Option.some.inj h)
  | omitPower => cases h
  | overlay text =>
    obtain ⟨top, hroot, rfl⟩ := PlanStep.blueprint?_overlay_iff.1 h
    unfold installStep
    simp only [hroot]

theorem installTable_error_iff {tree : Agent} (h : MibTree.Arranged tree.mibs) {b : Blueprint}
    {e : Failure} :
    (installTable out tree b).outcome = .error e ↔
      ((b.build out).outcome = .error e ∧ e.isFatal = false) ∨
      ∃ u v, (b.build out).outcome = .ok u ∧ MibTree.InWay tree.mibs u v ∧
        e = .error (.config (.overlap u.name u.top v.name v.top)) := by
  rw [outcome_installTable]
  cases (b.build out).outcome with
  | error e' =>
    simp only
    cases hfatal : e'.isFatal with
    | true =>
      simp only [if_true]
      refine iff_of_false (fun herror => by cases herror) ?_
      rintro (⟨herror, hnot⟩ | ⟨u, -, hok, -⟩)
      · rw [← Except.error.inj herror, hfatal] at hnot
        cases hnot
      · cases hok
    | false =>
      simp only [Bool.false_eq_true, if_false]
      constructor
      · intro herror
        obtain rfl : e' = e := Except.error.inj herror
        exact .inl ⟨rfl, hfatal⟩
      · rintro (⟨herror, -⟩ | ⟨u, -, hok, -⟩)
        · rw [Except.error.inj herror]
        · cases hok
  | ok u =>
    simp only [mapError_eq_error_iff, MibTree.register_eq_error_iff h]
    constructor
    · rintro ⟨_, ⟨v, hway, rfl⟩, rfl⟩
      exact .inr ⟨u, v, rfl, hway, rfl⟩
    · rintro (⟨herror, -⟩ | ⟨u', v, hok, hway, rfl⟩)
      · cases herror
      · obtain rfl := Except.ok.inj hok
        exact ⟨_, ⟨v, hway, rfl⟩, rfl⟩

/-- A step fails just when something ends the start. -/
theorem installStep_error_iff {tree : Agent} (h : MibTree.Arranged tree.mibs) {step : PlanStep}
    {e : Failure} :
    (installStep out tree step).outcome = .error e ↔ step.Stops out tree.mibs e := by
  cases hb : step.blueprint? with
  | none =>
    rcases PlanStep.eq_of_blueprint?_eq_none hb with rfl | ⟨text, cause, rfl, hroot⟩
    · exact iff_of_false (fun herror => by cases herror) PlanStep.not_stops_omitPower
    · rw [outcome_installStep_unreadable hroot, PlanStep.stops_unreadable_iff hroot]
      exact ⟨fun herror => (Except.error.inj herror).symm, fun he => congrArg Except.error he.symm⟩
  | some b =>
    rw [installStep_of_blueprint hb, installTable_error_iff h, PlanStep.stops_of_blueprint_iff hb]

/-- A step that goes through adds the table that it comes to by itself, if any. -/
theorem installStep_ok {tree tree' : Agent} (h : MibTree.Arranged tree.mibs) {step : PlanStep}
    (hstep : (installStep out tree step).outcome = .ok tree') :
    MibTree.Arranged tree'.mibs ∧
      tree'.mibs.Perm (tree.mibs ++ (step.table? out).toList) := by
  rw [PlanStep.table?]
  cases hb : step.blueprint? with
  | none =>
    rcases PlanStep.eq_of_blueprint?_eq_none hb with rfl | ⟨text, cause, rfl, hroot⟩
    · obtain rfl : tree = tree' := Except.ok.inj hstep
      exact ⟨h, by simp⟩
    · rw [outcome_installStep_unreadable hroot] at hstep
      cases hstep
  | some b =>
    rw [installStep_of_blueprint hb, outcome_installTable] at hstep
    rw [Option.bind_some]
    cases hbuild : (b.build out).outcome with
    | error e =>
      rw [hbuild] at hstep
      cases hfatal : e.isFatal with
      | true =>
        simp only [hfatal, if_true] at hstep
        obtain rfl : tree = tree' := Except.ok.inj hstep
        exact ⟨h, by simp [Except.toOption]⟩
      | false =>
        simp only [hfatal] at hstep
        cases hstep
    | ok u =>
      rw [hbuild] at hstep
      have hstep := mapError_eq_ok_iff.1 hstep
      refine ⟨MibTree.arranged_of_register h hstep, ?_⟩
      exact (MibTree.perm_of_register hstep).trans (List.perm_append_singleton u tree.mibs).symm

/-! ## All steps -/

/-- The tables that steps come to when each is built by itself. -/
def tablesOf (out : Outside) (steps : List PlanStep) : List Updater :=
  steps.filterMap (PlanStep.table? out)

/-- No step of the list ends the start. -/
def Passes (out : Outside) (steps : List PlanStep) : Prop :=
  ∀ earlier step later, steps = earlier ++ step :: later →
    ∀ e, ¬ step.Stops out (tablesOf out earlier) e

/-- The first step that ends the start ends it with the failure `e`. -/
def FirstStop (out : Outside) (steps : List PlanStep) (e : Failure) : Prop :=
  ∃ earlier step later, steps = earlier ++ step :: later ∧ Passes out earlier ∧
    step.Stops out (tablesOf out earlier) e

theorem run_ok {steps : List PlanStep} {tree tree' : Agent} (h : MibTree.Arranged tree.mibs)
    (hrun : (steps.foldlM (installStep out) tree).outcome = .ok tree') :
    MibTree.Arranged tree'.mibs ∧ tree'.mibs.Perm (tree.mibs ++ tablesOf out steps) := by
  induction steps generalizing tree with
  | nil =>
    obtain rfl : tree = tree' := Except.ok.inj hrun
    exact ⟨h, by simp [tablesOf]⟩
  | cons step steps ih =>
    rw [List.foldlM_cons] at hrun
    obtain ⟨mid, hstep, hrest⟩ := Load.outcome_bind_eq_ok_iff.1 hrun
    obtain ⟨hmid, hadded⟩ := installStep_ok h hstep
    obtain ⟨harr, hperm⟩ := ih hmid hrest
    have htables : tablesOf out (step :: steps) =
        (step.table? out).toList ++ tablesOf out steps := by
      rw [tablesOf, List.filterMap_cons]
      cases step.table? out <;> rfl
    refine ⟨harr, hperm.trans ?_⟩
    rw [htables, ← List.append_assoc]
    exact hadded.append_right _

section Empty

variable {steps : List PlanStep}

theorem stops_iff_of_run {earlier : List PlanStep} {mid : Agent}
    (hrun : (earlier.foldlM (installStep out) MibTree.empty).outcome = .ok mid) {step : PlanStep}
    {e : Failure} :
    (installStep out mid step).outcome = .error e ↔ step.Stops out (tablesOf out earlier) e := by
  obtain ⟨harr, hperm⟩ := run_ok MibTree.arranged_empty hrun
  have hmem : ∀ w, w ∈ mid.mibs ↔ w ∈ tablesOf out earlier := fun w => hperm.mem_iff
  rw [installStep_error_iff harr]
  exact ⟨fun h => h.congr hmem, fun h => h.congr fun w => (hmem w).symm⟩

theorem exists_stops_of_run {e : Failure}
    (h : (steps.foldlM (installStep out) MibTree.empty).outcome = .error e) :
    ∃ earlier step later mid, steps = earlier ++ step :: later ∧
      (earlier.foldlM (installStep out) MibTree.empty).outcome = .ok mid ∧
      step.Stops out (tablesOf out earlier) e := by
  obtain ⟨earlier, step, later, mid, hsteps, hmid, hstep⟩ := Load.outcome_foldlM_eq_error_iff.1 h
  exact ⟨earlier, step, later, mid, hsteps, hmid, (stops_iff_of_run hmid).1 hstep⟩

theorem run_ok_iff_passes :
    (∃ tree, (steps.foldlM (installStep out) MibTree.empty).outcome = .ok tree) ↔
      Passes out steps := by
  constructor
  · rintro ⟨tree, hrun⟩ earlier step later rfl e hstops
    rw [List.foldlM_append] at hrun
    obtain ⟨mid, hmid, hrest⟩ := Load.outcome_bind_eq_ok_iff.1 hrun
    rw [List.foldlM_cons] at hrest
    obtain ⟨next, hstep, -⟩ := Load.outcome_bind_eq_ok_iff.1 hrest
    rw [(stops_iff_of_run hmid).2 hstops] at hstep
    cases hstep
  · intro hpasses
    cases hrun : (steps.foldlM (installStep out) MibTree.empty).outcome with
    | ok tree => exact ⟨tree, rfl⟩
    | error e =>
      obtain ⟨earlier, step, later, -, hsteps, -, hstops⟩ := exists_stops_of_run hrun
      exact absurd hstops (hpasses earlier step later hsteps e)

/-- The steps fail as the first one does that ends the start. -/
theorem run_error_iff {e : Failure} :
    (steps.foldlM (installStep out) MibTree.empty).outcome = .error e ↔ FirstStop out steps e := by
  constructor
  · intro hrun
    obtain ⟨earlier, step, later, mid, hsteps, hmid, hstops⟩ := exists_stops_of_run hrun
    exact ⟨earlier, step, later, hsteps, run_ok_iff_passes.1 ⟨mid, hmid⟩, hstops⟩
  · rintro ⟨earlier, step, later, hsteps, hpasses, hstops⟩
    obtain ⟨mid, hmid⟩ := run_ok_iff_passes.2 hpasses
    exact Load.outcome_foldlM_eq_error_iff.2
      ⟨earlier, step, later, mid, hsteps, hmid, (stops_iff_of_run hmid).2 hstops⟩

end Empty

theorem outcome_buildTree (s : Settings) :
    (buildTree s out).outcome = (s.plan.foldlM (installStep out) MibTree.empty).outcome := by
  rw [buildTree, Load.outcome_bind]
  cases (s.plan.foldlM (installStep out) MibTree.empty).outcome <;> rfl

/-! ## The tables of the settings -/

/-- The steps of a start with every table but overlays. -/
def Config.PowerProvider.everyTable (power : PowerProvider) : List PlanStep :=
  [ .table .interfaces, .table .neighbours, .table .forwarding, .table .routes, .table .sensors
  , .table .queueStats, power.step ]

namespace Config.Settings

/-- The tables that the settings ask for, those at unreadable roots apart. -/
def blueprints (s : Settings) : List Blueprint := s.plan.filterMap PlanStep.blueprint?

theorem plan_eq (s : Settings) :
    ∃ fixed : List PlanStep, fixed.Sublist s.power.everyTable ∧
      s.plan = fixed ++ s.tables.overlays.map .overlay :=
  ⟨_, List.filter_sublist.map _, rfl⟩

/-- A step is about a table at a fixed root, leaves the power supplies out or is about an overlay. -/
theorem mem_plan {s : Settings} {step : PlanStep} (h : step ∈ s.plan) :
    (∃ b, step = .table b ∧ ∀ top, b ≠ .overlay top) ∨ step = .omitPower ∨
      ∃ text ∈ s.tables.overlays, step = .overlay text := by
  obtain ⟨fixed, hsub, hplan⟩ := s.plan_eq
  rw [hplan] at h
  rcases List.mem_append.1 h with hfixed | hoverlay
  · have hevery : ∀ step ∈ s.power.everyTable,
        (∃ b, step = .table b ∧ ∀ top, b ≠ .overlay top) ∨ step = .omitPower := by
      cases s.power <;> simp [PowerProvider.everyTable, PowerProvider.step]
    exact (hevery step (hsub.subset hfixed)).imp_right .inl
  · obtain ⟨text, htext, rfl⟩ := List.mem_map.1 hoverlay
    exact .inr (.inr ⟨text, htext, rfl⟩)

theorem overlay_mem_plan_iff {s : Settings} {text : String} :
    PlanStep.overlay text ∈ s.plan ↔ text ∈ s.tables.overlays := by
  constructor
  · intro h
    rcases mem_plan h with ⟨b, hnot, -⟩ | hnot | ⟨text', htext, hsame⟩
    · cases hnot
    · cases hnot
    · rw [PlanStep.overlay.inj hsame]
      exact htext
  · exact fun h => List.mem_append_right _ (List.mem_map.2 ⟨text, h, rfl⟩)

theorem tablesOf_plan (s : Settings) :
    tablesOf out s.plan = s.blueprints.filterMap fun b => (b.build out).outcome.toOption := by
  rw [blueprints, List.filterMap_filterMap]
  rfl

/-! ## Tables switched off -/

/-- The settings with further tables switched off: only those to keep are asked for. -/
def keeping (s : Settings) (keep : Blueprint → Bool) : Settings :=
  let kept (step : PlanStep) : Bool := step.blueprint?.all keep
  { s with tables := { s.tables with
      interfaces := s.tables.interfaces && kept (.table .interfaces)
      neighbours := s.tables.neighbours && kept (.table .neighbours)
      forwarding := s.tables.forwarding && kept (.table .forwarding)
      routes := s.tables.routes && kept (.table .routes)
      sensors := s.tables.sensors && kept (.table .sensors)
      queues := s.tables.queues && kept (.table .queueStats)
      power := s.tables.power && kept s.power.step
      overlays := s.tables.overlays.filter fun text => kept (.overlay text) } }

theorem map_filter_guard {α : Type} (l : List (Bool × α)) (keep : α → Bool) :
    ((l.map fun p => (p.1 && keep p.2, p.2)).filter (·.1)).map (·.2) =
      ((l.filter (·.1)).map (·.2)).filter keep := by
  induction l with
  | nil => rfl
  | cons p l ih =>
    obtain ⟨asked, a⟩ := p
    cases asked with
    | false => exact ih
    | true =>
      cases hkeep : keep a <;> simp [hkeep, ih]

theorem plan_keeping (s : Settings) (keep : Blueprint → Bool) :
    (s.keeping keep).plan = s.plan.filter fun step => step.blueprint?.all keep := by
  have hoverlays : ∀ texts : List String,
      (texts.filter fun text => (PlanStep.overlay text).blueprint?.all keep).map PlanStep.overlay =
        (texts.map PlanStep.overlay).filter fun step => step.blueprint?.all keep := by
    intro texts
    rw [List.filter_map]
    rfl
  rw [plan, plan, List.filter_append, ← hoverlays, ← map_filter_guard]
  rfl

/-- Switching off what cannot be built makes no difference where each of these tables has failed
with a fatal error. -/
theorem outcome_buildTree_keeping {s : Settings}
    (hfatal : ∀ b ∈ s.blueprints, ∀ e, (b.build out).outcome = .error e → e.isFatal = true) :
    (buildTree (s.keeping fun b => (b.build out).outcome.isOk) out).outcome =
      (buildTree s out).outcome := by
  rw [outcome_buildTree, outcome_buildTree, plan_keeping, Load.outcome_foldlM_filter]
  intro step hstep hdropped standing
  -- what is switched off is about a table, and this table cannot be built
  cases hb : step.blueprint? with
  | none =>
    rw [hb] at hdropped
    cases hdropped
  | some b =>
    rw [installStep_of_blueprint hb, outcome_installTable]
    cases hbuild : (b.build out).outcome with
    | ok u =>
      rw [hb, Option.all_some, hbuild] at hdropped
      cases hdropped
    | error e =>
      have hasked : b ∈ s.blueprints := List.mem_filterMap.2 ⟨step, hstep, hb⟩
      simp only [hfatal b hasked e hbuild, if_true]

/-! ## What a start comes to -/

section Started

variable {s : Settings} {tree : Agent} (htree : (buildTree s out).outcome = .ok tree)
include htree

theorem not_stops_of_started {step : PlanStep} (hstep : step ∈ s.plan) :
    ∃ standing, ∀ e, ¬ step.Stops out standing e := by
  rw [outcome_buildTree] at htree
  obtain ⟨earlier, later, hplan⟩ := List.append_of_mem hstep
  exact ⟨_, run_ok_iff_passes.1 ⟨tree, htree⟩ earlier step later hplan⟩

theorem overlay_readable_of_started {text : String} (htext : text ∈ s.tables.overlays) :
    ∃ top, overlayRoot text = .ok top := by
  obtain ⟨standing, hnone⟩ := not_stops_of_started htree (overlay_mem_plan_iff.2 htext)
  cases hroot : overlayRoot text with
  | ok top => exact ⟨top, rfl⟩
  | error cause => exact absurd (.unreadable hroot) (hnone _)

theorem isFatal_of_started {b : Blueprint} (hb : b ∈ s.blueprints) {e : Failure}
    (he : (b.build out).outcome = .error e) : e.isFatal = true := by
  obtain ⟨step, hstep, hb⟩ := List.mem_filterMap.1 hb
  obtain ⟨standing, hnone⟩ := not_stops_of_started htree hstep
  by_contra hnot
  exact hnone e (.failed hb he (Bool.eq_false_iff.2 hnot))

end Started

/-- Where the agent can be started it has registered just those tables asked for that can be built
by themselves, every other one has failed with a fatal error, and it comes to the same tree if
these are switched off. It cannot be started just when some step ends the start: a table fails
otherwise or overflows, a root cannot be read or a registered table is in the way; and the failure
is that of the first such step. -/
theorem start_iff (s : Settings) (out : Outside) :
    (∀ tree, (buildTree s out).outcome = .ok tree →
      tree.mibs.Perm (s.blueprints.filterMap fun b => (b.build out).outcome.toOption) ∧
      (∀ text ∈ s.tables.overlays, ∃ top, overlayRoot text = .ok top) ∧
      (∀ b ∈ s.blueprints, ∀ e, (b.build out).outcome = .error e → e.isFatal = true) ∧
      (buildTree (s.keeping fun b => (b.build out).outcome.isOk) out).outcome = .ok tree) ∧
    ∀ e, (buildTree s out).outcome = .error e ↔ FirstStop out s.plan e := by
  refine ⟨fun tree htree => ⟨?_, ?_, ?_, ?_⟩, fun e => ?_⟩
  · rw [← tablesOf_plan]
    rw [outcome_buildTree] at htree
    exact (run_ok MibTree.arranged_empty htree).2
  · exact fun text htext => overlay_readable_of_started htree htext
  · exact fun b hb e he => isFatal_of_started htree hb he
  · rw [outcome_buildTree_keeping fun b hb e he => isFatal_of_started htree hb he]
    exact htree
  · rw [outcome_buildTree]
    exact run_error_iff

/-- A host that knows nothing. -/
def bareHost : Outside where
  namespaces := ⟨.empty "", []⟩
  neighbours := .ok ""
  platform := ⟨.ok 0, fun _ => .ok false, fun _ => .ok false⟩

/-- On a host that knows nothing four tables are left out and four are registered, among them an
overlay. A second overlay below the first one ends the start. -/
theorem start_iff_of_bare_host :
    let withOverlays (texts : List String) : Settings :=
      { standard with tables := { TableSettings.standard with overlays := texts } }
    let one := withOverlays [".1.3.6.1.4.1.6027"]
    let nested := withOverlays [".1.3.6.1.4.1.6027", "1.3.6.1.4.1.6027.3"]
    let fault : Failure := .error (.config (.overlap "overlay" ⟨[1, 3, 6, 1, 4, 1, 6027, 3]⟩
      "overlay" ⟨[1, 3, 6, 1, 4, 1, 6027]⟩))
    (∃ tree, (buildTree one bareHost).outcome = .ok tree ∧
      tree.mibs.map Updater.name = ["arp", "routes", "psu", "overlay"] ∧
      tree.mibs.Perm
        (one.blueprints.filterMap fun b => (b.build bareHost).outcome.toOption) ∧
      (buildTree (one.keeping fun b => (b.build bareHost).outcome.isOk) bareHost).outcome =
        .ok tree) ∧
    (buildTree nested bareHost).outcome = .error fault ∧
      FirstStop bareHost nested.plan fault := by
  intro withOverlays one nested fault
  have hnames : (buildTree one bareHost).outcome.map (fun tree => tree.mibs.map Updater.name) =
      .ok ["arp", "routes", "psu", "overlay"] := by decide +kernel
  obtain ⟨tree, htree, hnames⟩ := exists_eq_ok_of_map hnames
  obtain ⟨hperm, -, -, hsame⟩ := (start_iff one bareHost).1 tree htree
  have hfault : (buildTree nested bareHost).outcome.map (fun tree => tree.mibs.map Updater.name) =
      .error fault := by decide +kernel
  have hfault := eq_error_of_map hfault
  exact ⟨⟨tree, htree, hnames, hperm, hsame⟩, hfault,
    ((start_iff nested bareHost).2 fault).1 hfault⟩

/-- A host with a queue that has the last of all numbers and has counted packets. -/
def hostOfLastQueue : Outside :=
  { bareHost with
    namespaces :=
      ⟨((Store.Namespace.empty "").setFields .counters Store.Schema.queueNameMap
        [("Ethernet0:4294967295", "oid:0x15")]).setFields .counters
          (Store.Schema.queueCounterKey "oid:0x15") [("SAI_QUEUE_STAT_PACKETS", "7")], []⟩ }

/-- On such a host the start overflows before it gets to an overlay at a root that cannot be read,
so it does not end with the error that the root calls for. -/
theorem not_error_of_last_queue :
    let s : Settings :=
      { standard with tables := { TableSettings.standard with overlays := ["x"] } }
    "x" ∈ s.tables.overlays ∧ (overlayRoot "x").isOk = false ∧
    (buildTree s hostOfLastQueue).outcome = .error .overflow ∧
    ¬ ∀ (s : Settings) (out : Outside), ∀ text ∈ s.tables.overlays,
      (overlayRoot text).isOk = false →
        ∃ e : AgentError, (buildTree s out).outcome = .error (.error e) := by
  intro s
  have hmem : "x" ∈ s.tables.overlays := List.mem_singleton_self "x"
  have hroot : (overlayRoot "x").isOk = false := by decide +kernel
  have hnames : (buildTree s hostOfLastQueue).outcome.map
      (fun tree => tree.mibs.map Updater.name) = .error .overflow := by decide +kernel
  have hover := eq_error_of_map hnames
  refine ⟨hmem, hroot, hover, fun hall => ?_⟩
  obtain ⟨e, he⟩ := hall s hostOfLastQueue "x" hmem hroot
  rw [hover] at he
  cases he

end Config.Settings

end SwitchMib
