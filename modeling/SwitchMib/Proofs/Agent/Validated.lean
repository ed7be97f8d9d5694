import SwitchMib.Proofs.Agent.Start
import SwitchMib.Proofs.Config.HostFirst
import SwitchMib.Proofs.Mib.Session
import SwitchMib.Proofs.Mib.Union

/-!
# The start with validated settings

Validated settings name namespaces and readable roots, and each root by itself is one that a table
can be served at. Nothing is said about roots that lead each other. Whether two such tables meet is
left to the start, and there it depends on the store, since a table that cannot be built is in
nobody's way.

* `Blueprint.root`, `Blueprint.top_of_build`: a table has the root and the name it is asked for with.
* `Settings.pairwise_blueprints`: only an overlay can be in the way.
* `Blueprint.isOk_build_of_queues`: a world in which every table can be built.
* `Settings.configError_iff_of_validate`: the configuration errors that are left, and the settings
  that have none.
-/

namespace SwitchMib
set_option autoImplicit false

open Config Mib Snmp Store

/-! ## Tables and what they are asked for with -/

namespace Mib.Blueprint

variable {out : Outside}

def root (b : Blueprint) : Oid := b.blank.top

theorem top_of_build {b : Blueprint} {u : Updater} (h : (b.build out).outcome = .ok u) :
    u.top = b.root ∧ u.name = b.name := by
  obtain rfl : u.blueprint = b := Session.blueprint_run (s := ⟨out, u⟩) h []
  cases u <;> exact ⟨rfl, rfl⟩

theorem isOk_build_overlay (top : Oid) (h : out.namespaces.host.keys .overlay "*" = .ok []) :
    ((overlay top).build out).outcome.isOk = true := by
  have hread : readOverlay out.namespaces.host top = (⟨.empty, []⟩, .ok ()) := by
    rw [readOverlay, h]
    rfl
  have hcell : (Upkeep.renew ⟨Overlay.reinit out, Overlay.refresh out⟩
      (⟨top, .fresh .empty, .fresh⟩ : Overlay)).map (·.cell) = .ok ⟨.empty, .seeded⟩ := by
    rw [Overlay.cell_renew, hread]
    rfl
  obtain ⟨t, ht, -⟩ := exists_eq_ok_of_map hcell
  rw [outcome_build, Updater.renew_eq]
  exact congrArg (fun x => ((x.mapError Failure.error).map Updater.overlay).isOk) ht

/-- Where there are ports with counted queues and nothing fails, every table can be built. -/
theorem isOk_build_of_queues (b : Blueprint) :
    (b.build (deviceOfQueues "Ethernet0" "Ethernet8" ":3")).outcome.isOk = true := by
  cases b with
  | interfaces | neighbours | forwarding | routes | sensors | queueStats => decide +kernel
  | power origin => cases origin <;> decide +kernel
  | overlay top => exact isOk_build_overlay top rfl

end Mib.Blueprint

namespace Config.Settings

variable {out : Outside} {s : Settings}

/-- A table whose root leads an earlier one, or is led by it, is an overlay. -/
theorem pairwise_blueprints (s : Settings) :
    s.blueprints.Pairwise fun b' b =>
      (∃ top, b = .overlay top) ∨ MibTree.overlaps b'.root b.root = false := by
  obtain ⟨fixed, hsub, hplan⟩ := s.plan_eq
  have hoverlay : ∀ b ∈ (s.tables.overlays.map PlanStep.overlay).filterMap PlanStep.blueprint?,
      ∃ top, b = .overlay top := by
    intro b hb
    obtain ⟨step, hstep, hb⟩ := List.mem_filterMap.1 hb
    obtain ⟨text, -, rfl⟩ := List.mem_map.1 hstep
    obtain ⟨top, -, rfl⟩ := PlanStep.blueprint?_overlay_iff.1 hb
    exact ⟨top, rfl⟩
  rw [blueprints, hplan, List.filterMap_append]
  refine List.pairwise_append.2 ⟨?_, ?_, fun b' _ b hb => .inl (hoverlay b hb)⟩
  · have hall : (s.power.everyTable.filterMap PlanStep.blueprint?).Pairwise fun b' b =>
        MibTree.overlaps b'.root b.root = false := by
      cases s.power <;> decide
    exact (hall.sublist (hsub.filterMap _)).imp .inr
  · exact List.pairwise_of_forall_mem_list fun b' _ b hb => .inl (hoverlay b hb)

/-! ## What validation says about overlays -/

theorem overlays_of_check {namespaces : List NamespaceSettings}
    (h : (s.check namespaces).outcome = .ok ()) :
    ∀ text ∈ s.tables.overlays, ∃ top, overlayRoot text = .ok top := by
  simp only [check] at h
  split at h
  · cases h
  obtain ⟨-, -, h⟩ := Load.outcome_bind_eq_ok_iff.1 h
  split at h
  · cases h
  split at h
  · cases h
  cases hfind : s.tables.overlays.find? fun text => !(overlayRoot text).isOk with
  | some text =>
    rw [hfind] at h
    cases h
  | none =>
    intro text htext
    have hread := List.find?_eq_none.1 hfind text htext
    exact exists_eq_ok_of_isOk (by simpa using hread)

theorem overlays_of_validate {read : TextReader Id}
    (h : (Id.run (s.validate read)).outcome = .ok ()) :
    ∀ text ∈ s.tables.overlays, ∃ top, overlayRoot text = .ok top := by
  obtain ⟨namespaces, -, hcheck⟩ := check_of_validate h
  exact overlays_of_check hcheck

/-! ## The configuration errors that are left -/

theorem exists_blueprint_of_tablesOf {steps : List PlanStep} {v : Updater}
    (h : v ∈ tablesOf out steps) :
    ∃ b ∈ steps.filterMap PlanStep.blueprint?, v.top = b.root := by
  obtain ⟨step, hstep, hv⟩ := List.mem_filterMap.1 h
  obtain ⟨b, hb, hbuild⟩ := Option.bind_eq_some_iff.1 hv
  exact ⟨b, List.mem_filterMap.2 ⟨step, hstep, hb⟩,
    (Blueprint.top_of_build (toOption_eq_some_iff.1 hbuild)).1⟩

/-- Where a step is blocked, its table meets one that is asked for earlier. -/
theorem exists_earlier_of_blocked {R : Blueprint → Blueprint → Prop}
    (hR : s.blueprints.Pairwise R) {earlier later : List PlanStep} {step : PlanStep}
    (hplan : s.plan = earlier ++ step :: later) {b : Blueprint} (hb : step.blueprint? = some b)
    {u v : Updater} (hbuild : (b.build out).outcome = .ok u)
    (hway : MibTree.InWay (tablesOf out earlier) u v) :
    ∃ b', R b' b ∧ MibTree.overlaps b'.root b.root = true := by
  obtain ⟨hv, hover, -⟩ := hway
  obtain ⟨b', hb', hvtop⟩ := exists_blueprint_of_tablesOf hv
  rw [blueprints, hplan, List.filterMap_append, List.filterMap_cons_some hb] at hR
  obtain ⟨-, -, hcross⟩ := List.pairwise_append.1 hR
  refine ⟨b', hcross b' hb' b List.mem_cons_self, ?_⟩
  rw [← hvtop, ← (Blueprint.top_of_build hbuild).1]
  exact hover

/-- A step that is blocked is about an overlay. -/
theorem overlay_of_blocked {earlier later : List PlanStep} {step : PlanStep}
    (hplan : s.plan = earlier ++ step :: later) {b : Blueprint} (hb : step.blueprint? = some b)
    {u v : Updater} (hbuild : (b.build out).outcome = .ok u)
    (hway : MibTree.InWay (tablesOf out earlier) u v) :
    ∃ text top, step = .overlay text ∧ overlayRoot text = .ok top ∧ b = .overlay top := by
  obtain ⟨b', hlate, hmeet⟩ :=
    exists_earlier_of_blocked s.pairwise_blueprints hplan hb hbuild hway
  obtain ⟨top, rfl⟩ : ∃ top, b = .overlay top := hlate.resolve_right (by simp [hmeet])
  have hstep : step ∈ s.plan := by simp [hplan]
  rcases mem_plan hstep with ⟨b, rfl, hfixed⟩ | rfl | ⟨text, -, rfl⟩
  · exact absurd (Option.some.inj hb) (hfixed top)
  · cases hb
  · obtain ⟨top', hroot, hsame⟩ := PlanStep.blueprint?_overlay_iff.1 hb
    exact ⟨text, top', rfl, hroot, hsame⟩

/-- With readable overlays a configuration error is about an overlay that meets a table registered
before. -/
theorem buildTree_config_iff (h : ∀ text ∈ s.tables.overlays, ∃ top, overlayRoot text = .ok top)
    {c : ConfigFault} :
    (buildTree s out).outcome = .error (.error (.config c)) ↔
      ∃ earlier text later top u v, s.plan = earlier ++ .overlay text :: later ∧
        Passes out earlier ∧ overlayRoot text = .ok top ∧
        ((Blueprint.overlay top).build out).outcome = .ok u ∧
        MibTree.InWay (tablesOf out earlier) u v ∧ c = .overlap "overlay" top v.name v.top := by
  rw [outcome_buildTree, run_error_iff]
  constructor
  · rintro ⟨earlier, step, later, hplan, hpasses, hstops⟩
    generalize he : Failure.error (.config c) = e at hstops
    cases hstops with
    | failed _ _ hfatal =>
      rw [← he] at hfatal
      cases hfatal
    | @unreadable text _ hroot =>
      obtain ⟨top, htop⟩ := h text (overlay_mem_plan_iff.1 (by simp [hplan]))
      rw [htop] at hroot
      cases hroot
    | @blocked _ b u v hb hbuild hway =>
      obtain ⟨text, top, rfl, hroot, rfl⟩ := overlay_of_blocked hplan hb hbuild hway
      obtain ⟨htop, hname⟩ := Blueprint.top_of_build hbuild
      refine ⟨earlier, text, later, top, u, v, hplan, hpasses, hroot, hbuild, hway, ?_⟩
      rw [AgentError.config.inj (Failure.error.inj he), htop, hname]
      rfl
  · rintro ⟨earlier, text, later, top, u, v, hplan, hpasses, hroot, hbuild, hway, rfl⟩
    refine ⟨earlier, _, later, hplan, hpasses, ?_⟩
    obtain ⟨htop, hname⟩ := Blueprint.top_of_build hbuild
    have hb := PlanStep.blueprint?_overlay_iff.2 ⟨top, hroot, rfl⟩
    have hstops := PlanStep.Stops.blocked hb hbuild hway
    rw [htop, hname] at hstops
    exact hstops

/-- Where every table can be built and no configuration error ends the start, no two tables meet. -/
theorem pairwise_of_all_built (hall : ∀ b : Blueprint, (b.build out).outcome.isOk = true)
    (hnone : ∀ c, (buildTree s out).outcome ≠ .error (.error (.config c))) :
    s.blueprints.Pairwise fun b b' => MibTree.overlaps b.root b'.root = false := by
  cases hrun : (buildTree s out).outcome with
  | error e =>
    have hstop := hrun
    rw [outcome_buildTree, run_error_iff] at hstop
    obtain ⟨_, step, _, -, -, hstops⟩ := hstop
    cases hstops with
    | @failed _ b _ _ hfailed _ =>
      have hbuilt := hall b
      rw [hfailed] at hbuilt
      cases hbuilt
    | unreadable _ => exact absurd hrun (hnone _)
    | blocked _ _ _ => exact absurd hrun (hnone _)
  | ok tree =>
    rw [outcome_buildTree] at hrun
    obtain ⟨harr, hperm⟩ := run_ok MibTree.arranged_empty hrun
    have hapart : (tablesOf out s.plan).Pairwise MibTree.Apart :=
      (hperm.pairwise_iff fun h => symm h).1 harr.apart
    rw [tablesOf_plan, List.pairwise_filterMap] at hapart
    refine hapart.imp fun {b b'} hapart => ?_
    obtain ⟨u, hu⟩ := exists_eq_ok_of_isOk (hall b)
    obtain ⟨u', hu'⟩ := exists_eq_ok_of_isOk (hall b')
    rw [← (Blueprint.top_of_build hu).1, ← (Blueprint.top_of_build hu').1]
    exact hapart u (toOption_eq_some_iff.2 hu) u' (toOption_eq_some_iff.2 hu')

/-- With validated settings one configuration error can still end the start: an overlay meets a
table that is registered before it. No store brings this about just when the roots of the tables
that the settings ask for do not lead each other. -/
theorem configError_iff_of_validate {read : TextReader Id} {s : Settings}
    (h : (Id.run (s.validate read)).outcome = .ok ()) :
    (∀ out c, (buildTree s out).outcome = .error (.error (.config c)) ↔
      ∃ earlier text later top u v, s.plan = earlier ++ .overlay text :: later ∧
        Passes out earlier ∧ overlayRoot text = .ok top ∧
        ((Blueprint.overlay top).build out).outcome = .ok u ∧
        MibTree.InWay (tablesOf out earlier) u v ∧ c = .overlap "overlay" top v.name v.top) ∧
    ((∀ out c, (buildTree s out).outcome ≠ .error (.error (.config c))) ↔
      s.blueprints.Pairwise fun b b' => MibTree.overlaps b.root b'.root = false) := by
  have hread := overlays_of_validate h
  refine ⟨fun out c => buildTree_config_iff hread, fun hnone => ?_, fun hpairs out c hconfig => ?_⟩
  · exact pairwise_of_all_built Blueprint.isOk_build_of_queues (hnone _)
  · obtain ⟨earlier, text, later, top, u, v, hplan, -, hroot, hbuild, hway, -⟩ :=
      (buildTree_config_iff hread).1 hconfig
    have hb := PlanStep.blueprint?_overlay_iff.2 ⟨top, hroot, rfl⟩
    obtain ⟨b', hapart, hmeet⟩ := exists_earlier_of_blocked hpairs hplan hb hbuild hway
    rw [hmeet] at hapart
    cases hapart

/-- Every table and two overlays that do not lead each other: no store brings about a configuration
error. -/
theorem configError_ne_of_two_overlays :
    let s : Settings := { standard with tables :=
      { TableSettings.standard with overlays := ["1.3.6.1.4.1.6027.3", ".1.3.6.1.4.1.6027.20"] } }
    (∀ read : TextReader Id, (Id.run (s.validate read)).outcome = .ok ()) ∧
      (s.blueprints.Pairwise fun b b' => MibTree.overlaps b.root b'.root = false) ∧
      ∀ out c, (buildTree s out).outcome ≠ .error (.error (.config c)) := by
  intro s
  have hvalid : ∀ read : TextReader Id, (Id.run (s.validate read)).outcome = .ok () :=
    fun _ => rfl
  have hpairs : s.blueprints.Pairwise fun b b' => MibTree.overlaps b.root b'.root = false := by
    decide +kernel
  exact ⟨hvalid, hpairs,
    (configError_iff_of_validate (hvalid fun _ => .error .notFound)).2.2 hpairs⟩

/-- The interface table and an overlay below it are accepted. The agent starts on a host without
ports, where the interface table is left out, and does not start on one with a port. -/
theorem configError_of_overlay_below_interfaces :
    let s : Settings := { standard with tables :=
      { TableSettings.standard with
        neighbours := false, forwarding := false, routes := false, power := false
        sensors := false, queues := false, overlays := ["1.3.6.1.2.1.2.2"] } }
    let fault : ConfigFault :=
      .overlap "overlay" ⟨[1, 3, 6, 1, 2, 1, 2, 2]⟩ "interfaces" Interfaces.top
    (∀ read : TextReader Id, (Id.run (s.validate read)).outcome = .ok ()) ∧
    (∃ tree, (buildTree s bareHost).outcome = .ok tree ∧
      tree.mibs.map Updater.name = ["overlay"]) ∧
    (buildTree s (Session.worldOfPort "Ethernet0")).outcome = .error (.error (.config fault)) ∧
    ¬ ∀ (read : TextReader Id) (s : Settings), (Id.run (s.validate read)).outcome = .ok () →
      ∀ out c, (buildTree s out).outcome ≠ .error (.error (.config c)) := by
  intro s fault
  have hvalid : ∀ read : TextReader Id, (Id.run (s.validate read)).outcome = .ok () :=
    fun _ => rfl
  have hnames : (buildTree s bareHost).outcome.map (fun tree => tree.mibs.map Updater.name) =
      .ok ["overlay"] := by decide +kernel
  have hfault : (buildTree s (Session.worldOfPort "Ethernet0")).outcome.map
      (fun tree => tree.mibs.map Updater.name) = .error (.error (.config fault)) := by decide +kernel
  have hfault := eq_error_of_map hfault
  exact ⟨hvalid, exists_eq_ok_of_map hnames, hfault,
    fun hall => hall (fun _ => .error .notFound) s (hvalid _) _ _ hfault⟩

end Config.Settings

end SwitchMib
