import SwitchMib.Agent
import SwitchMib.Proofs.Log
import SwitchMib.Proofs.Mib.Unseen

/-!
# The agent and what it does not see of the host

An agent is built in one world and then serves it: the world changes, tables refresh and
reinitialise, managers ask. On a device with chips nobody can tell from the agent what the chip
databases of the host hold or which reads of them fail, neither at the start nor at any time after.

* `Operation`, `Service`, `Service.step`, `Service.answers`: an agent at work and all it answers.
* `Operation.unseen`: a change to a chip database of the host.
* `Service.step_sameBesidesHost`: one operation.
* `Service.host_unseen`: the start and every sequence of operations.
-/

namespace SwitchMib
set_option autoImplicit false

open Config Mib Snmp Store

inductive Operation where
  /-- Something happens to one of the namespaces. -/
  | edit (i : Nat) (e : Edit)
  | neighbours (file : Except FileFault String)
  | platform (source : PowerSource)
  | refresh (chosen : String → Bool)
  | reinit (chosen : String → Bool)
  | tick (rate : UInt32) (n : Nat)
  | get (oid : Oid)
  | getNext (oid : Oid)
  | walk
  | valueIn (table : String) (sub : SubId)
  | nextIn (table : String) (sub : SubId)

inductive Answer where
  | reports (reports : List Report)
  | value (value : Option Value)
  | row (row : Option (Oid × Value))
  | rows (rows : List (Oid × Value))
  | place (sub : Option SubId)
  | noTable
  deriving DecidableEq

/-- An agent and the world that it serves. -/
structure Service where
  world : Outside
  agent : Agent

namespace Service

/-- An answer, with what is told meanwhile, and the service with the agent that is left. -/
def answering {α : Type} (s : Service) (f : α → Answer) (x : Logged (α × Agent)) :
    Option (Logged Answer) × Service :=
  (some ⟨f x.value.1, x.events⟩, { s with agent := x.value.2 })

/-- What happens to the world is not answered. -/
def step (s : Service) : Operation → Option (Logged Answer) × Service
  | .edit i e =>
    (none, { s with world := { s.world with namespaces := s.world.namespaces.edit i e } })
  | .neighbours file => (none, { s with world := { s.world with neighbours := file } })
  | .platform source => (none, { s with world := { s.world with platform := source } })
  | .refresh chosen => s.answering .reports (refreshTables s.world chosen s.agent)
  | .reinit chosen => s.answering .reports (reinitTables s.world chosen s.agent)
  | .tick rate n => s.answering .reports (tickTables s.world rate n s.agent)
  | .get oid => s.answering .value (s.agent.askGet oid)
  | .getNext oid => s.answering .row (s.agent.askNext oid)
  | .walk => s.answering .rows s.agent.askWalk
  | .valueIn table sub =>
    match s.agent.askValueIn table sub with
    | some x => s.answering .value x
    | none => (some (pure .noTable), s)
  | .nextIn table sub =>
    match s.agent.askNextIn table sub with
    | some next => (some (pure (.place next)), s)
    | none => (some (pure .noTable), s)

/-- All answers, in order. -/
def answers : Service → List Operation → List (Logged Answer)
  | _, [] => []
  | s, op :: ops => (s.step op).1.toList ++ (s.step op).2.answers ops

end Service

/-! ## The start -/

section World

variable {out out' : Outside}

theorem installStep_congr (h : out.SameBesidesHost out') : installStep out = installStep out' := by
  have htable : installTable out = installTable out' := by
    funext tree blueprint
    rw [installTable, installTable, Blueprint.build_congr h]
  funext tree planned
  unfold installStep
  rw [htable]

theorem buildTree_congr (h : out.SameBesidesHost out') (settings : Settings) :
    buildTree settings out = buildTree settings out' := by
  rw [buildTree, buildTree, installStep_congr h]

theorem Mib.Updater.upkeep_congr (h : out.SameBesidesHost out') :
    Updater.upkeep out = Updater.upkeep out' := by
  rw [upkeep, upkeep, reinit_congr h, refresh_congr h]

end World

/-! ## One operation -/

/-- The operation changes a database with the state of a chip in the host. -/
def Operation.unseen : Operation → Bool
  | .edit 0 e => e.ofChip
  | _ => false

namespace Service

structure SameBesidesHost (s s' : Service) : Prop where
  world : s.world.SameBesidesHost s'.world
  agent : s.agent = s'.agent

variable {s s' : Service}

theorem SameBesidesHost.right (h : s.SameBesidesHost s') : s'.SameBesidesHost s' :=
  ⟨⟨h.world.namespaces.right, rfl, rfl⟩, rfl⟩

theorem SameBesidesHost.answering {α : Type} (h : s.SameBesidesHost s') (f : α → Answer)
    {x x' : Logged (α × Agent)} (hx : x = x') :
    (s.answering f x).1 = (s'.answering f x').1 ∧
      (s.answering f x).2.SameBesidesHost (s'.answering f x').2 := by
  subst hx
  exact ⟨rfl, h.world, rfl⟩

/-- The same operation is answered alike, and the services stay alike. -/
theorem step_sameBesidesHost (h : s.SameBesidesHost s') (op : Operation) :
    (s.step op).1 = (s'.step op).1 ∧ (s.step op).2.SameBesidesHost (s'.step op).2 := by
  obtain ⟨hworld, hagent⟩ := h
  cases op with
  | edit i e =>
    exact ⟨rfl, ⟨hworld.namespaces.edit i e, hworld.neighbours, hworld.platform⟩, hagent⟩
  | neighbours file => exact ⟨rfl, ⟨hworld.namespaces, rfl, hworld.platform⟩, hagent⟩
  | platform source => exact ⟨rfl, ⟨hworld.namespaces, hworld.neighbours, rfl⟩, hagent⟩
  | refresh chosen =>
    refine SameBesidesHost.answering ⟨hworld, hagent⟩ .reports ?_
    rw [refreshTables, refreshTables, Updater.upkeep_congr hworld, hagent]
  | reinit chosen =>
    refine SameBesidesHost.answering ⟨hworld, hagent⟩ .reports ?_
    rw [reinitTables, reinitTables, Updater.upkeep_congr hworld, hagent]
  | tick rate n =>
    refine SameBesidesHost.answering ⟨hworld, hagent⟩ .reports ?_
    rw [tickTables, tickTables, Updater.upkeep_congr hworld, hagent]
  | get oid => exact SameBesidesHost.answering ⟨hworld, hagent⟩ .value (by rw [hagent])
  | getNext oid => exact SameBesidesHost.answering ⟨hworld, hagent⟩ .row (by rw [hagent])
  | walk => exact SameBesidesHost.answering ⟨hworld, hagent⟩ .rows (by rw [hagent])
  | valueIn table sub =>
    simp only [step, hagent]
    cases s'.agent.askValueIn table sub with
    | none => exact ⟨rfl, hworld, hagent⟩
    | some x => exact SameBesidesHost.answering ⟨hworld, hagent⟩ .value rfl
  | nextIn table sub =>
    simp only [step, hagent]
    cases s'.agent.askNextIn table sub <;> exact ⟨rfl, hworld, hagent⟩

/-- An unseen operation is not answered, and leaves a service alike. -/
theorem step_unseen (h : s.SameBesidesHost s') {op : Operation} (hop : op.unseen = true) :
    (s.step op).1 = none ∧ (s.step op).2.SameBesidesHost s' := by
  cases op with
  | edit i e =>
    cases i with
    | zero =>
      have hhost := h.world.namespaces.edit_left hop
      exact ⟨rfl, ⟨hhost, h.world.neighbours, h.world.platform⟩, h.agent⟩
    | succ i => cases hop
  | _ => cases hop

/-! ## Every sequence of operations -/

/-- Operations that are not seen can be left out on one side. -/
theorem answers_filter (h : s.SameBesidesHost s') (ops : List Operation) :
    s.answers ops = s'.answers (ops.filter fun op => !op.unseen) := by
  induction ops generalizing s s' with
  | nil => rfl
  | cons op ops ih =>
    cases hop : op.unseen with
    | true =>
      obtain ⟨hsilent, hafter⟩ := step_unseen h hop
      rw [List.filter_cons_of_neg (by simp [hop]), answers, hsilent]
      exact ih hafter
    | false =>
      obtain ⟨hanswer, hafter⟩ := step_sameBesidesHost h op
      rw [List.filter_cons_of_pos (by simp [hop]), answers, answers, hanswer, ih hafter]

/-- Where worlds with chips differ in the chip databases of the host only, an agent is built with
the same outcome, and has the same answers to operations that are the same but for what happens to
these databases. A host that is alone is what is read instead. -/
theorem host_unseen (settings : Settings) :
    (∀ out out' : Outside, out.SameBesidesHost out' →
      buildTree settings out = buildTree settings out' ∧
      ∀ (agent : Agent) (ops ops' : List Operation),
        (ops.filter fun op => !op.unseen) = ops'.filter (fun op => !op.unseen) →
        (Service.mk out agent).answers ops = (Service.mk out' agent).answers ops') ∧
    ∀ host : Namespace, let alone : Namespaces := ⟨host, []⟩
      alone.members = [host] ∧
      ∀ (db : Database) (pattern key : String),
        (alone.keys db pattern).strict = host.keys db pattern ∧
        (alone.getAll db key).strict = Namespaces.readHash db key host := by
  refine ⟨fun out out' h => ⟨buildTree_congr h settings, fun agent ops ops' hops => ?_⟩,
    fun host => ⟨rfl, fun db pattern key => ?_⟩⟩
  · have hsame : (Service.mk out agent).SameBesidesHost ⟨out', agent⟩ := ⟨h, rfl⟩
    rw [answers_filter hsame, answers_filter hsame.right ops', hops]
  · obtain ⟨hkeys, hget⟩ := Namespaces.alone_reads host db
    exact ⟨hkeys pattern, hget key⟩

/-- A device with a chip whose port has a name, beside a host. -/
def besideChip (host : Namespace) : Outside where
  namespaces := ⟨host, [(Namespace.empty "asic0").setFields .counters Schema.portNameMap
    [("Ethernet0", "oid:0x1000000000001")]]⟩
  neighbours := .ok ""
  platform := ⟨.ok 0, fun _ => .ok false, fun _ => .ok false⟩

/-- Ports that the host knows or gets, and its reads that fail, go unnoticed; a port that the chip
gets is counted. -/
theorem host_unseen_of_ports :
    let ports : Edit :=
      .setFields .counters Schema.portNameMap [("Ethernet0", "oid:0x2"), ("Ethernet4", "oid:0x3")]
    let fault : Edit := .addFault ⟨.getAll, .counters, none⟩
    let known := besideChip (fault.apply (ports.apply (.empty "")))
    let bare := besideChip (.empty "")
    let more : Edit := .setFields .counters Schema.portNameMap [("Ethernet8", "oid:0x4")]
    let ops := [.edit 1 more, .reinit fun _ => true, .refresh fun _ => true,
      .get ⟨[1, 3, 6, 1, 2, 1, 2, 1, 0]⟩]
    known.SameBesidesHost bare ∧
      buildTree .standard known = buildTree .standard bare ∧
      ∃ agent, (buildTree .standard known).outcome = .ok agent ∧
        (Service.mk known agent).answers (.edit 0 more :: ops) =
          (Service.mk bare agent).answers ops ∧
        agent.get ⟨[1, 3, 6, 1, 2, 1, 2, 1, 0]⟩ = some (.integer 1) ∧
        ((Service.mk bare agent).answers ops)[2]?.map (·.value) =
          some (.value (some (.integer 2))) := by
  intro ports fault known bare more ops
  have hhost := (Namespace.SameBesidesChip.refl (.empty "")).edit_left (e := ports) rfl
  have hsame : known.SameBesidesHost bare :=
    ⟨⟨rfl, by decide, hhost.edit_left (e := fault) rfl⟩, rfl, rfl⟩
  obtain ⟨hbuild, hanswers⟩ := (host_unseen .standard).1 known bare hsame
  have hanswer : (buildTree .standard known).outcome.map (fun agent =>
      (agent.get ⟨[1, 3, 6, 1, 2, 1, 2, 1, 0]⟩,
        ((Service.mk bare agent).answers ops)[2]?.map (·.value))) =
      .ok (some (.integer 1), some (.value (some (.integer 2)))) := by decide +kernel
  obtain ⟨agent, hagent, hanswer⟩ := exists_eq_ok_of_map hanswer
  obtain ⟨hcount, hlast⟩ := Prod.mk.inj hanswer
  exact ⟨hsame, hbuild, agent, hagent, hanswers agent _ _ rfl, hcount, hlast⟩

end Service

end SwitchMib
