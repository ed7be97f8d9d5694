import SwitchMib.Proofs.Identity.Ignored
import SwitchMib.Proofs.Mib.Learned
import SwitchMib.Proofs.Mib.ToldOnce

/-!
# Rows that are ignored

Loads and reads tell of a row that they ignore whenever they meet it, and no memory keeps them from
telling it again. So in a world that does not change, a name that a load ignores is told in the
building of a table and in every reinit, and a transceiver that a refresh ignores in every refresh.

* `Blueprint.Ignores`: the rows of a store that a table ignores, by the messages that tell of them.
* `Blueprint.loaded`, `Session.Settled`: what a reinit makes of a table, and a table of which it
  makes nothing else.
* `Session.ignores_iff`: the messages about ignored rows that a table tells.
* `Session.count_log`, `Session.count_life`: how often it tells them.
* `Session.repeats_iff_ignores`: it tells them again and again just when there are any.
-/

namespace SwitchMib.Mib
set_option autoImplicit false

open Identity Snmp Store

/-! ## What tables ignore -/

/-- A transceiver is in a port that no port name map has, as the message says. -/
def Sensors.Ignores (n : Namespaces) (e : Event) : Prop :=
  ∃ port, n.Stores .state (transceiverLead ++ port) ∧
    (∀ ns ∈ n.members, ∀ index, ¬ PortMaps.Named ns port index) ∧ e = .transceiverUnknown port

theorem unknownPort_iff {n : Namespaces} {ports : PortMaps}
    (hports : (PortMaps.loadAll n).outcome = .ok ports) (port : String) :
    ports.indexByName.get? port = none ↔
      ∀ ns ∈ n.members, ∀ index, ¬ PortMaps.Named ns port index := by
  rw [← PortMaps.loadAllBy_visit] at hports
  have hindex := (PortMaps.inStep_of_loadAllBy hports).index_iff port
  rw [Option.eq_none_iff_forall_ne_some]
  constructor
  · rintro hnone ns hns index ⟨hmem, hclass⟩
    have hport := PortMaps.portIndex?_eq_some_iff.2 hclass
    exact hnone index ((hindex index).2 ⟨List.mem_flatMap.2 ⟨ns, hns, hmem⟩, hport⟩)
  · intro hnone index hknown
    obtain ⟨hmem, hport⟩ := (hindex index).1 hknown
    obtain ⟨ns, hns, hmem⟩ := List.mem_flatMap.1 hmem
    exact hnone ns hns index ⟨hmem, PortMaps.portIndex?_eq_some_iff.1 hport⟩

section Ignored

variable {n : Namespaces} {ports : PortMaps} {e : Event} (he : e.kind = .ignored)
include he

theorem not_mem_events_serve {α : Type} (a : Aggregated α) (context : String) :
    e ∉ (a.serve context).events := fun hmem =>
  Logged.tells_serve (K := (· ≠ .ignored)) (by decide) a context e hmem he

theorem mem_events_addTransceiver (readings : Dict UInt32 Reading) (key : String) :
    e ∈ (addTransceiver SensorKind.encode n ports readings key).events ↔
      ∃ port, key = transceiverLead ++ port ∧ ports.indexByName.get? port = none ∧
        e = .transceiverUnknown port := by
  simp only [← Text.after?_eq_some_iff]
  rw [addTransceiver]
  cases Text.after? transceiverLead key with
  | none => simp
  | some port =>
    simp only [Option.some.injEq, exists_eq_left']
    cases ports.indexByName.get? port with
    | none =>
      show e ∈ [_] ++ [] ↔ _
      rw [List.append_nil, List.mem_singleton, and_iff_right rfl]
    | some index =>
      simp only [Logged.events_bind, Logged.events_pure, List.append_nil]
      exact iff_of_false (not_mem_events_serve he _ _) fun hbad => by cases hbad.1

theorem mem_events_readSensors (h : n.Healthy)
    (hports : (PortMaps.loadAll n).outcome = .ok ports) :
    e ∈ (readSensors SensorKind.encode n ports).events ↔ Sensors.Ignores n e := by
  have hlead : '\n' ∉ transceiverLead.toList := by decide
  rw [readSensors, Logged.events_bind, List.mem_append, or_iff_right (not_mem_events_serve he _ _),
    Logged.mem_events_foldlM (mem_events_addTransceiver he), Sensors.Ignores]
  simp only [← unknownPort_iff hports, ← Namespaces.mem_keys_lead_iff h hlead]
  constructor
  · rintro ⟨_, hkey, port, rfl, hport, hevent⟩
    exact ⟨port, hkey, hport, hevent⟩
  · rintro ⟨port, hkey, hport, hevent⟩
    exact ⟨_, hkey, port, rfl, hport, hevent⟩

end Ignored

/-- The rows of a store that a table ignores, by the messages that tell of them. -/
def Blueprint.Ignores (n : Namespaces) : Blueprint → Event → Prop
  | .interfaces, e => (∃ ns ∈ n.members, PortMaps.Ignores ns e) ∨ ManagementMaps.Ignores n.host e
  | .forwarding, e => ∃ ns ∈ n.members, PortMaps.Ignores ns e
  | .sensors, e => (∃ ns ∈ n.members, PortMaps.Ignores ns e) ∨ Sensors.Ignores n e
  | .queueStats, e => ∃ ns ∈ n.members, QueueMaps.Ignores ns e
  | _, _ => False

/-- Only the reads of the sensors ignore anything. -/
theorem Updater.not_ignored_of_mem_readEvents {out : Outside} {u : Updater}
    (hu : u.blueprint ≠ .sensors) : ∀ e ∈ u.readEvents out, e.kind ≠ .ignored := by
  have hunread : Event.Kind.unread ≠ .ignored := nofun
  have hremembered : Event.Kind.remembered ≠ .ignored := nofun
  cases u with
  | interfaces t => exact InterfaceSnapshot.tells_read (K := (· ≠ .ignored)) _ hunread _
  | forwarding t =>
    exact tells_readForwarding (K := (· ≠ .ignored)) _ hunread hremembered _ _
  | routes t => exact Logged.tells_foldlM (K := (· ≠ .ignored)) (tells_addHops hunread) _ _
  | sensors t => exact absurd rfl hu
  | queueStats t => exact tells_readQueues (K := (· ≠ .ignored)) _ hunread hremembered _ _
  | power t => exact tells_pollAll (K := (· ≠ .ignored)) hunread _
  | _ => exact fun e he => by cases he

/-! ## Identities that stay -/

/-- The table that has loaded its identity and nothing else. -/
def Blueprint.loaded (out : Outside) : Blueprint → Except AgentError Updater
  | .interfaces => (InterfaceMaps.load out.namespaces).outcome.map fun identity =>
    .interfaces ⟨identity, .fresh .empty, .fresh⟩
  | .forwarding => (ForwardingMaps.load out.namespaces .fresh).value.1.map fun identity =>
    .forwarding ⟨identity, .fresh .empty, .fresh, .fresh⟩
  | .sensors => (PortMaps.loadAll out.namespaces).outcome.map fun ports =>
    .sensors ⟨ports, .fresh .empty⟩
  | .queueStats => (QueueMaps.loadAll out.namespaces).outcome.map fun queues =>
    .queueStats ⟨queues, .fresh .empty, .fresh⟩
  | b => .ok b.blank

namespace Updater

theorem unread_of_reinit (out : Outside) (u : Updater) :
    (u.reinit out).value.table.map unread = u.blueprint.loaded out := by
  cases u with
  | interfaces t =>
    show ((t.reinit out).value.map interfaces).table.map unread = _
    rw [Attempt.table_map, Interfaces.table_reinit, blueprint, Blueprint.loaded]
    cases (InterfaceMaps.load out.namespaces).outcome <;> rfl
  | forwarding t =>
    show ((t.reinit out).value.map forwarding).table.map unread = _
    rw [Attempt.table_map, Forwarding.table_reinit, blueprint, Blueprint.loaded]
    simp only
    rw [ForwardingMaps.load_value]
    cases (ForwardingMaps.load out.namespaces .fresh).value.1 <;> rfl
  | sensors t =>
    show ((t.reinit out).value.map sensors).table.map unread = _
    rw [Attempt.table_map, Sensors.table_reinit, blueprint, Blueprint.loaded]
    cases (PortMaps.loadAll out.namespaces).outcome <;> rfl
  | queueStats t =>
    show ((t.reinit out).value.map queueStats).table.map unread = _
    rw [Attempt.table_map, QueueStats.table_reinit, blueprint, Blueprint.loaded]
    cases (QueueMaps.loadAll out.namespaces).outcome <;> rfl
  | _ => rfl

theorem blueprint_unread (u : Updater) : u.unread.blueprint = u.blueprint := by
  cases u <;> rfl

/-- What reads tell of rows that they ignore does not hinge on what was complained about. -/
theorem count_readEvents_unread {e : Event} (he : e.kind = .ignored) (out : Outside)
    (u : Updater) : (u.unread.readEvents out).count e = (u.readEvents out).count e := by
  have hzero : ∀ v : Updater, v.blueprint ≠ .sensors → (v.readEvents out).count e = 0 :=
    fun v hv => List.count_eq_zero.2 fun hmem => not_ignored_of_mem_readEvents hv e hmem he
  by_cases hu : u.blueprint = .sensors
  · cases u with
    | sensors t => rfl
    | _ => cases hu
  · exact (hzero _ (u.blueprint_unread.symm ▸ hu)).trans (hzero _ hu).symm

end Updater

/-- No turn changes the world. -/
def Turn.Still (turns : List Turn) : Prop := ∀ out, .change out ∉ turns

def Turn.isReinit : Turn → Bool
  | .reinit => true
  | _ => false

def Turn.isRefresh : Turn → Bool
  | .refresh => true
  | _ => false

namespace Session

/-- A reinit makes nothing else of the table. -/
def Settled (s : Session) : Prop := s.table.blueprint.loaded s.world = .ok s.table.unread

theorem Settled.of_unread {s t : Session} (h : s.Settled) (hworld : t.world = s.world)
    (hunread : t.table.unread = s.table.unread) : t.Settled := by
  have hkind : t.table.blueprint = s.table.blueprint := by
    rw [← Updater.blueprint_unread, hunread, Updater.blueprint_unread]
  rw [Settled, hworld, hunread, hkind]
  exact h

theorem Settled.step {s : Session} (h : s.Settled) {turn : Turn}
    (hturn : ∀ out, turn ≠ .change out) :
    (s.step turn).world = s.world ∧ (s.step turn).table.unread = s.table.unread := by
  cases turn with
  | change out => exact absurd rfl (hturn out)
  | refresh => exact ⟨rfl, s.table.unread_refresh s.world⟩
  | reinit =>
    have hreinit := (s.table.unread_of_reinit s.world).trans h
    obtain ⟨u, hu, hunread⟩ := exists_eq_ok_of_map hreinit
    obtain ⟨-, hafter⟩ := Attempt.table_eq_ok_iff.1 hu
    exact ⟨rfl, (congrArg Updater.unread hafter).trans hunread⟩
  | query sub => exact ⟨rfl, s.table.unread_noteRead sub⟩

/-- A new table has its identity from a reinit. -/
theorem settled_of_opened {s : Session} {b : Blueprint} (hs : s.Opened b) : s.Settled := by
  have hkind : s.table.blueprint = b := blueprint_run hs []
  rw [Opened, Blueprint.outcome_build] at hs
  obtain ⟨hreinit, -, hafter⟩ := (Updater.renew_eq_ok_iff s.world).1 hs
  have hunread : s.table.unread = (b.blank.reinit s.world).value.after.unread :=
    hafter ▸ Updater.unread_refresh s.world _
  have hblank := b.blank.unread_of_reinit s.world
  rw [b.blueprint_blank] at hblank
  rw [Settled, hkind, hunread, ← hblank]
  exact congrArg (Except.map Updater.unread) (Attempt.table_eq_ok_iff.2 ⟨hreinit, rfl⟩)

/-! ## How often an ignored row is told -/

/-- What a table ignores is told by its loads, or by its reads. -/
theorem ignores_iff {s : Session} {b : Blueprint} (h : s.world.namespaces.Healthy)
    (hs : s.Opened b) {e : Event} (he : e.kind = .ignored) :
    b.Ignores s.world.namespaces e ↔
      e ∈ b.loadEvents s.world ∨ e ∈ s.table.readEvents s.world := by
  have hkind : s.table.blueprint = b := blueprint_run hs []
  have hloaded := settled_of_opened hs
  rw [Settled, hkind] at hloaded
  have hquiet : b ≠ .sensors → e ∉ s.table.readEvents s.world :=
    fun hb hmem => Updater.not_ignored_of_mem_readEvents (hkind ▸ hb) e hmem he
  have hdropped : ∀ {ports}, (PortMaps.loadAll s.world.namespaces).outcome = .ok ports →
      (e ∈ (PortMaps.loadAll s.world.namespaces).events ↔
        ∃ ns ∈ s.world.namespaces.members, PortMaps.Ignores ns e) :=
    Load.mem_events_merged fun _ _ hload => PortMaps.mem_events_load hload e
  cases b with
  | interfaces =>
    obtain ⟨identity, hidentity, -⟩ := exists_eq_ok_of_map hloaded
    rw [or_iff_left (hquiet nofun)]
    exact (InterfaceMaps.mem_events_load hidentity he).symm
  | forwarding =>
    obtain ⟨identity, hidentity, -⟩ := exists_eq_ok_of_map hloaded
    rw [or_iff_left (hquiet nofun)]
    exact (hdropped (ForwardingMaps.ports_of_load hidentity)).symm
  | sensors =>
    obtain ⟨ports, hports, hunread⟩ := exists_eq_ok_of_map hloaded
    rw [← List.count_pos_iff (l := s.table.readEvents s.world),
      ← Updater.count_readEvents_unread he, ← hunread, List.count_pos_iff]
    exact (or_congr (hdropped hports) (mem_events_readSensors he h hports)).symm
  | queueStats =>
    obtain ⟨queues, hqueues, -⟩ := exists_eq_ok_of_map hloaded
    rw [or_iff_left (hquiet nofun)]
    exact (Load.mem_events_merged (fun _ _ hload => QueueMaps.mem_events_load hload e)
      hqueues).symm
  | _ =>
    rw [or_iff_left (hquiet nofun)]
    exact iff_of_false id List.not_mem_nil

section Count

variable {e : Event} (he : e.kind = .ignored)
include he

/-- What is remembered, and notices, are no messages about ignored rows. -/
theorem count_told (s : Session) (turn : Turn) : (s.told turn).count e = match turn with
    | .reinit => (s.table.blueprint.loadEvents s.world).count e
    | .refresh => (s.table.readEvents s.world).count e
    | _ => 0 := by
  obtain ⟨hpassing, hlasting⟩ := Ledger.enters_raised s turn
  have hnews : ∀ (m : Once String) (l : List (String × Event)),
      (∀ c ∈ l, c.2.kind = .remembered) → ((m.news l).map Prod.snd).count e = 0 := by
    intro m l hl
    refine List.count_eq_zero.2 fun hmem => ?_
    obtain ⟨c, hc, rfl⟩ := List.mem_map.1 hmem
    rw [hl c (Once.mem_of_mem_news hc).1] at he
    cases he
  have hlasting := fun m => hnews m _ fun c hc => Ledger.kind_of_lasting _ (hlasting c hc).2
  cases turn with
  | change out => rfl
  | refresh =>
    rw [told, Updater.events_refresh, List.count_append]
    exact congrArg _ (hlasting _)
  | reinit =>
    obtain ⟨notices, hnotices, hevents⟩ := s.table.events_reinit s.world
    have hnone : notices.count e = 0 := by
      refine List.count_eq_zero.2 fun hmem => ?_
      rw [hnotices e hmem] at he
      cases he
    rw [told, hevents, List.count_append, List.count_append, hnone]
    exact congrArg _ (hlasting _)
  | query sub =>
    rw [told, Updater.events_noteRead]
    exact hnews _ _ fun c hc => Ledger.kind_of_passing _ (hpassing c hc).1

/-- In a world that does not change the loads tell it in every reinit and the reads in every
refresh. -/
theorem count_log {s : Session} (h : s.Settled) {turns : List Turn} (hstill : Turn.Still turns) :
    (s.log turns).count e =
      turns.countP Turn.isReinit * (s.table.blueprint.loadEvents s.world).count e +
        turns.countP Turn.isRefresh * (s.table.readEvents s.world).count e := by
  induction turns generalizing s with
  | nil => simp [log]
  | cons turn turns ih =>
    have hturn : ∀ out, turn ≠ .change out :=
      fun out hchange => hstill out (hchange ▸ List.mem_cons_self)
    obtain ⟨hworld, hunread⟩ := h.step hturn
    have hlater := ih (h.of_unread hworld hunread) fun out hmem =>
      hstill out (List.mem_cons_of_mem _ hmem)
    rw [s.blueprint_step turn, hworld, ← Updater.count_readEvents_unread he, hunread,
      Updater.count_readEvents_unread he] at hlater
    rw [log, List.count_append, count_told he, hlater]
    rw [List.countP_cons, List.countP_cons, Nat.add_mul, Nat.add_mul]
    cases turn with
    | change out => exact absurd rfl (hturn out)
    | refresh =>
      simp only [Turn.isReinit, Turn.isRefresh, if_true, reduceCtorEq, if_false]
      omega
    | reinit =>
      simp only [Turn.isReinit, Turn.isRefresh, if_true, reduceCtorEq, if_false]
      omega
    | query sub => simp [Turn.isReinit, Turn.isRefresh]

/-- The building of a table counts as a reinit and a refresh. -/
theorem count_life {s : Session} {b : Blueprint} (hs : s.Opened b) {turns : List Turn}
    (hstill : Turn.Still turns) :
    ((b.build s.world).events ++ s.log turns).count e =
      (turns.countP Turn.isReinit + 1) * (b.loadEvents s.world).count e +
        (turns.countP Turn.isRefresh + 1) * (s.table.readEvents s.world).count e := by
  have hpasses : ∀ e', (e' == e) = true → e'.kind ≠ .notice := by
    intro e' hsame
    rw [beq_iff_eq.1 hsame, he]
    nofun
  have hlife := congrArg List.length (filter_life hs hpasses turns)
  rw [← List.countP_eq_length_filter, ← List.countP_eq_length_filter] at hlife
  have hrun : ((⟨s.world, b.blank⟩ : Session).step .reinit).step .refresh = s := run_blank hs
  have hread : (((⟨s.world, b.blank⟩ : Session).step .reinit).told .refresh).count e =
      (s.table.readEvents s.world).count e := by
    rw [count_told he, ← Updater.count_readEvents_unread he s.world s.table]
    generalize (⟨s.world, b.blank⟩ : Session).step .reinit = born at hrun
    obtain rfl := hrun
    show (born.table.readEvents born.world).count e =
      ((born.table.refresh born.world).value.after.unread.readEvents born.world).count e
    rw [Updater.unread_refresh, Updater.count_readEvents_unread he]
  have hblank : ((⟨s.world, b.blank⟩ : Session).told .reinit).count e =
      (b.loadEvents s.world).count e := by
    rw [count_told he, b.blueprint_blank]
  have hkind : s.table.blueprint = b := blueprint_run hs []
  rw [List.count, hlife, ← List.count, log, log, hrun, List.count_append, List.count_append,
    hblank, hread, count_log he (settled_of_opened hs) hstill, hkind]
  rw [Nat.add_mul, Nat.add_mul]
  omega

end Count

/-- In a store without faults that does not change, a table tells of a row that it ignores when it
is built, and again in every reinit if its loads ignore the row, in every refresh if its reads do.
So it tells no message about an ignored row twice just when it ignores nothing. -/
theorem repeats_iff_ignores {s : Session} {b : Blueprint} (h : s.world.namespaces.Healthy)
    (hs : s.Opened b) {e : Event} (he : e.kind = .ignored) :
    let told := fun turns => (b.build s.world).events ++ s.log turns
    (∀ turns, Turn.Still turns → (told turns).count e =
      (turns.countP Turn.isReinit + 1) * (b.loadEvents s.world).count e +
        (turns.countP Turn.isRefresh + 1) * (s.table.readEvents s.world).count e) ∧
    (e ∈ told [] ↔ b.Ignores s.world.namespaces e) ∧
    ((∃ turns, Turn.Still turns ∧ 1 < (told turns).count e) ↔
      b.Ignores s.world.namespaces e) := by
  intro told
  have hcount := fun turns => @count_life e he s b hs turns
  refine ⟨hcount, ?_, ?_⟩
  · have hnone : Turn.Still [] := fun out => List.not_mem_nil
    rw [ignores_iff h hs he, ← List.count_pos_iff, ← List.count_pos_iff, ← List.count_pos_iff,
      hcount [] hnone]
    simp only [List.countP_nil]
    omega
  · rw [ignores_iff h hs he, ← List.count_pos_iff, ← List.count_pos_iff]
    constructor
    · rintro ⟨turns, hstill, hmany⟩
      by_contra hnone
      rw [not_or, Nat.not_lt, Nat.not_lt, Nat.le_zero, Nat.le_zero] at hnone
      rw [hcount turns hstill, hnone.1, hnone.2] at hmany
      simp at hmany
    · intro hsome
      have hstill : Turn.Still [.reinit, .refresh] := fun out hmem => by simp at hmem
      refine ⟨[.reinit, .refresh], hstill, ?_⟩
      rw [hcount _ hstill]
      show 1 < 2 * _ + 2 * _
      omega

/-- A world in which a port name map has two names, one of which is no port name. -/
def worldOfLoopback : Outside where
  namespaces :=
    ⟨PortMaps.chipOfPorts "" [("Ethernet0", "oid:0x1"), ("Loopback0", "oid:0x2")], []⟩
  neighbours := .ok ""
  platform := ⟨.ok 0, fun _ => .ok false, fun _ => .ok false⟩

/-- The name that is no port name is told in the building and in two reinits. -/
theorem repeats_of_loopback :
    let s := start .interfaces worldOfLoopback
    let e := Event.portsDropped ["Loopback0"]
    let turns := [.refresh, .reinit, .query [1, 0], .reinit]
    s.world.namespaces.Healthy ∧ s.Opened .interfaces ∧
      ((Blueprint.interfaces.build s.world).events ++ s.log turns).count e = 3 ∧
      Blueprint.interfaces.Ignores s.world.namespaces e := by
  intro s e turns
  have hhealthy : s.world.namespaces.Healthy := Namespaces.healthy_alone ⟨rfl, rfl⟩
  obtain ⟨hbuilt, hloads, hreads⟩ : (Blueprint.interfaces.build s.world).outcome.isOk = true ∧
      (Blueprint.interfaces.loadEvents s.world).count e = 1 ∧
      (s.table.readEvents s.world).count e = 0 := by decide +kernel
  have hs : s.Opened .interfaces := opened_start hbuilt
  obtain ⟨hcount, hfirst, -⟩ := repeats_iff_ignores hhealthy hs (e := e) rfl
  have hthrice := hcount turns fun out hmem => by simp [turns] at hmem
  have honce := hcount [] fun out => List.not_mem_nil
  rw [hloads, hreads] at hthrice honce
  exact ⟨hhealthy, hs, hthrice, hfirst.1 (List.count_pos_iff.1 (honce ▸ Nat.one_pos))⟩

/-- A world with one port and with one transceiver, in a port that is not known. -/
def worldOfTransceiver : Outside where
  namespaces :=
    ⟨(PortMaps.chipOfPorts "" [("Ethernet0", "oid:0x1")]).setFields .state
      (transceiverLead ++ "Ethernet100") [("type", "QSFP28")], []⟩
  neighbours := .ok ""
  platform := ⟨.ok 0, fun _ => .ok false, fun _ => .ok false⟩

/-- The transceiver is told in the building and in the first refresh, so it is not true that a
message about an ignored row is told once at most. -/
theorem tells_transceiver_twice :
    let s := start .sensors worldOfTransceiver
    let e := Event.transceiverUnknown "Ethernet100"
    s.world.namespaces.Healthy ∧ s.Opened .sensors ∧ e.level = .error ∧
      ((Blueprint.sensors.build s.world).events ++ s.log [.refresh]).count e = 2 ∧
      ¬ ∀ (s : Session) (b : Blueprint) (turns : List Turn) (e : Event),
        s.world.namespaces.Healthy → s.Opened b → Turn.Still turns → e.kind = .ignored →
          ((b.build s.world).events ++ s.log turns).count e ≤ 1 := by
  intro s e
  have hhealthy : s.world.namespaces.Healthy := Namespaces.healthy_alone ⟨rfl, rfl⟩
  obtain ⟨hbuilt, htwice⟩ : (Blueprint.sensors.build s.world).outcome.isOk = true ∧
      ((Blueprint.sensors.build s.world).events ++ s.log [.refresh]).count e = 2 := by
    decide +kernel
  have hs : s.Opened .sensors := opened_start hbuilt
  have hstill : Turn.Still [.refresh] := fun out hmem => by simp at hmem
  refine ⟨hhealthy, hs, rfl, htwice, fun hclaim => ?_⟩
  have hmost := hclaim s .sensors [.refresh] e hhealthy hs hstill rfl
  rw [htwice] at hmost
  exact absurd hmost (by decide)

end Session

end SwitchMib.Mib
