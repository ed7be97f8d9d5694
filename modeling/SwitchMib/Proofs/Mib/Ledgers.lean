import SwitchMib.Proofs.Mib.Commits
import SwitchMib.Proofs.Mib.Complaints

/-!
# What a table tells and what it remembers

In every turn a table tells what its loads and reads tell, and of the complaints that come up those
that it has not made yet. It has two memories of them. What the one holds is forgotten when the
identity changes, what the other holds never.

* `Session.told`, `Session.log`: what is told in a turn, and in a series of turns.
* `Blueprint.loadEvents`, `Updater.readEvents`: what loads and reads tell.
* `Ledger`: a memory of complaints with what goes through it, and `Ledger.passing` and
  `Ledger.lasting`, the two that tables have.
* `Updater.events_refresh`, `Updater.events_reinit`, `Updater.events_noteRead`: what one operation
  tells, and `Ledger.tells_passing`, `Ledger.tells_lasting`: the part that the memories let pass.
* `Ledger.filter_log`: turns without forgetting tell what the memory lets pass.
* `Session.Changes`: the identity changes, and `Ledger.keeps_passing`, `Ledger.keeps_lasting`: when
  nothing is forgotten.
-/

namespace SwitchMib.Mib
set_option autoImplicit false

open Identity Snmp Store

/-! ## Messages of a session -/

namespace Session

/-- What is told in a turn. -/
def told (s : Session) : Turn → List Event
  | .change _ => []
  | .refresh => (s.table.refresh s.world).events
  | .reinit => (s.table.reinit s.world).events
  | .query sub => (s.table.noteRead sub).events

/-- What is told in a series of turns. -/
def log (s : Session) : List Turn → List Event
  | [] => []
  | turn :: turns => s.told turn ++ (s.step turn).log turns

theorem log_append (s : Session) (turns later : List Turn) :
    s.log (turns ++ later) = s.log turns ++ (s.run turns).log later := by
  induction turns generalizing s with
  | nil => rfl
  | cons turn turns ih =>
    rw [List.cons_append, log, log, ih, List.append_assoc]
    rfl

end Session

/-! ## What loads and reads tell -/

/-- What the loads of the identity tell. -/
def Blueprint.loadEvents (out : Outside) : Blueprint → List Event
  | .interfaces => (InterfaceMaps.load out.namespaces).events
  | .forwarding => (PortMaps.loadAll out.namespaces).events
  | .sensors => (PortMaps.loadAll out.namespaces).events
  | .queueStats => (QueueMaps.loadAll out.namespaces).events
  | _ => []

/-- What the reads of rows tell. Those of the forwarding entries and of the queues complain as they
go. -/
def Updater.readEvents (out : Outside) : Updater → List Event
  | .interfaces t => (InterfaceSnapshot.read out.namespaces t.identity).events
  | .forwarding t => (readForwarding out.namespaces t.identity t.warned).events
  | .routes _ => (out.namespaces.members.foldlM addHops Dict.empty).events
  | .sensors t => (readSensors SensorKind.encode out.namespaces t.ports).events
  | .queueStats t => (readQueues out.namespaces t.queues t.warned).events
  | .power t => (pollAll (t.origin.source out)).events
  | _ => []

theorem Blueprint.plain_loadEvents (out : Outside) (b : Blueprint) :
    ∀ e ∈ b.loadEvents out, e.kind.Plain := by
  cases b with
  | interfaces => exact InterfaceMaps.tells_load _ (.inl rfl) (.inr rfl)
  | forwarding => exact PortMaps.tells_loadAll _ (.inr rfl)
  | sensors => exact PortMaps.tells_loadAll _ (.inr rfl)
  | queueStats => exact QueueMaps.tells_loadAll _ (.inr rfl)
  | _ => exact fun e he => by cases he

/-! ## Memories of complaints -/

/-- A memory that tables keep: where it is, which messages go through it, and which complaints come
up in a turn. -/
structure Ledger where
  memory : Updater → Once String
  enters : Event → Bool
  raised : Session → Turn → List (String × Event)

namespace Ledger

variable (L : Ledger)

/-- The messages of a turn that go through the memory are those that it lets pass. -/
def Tells (s : Session) (turn : Turn) : Prop :=
  (s.told turn).filter L.enters = ((L.memory s.table).news (L.raised s turn)).map Prod.snd

/-- What comes up in a turn is remembered, and nothing is forgotten. -/
def Keeps (s : Session) (turn : Turn) : Prop :=
  L.memory (s.step turn).table = ((L.memory s.table).tellNew (L.raised s turn)).value

/-- No turn forgets anything. -/
def KeptIn : Session → List Turn → Prop
  | _, [] => True
  | s, turn :: turns => L.Keeps s turn ∧ KeptIn (s.step turn) turns

/-- Everything that comes up in a series of turns. -/
def raisedIn : Session → List Turn → List (String × Event)
  | _, [] => []
  | s, turn :: turns => L.raised s turn ++ raisedIn (s.step turn) turns

/-- Turns that forget nothing tell what the memory lets pass of everything that comes up. -/
theorem filter_log (htells : ∀ s turn, L.Tells s turn) {s : Session} {turns : List Turn}
    (hkept : L.KeptIn s turns) :
    (s.log turns).filter L.enters =
      ((L.memory s.table).news (L.raisedIn s turns)).map Prod.snd := by
  induction turns generalizing s with
  | nil => rfl
  | cons turn turns ih =>
    obtain ⟨hturn, hlater⟩ := hkept
    rw [Session.log, List.filter_append, htells, ih hlater, raisedIn, Once.news_append,
      List.map_append, hturn]

end Ledger

/-- The complaints of a refresh that are made anew when the identity has changed. -/
def Updater.found (out : Outside) : Updater → List (String × Event)
  | .forwarding t => skipsIn out.namespaces t.identity
  | .queueStats t => missingIn out.namespaces t.queues
  | _ => []

/-- The complaints of a read of a cell. -/
def Updater.asked (sub : SubId) : Updater → List (String × Event)
  | .interfaces t => t.cell.current.complaintsAt sub
  | _ => []

/-- The complaints that are made anew when the identity has changed. -/
def Ledger.passing : Ledger where
  memory
    | .interfaces t => t.warned
    | .forwarding t => t.warned
    | .queueStats t => t.warned
    | _ => .fresh
  enters e := (Matter.of? e).isSome
  raised s
    | .refresh => s.table.found s.world
    | .query sub => s.table.asked sub
    | _ => []

/-- The bridge ports without a port that are found when the forwarding table loads its identity. -/
def ForwardingMaps.unboundIn (n : Namespaces) : List (String × Event) :=
  match (PortMaps.loadAll n).outcome with
  | .ok _ => (readBridgePorts ⟨.empty, []⟩ n.members).1.unbound
  | .error _ => []

/-- Messages about bridge ports without a port and about faulty entries of an overlay. -/
def isLasting : Event → Bool
  | .bridgePortUnbound _ | .overlaySkipped _ _ => true
  | _ => false

/-- The faulty entries that a refresh of an overlay finds. -/
def Updater.faulty (out : Outside) : Updater → List (String × Event)
  | .overlay t => (readOverlay out.namespaces.host t.top).1.faulty
  | _ => []

/-- The bridge ports without a port that a reinit of the forwarding table finds. -/
def Updater.unbound (out : Outside) : Updater → List (String × Event)
  | .forwarding _ => ForwardingMaps.unboundIn out.namespaces
  | _ => []

/-- The complaints that are never made again. -/
def Ledger.lasting : Ledger where
  memory
    | .forwarding t => t.bridgePortsWarned
    | .overlay t => t.warned
    | _ => .fresh
  enters := isLasting
  raised s
    | .refresh => s.table.faulty s.world
    | .reinit => s.table.unbound s.world
    | _ => []

theorem Ledger.kind_of_passing (e : Event) (h : passing.enters e = true) :
    e.kind = .remembered := by
  cases e <;> first | rfl | cases h

theorem Ledger.kind_of_lasting (e : Event) (h : lasting.enters e = true) :
    e.kind = .remembered := by
  cases e <;> first | rfl | cases h

/-! ## What one operation tells -/

section Events

variable (out : Outside)

theorem Overlay.events_refresh (t : Overlay) :
    (t.refresh out).events =
      (t.warned.news (readOverlay out.namespaces.host t.top).1.faulty).map Prod.snd := by
  rw [refresh]
  rcases readOverlay out.namespaces.host t.top with ⟨found, done⟩
  rw [Logged.events_bind, Logged.events_pure, List.append_nil, Once.events_tellNew]

theorem Overlay.warned_refresh (t : Overlay) :
    (t.refresh out).value.after.warned =
      (t.warned.tellNew (readOverlay out.namespaces.host t.top).1.faulty).value := by
  rw [refresh]
  rcases readOverlay out.namespaces.host t.top with ⟨found, done⟩
  rfl

theorem Interfaces.events_noteRead (t : Interfaces) (sub : SubId) :
    (t.noteRead sub).events = (t.warned.news (t.cell.current.complaintsAt sub)).map Prod.snd := by
  rw [noteRead, Logged.events_bind, Logged.events_pure, List.append_nil, Once.events_tellNew]

theorem ForwardingMaps.load_told (n : Namespaces) (warned : Once String) :
    (load n warned).value.2 = (warned.tellNew (unboundIn n)).value ∧
      (load n warned).events = (PortMaps.loadAll n).events ++
        (warned.news (unboundIn n)).map Prod.snd := by
  rw [load, Logged.value_bind, Logged.events_bind, unboundIn, Load.outcome, Load.events]
  cases (PortMaps.loadAll n).run.value with
  | error e => exact ⟨rfl, rfl⟩
  | ok ports =>
    rw [← Once.events_tellNew]
    simp only [Logged.value_bind, Logged.events_bind]
    cases (readBridgePorts ⟨.empty, []⟩ n.members).2 with
    | error e => exact ⟨rfl, congrArg _ (List.append_nil _)⟩
    | ok _ => exact ⟨rfl, congrArg _ (List.append_nil _)⟩

theorem Forwarding.bridgePortsWarned_reinit (t : Forwarding) :
    (t.reinit out).value.after.bridgePortsWarned =
      (t.bridgePortsWarned.tellNew (ForwardingMaps.unboundIn out.namespaces)).value := by
  rw [← (ForwardingMaps.load_told out.namespaces t.bridgePortsWarned).1, reinit, Logged.value_bind]
  rcases (ForwardingMaps.load out.namespaces t.bridgePortsWarned).value with ⟨loaded, warned⟩
  cases loaded with
  | error e => rfl
  | ok identity =>
    simp only
    split <;> rfl

/-! A reinit tells what its load tells and, if so, that the identity is another. -/

theorem Forwarding.events_reinit (t : Forwarding) :
    ∃ rest, (∀ e ∈ rest, e.kind = .notice) ∧
      (t.reinit out).events = (PortMaps.loadAll out.namespaces).events ++
        (t.bridgePortsWarned.news (ForwardingMaps.unboundIn out.namespaces)).map Prod.snd ++
          rest := by
  rw [reinit, Logged.events_bind,
    (ForwardingMaps.load_told out.namespaces t.bridgePortsWarned).2]
  refine ⟨_, ?_, rfl⟩
  show Logged.Tells (· = .notice) _
  rcases (ForwardingMaps.load out.namespaces t.bridgePortsWarned).value with ⟨loaded, warned⟩
  cases loaded with
  | error e => exact Logged.tells_pure _
  | ok identity =>
    simp only
    split
    · exact Logged.tells_pure _
    · exact (Logged.tells_tell (K := (· = .notice)) rfl).bind fun _ => Logged.tells_pure _

theorem Interfaces.events_reinit (t : Interfaces) : ∃ rest, (∀ e ∈ rest, e.kind = .notice) ∧
    (t.reinit out).events = (InterfaceMaps.load out.namespaces).events ++ rest := by
  rw [reinit, Logged.events_bind]
  refine ⟨_, ?_, rfl⟩
  show Logged.Tells (· = .notice) _
  cases (InterfaceMaps.load out.namespaces).run.value with
  | error e => exact Logged.tells_pure _
  | ok identity =>
    simp only
    split
    · exact Logged.tells_pure _
    · exact (Logged.tells_tell (K := (· = .notice)) rfl).bind fun _ => Logged.tells_pure _

theorem QueueStats.events_reinit (t : QueueStats) : ∃ rest, (∀ e ∈ rest, e.kind = .notice) ∧
    (t.reinit out).events = (QueueMaps.loadAll out.namespaces).events ++ rest := by
  rw [reinit, Logged.events_bind]
  refine ⟨_, ?_, rfl⟩
  show Logged.Tells (· = .notice) _
  cases (QueueMaps.loadAll out.namespaces).run.value with
  | error e => exact Logged.tells_pure _
  | ok queues =>
    simp only
    split
    · exact Logged.tells_pure _
    · exact (Logged.tells_tell (K := (· = .notice)) rfl).bind fun _ => Logged.tells_pure _

theorem Sensors.events_reinit (t : Sensors) :
    (t.reinit out).events = (PortMaps.loadAll out.namespaces).events := by
  rw [reinit, Logged.events_bind]
  cases (PortMaps.loadAll out.namespaces).run.value <;> exact List.append_nil _

namespace Updater

/-- A refresh tells what its reads tell, and of the faulty entries of an overlay the new ones. -/
theorem events_refresh (u : Updater) : (u.refresh out).events =
    u.readEvents out ++ ((Ledger.lasting.memory u).news (u.faulty out)).map Prod.snd := by
  cases u with
  | overlay t =>
    show (t.refresh out).events ++ [] = _
    rw [Overlay.events_refresh, List.append_nil]
    rfl
  | neighbours t => rfl
  | _ => exact List.append_nil _

/-- A reinit tells what its loads tell, of the bridge ports without a port the new ones, and perhaps
that the identity is another. -/
theorem events_reinit (u : Updater) : ∃ notices : List Event, (∀ e ∈ notices, e.kind = .notice) ∧
    (u.reinit out).events = u.blueprint.loadEvents out ++
      ((Ledger.lasting.memory u).news (u.unbound out)).map Prod.snd ++ notices := by
  cases u with
  | interfaces t =>
    obtain ⟨rest, hrest, hevents⟩ := t.events_reinit out
    refine ⟨rest, hrest, ?_⟩
    show (t.reinit out).events ++ [] = _ ++ [] ++ rest
    rw [hevents, List.append_nil, List.append_nil]
    rfl
  | forwarding t =>
    obtain ⟨rest, hrest, hevents⟩ := t.events_reinit out
    refine ⟨rest, hrest, ?_⟩
    show (t.reinit out).events ++ [] = _
    rw [hevents, List.append_nil]
    rfl
  | sensors t =>
    refine ⟨[], List.forall_mem_nil _, ?_⟩
    show (t.reinit out).events ++ [] = _ ++ [] ++ []
    rw [t.events_reinit out, List.append_nil, List.append_nil, List.append_nil]
    rfl
  | queueStats t =>
    obtain ⟨rest, hrest, hevents⟩ := t.events_reinit out
    refine ⟨rest, hrest, ?_⟩
    show (t.reinit out).events ++ [] = _ ++ [] ++ rest
    rw [hevents, List.append_nil, List.append_nil]
    rfl
  | _ => exact ⟨[], List.forall_mem_nil _, rfl⟩

/-- A read of a cell tells of the counters that it misses the new ones. -/
theorem events_noteRead (sub : SubId) (u : Updater) :
    (u.noteRead sub).events = ((Ledger.passing.memory u).news (u.asked sub)).map Prod.snd := by
  cases u with
  | interfaces t =>
    show (t.noteRead sub).events ++ [] = _
    rw [Interfaces.events_noteRead, List.append_nil]
    rfl
  | _ => rfl

end Updater

end Events

/-! ## What comes up in a turn -/

/-- The matters that a refresh finds. -/
def Updater.Finds (out : Outside) : Updater → Matter → Prop
  | .forwarding t => Skips out.namespaces t.identity
  | .queueStats t => Lacks out.namespaces t.queues
  | _ => fun _ => False

/-- The matters that a read of a cell finds. -/
def Updater.Misses (sub : SubId) : Updater → Matter → Prop
  | .interfaces t => t.cell.current.Misses sub
  | _ => fun _ => False

/-- A complaint that is never made again comes up in a turn. -/
def Session.MeetsLasting (s : Session) (c : String × Event) : Turn → Prop
  | .refresh => ∃ top, s.table.blueprint = .overlay top ∧ Faulty s.world.namespaces.host top c
  | .reinit => s.table.blueprint = .forwarding ∧
    ForwardingMaps.Unbound s.world.namespaces.members c
  | _ => False

/-- A matter comes up in a turn. -/
def Session.Meets (s : Session) (m : Matter) : Turn → Prop
  | .refresh => s.table.Finds s.world m
  | .query sub => s.table.Misses sub m
  | _ => False

theorem Updater.finds_unread (out : Outside) (u : Updater) : u.unread.Finds out = u.Finds out := by
  cases u <;> rfl

theorem Updater.unread_refresh (out : Outside) (u : Updater) :
    (u.refresh out).value.after.unread = u.unread := by
  cases u <;> rfl

theorem Updater.unread_noteRead (sub : SubId) (u : Updater) :
    (u.noteRead sub).value.unread = u.unread := by
  cases u <;> rfl

theorem Session.in_of_meets {s : Session} {m : Matter} {turn : Turn} (h : s.Meets m turn) :
    m.In s.table.blueprint := by
  obtain ⟨out, u⟩ := s
  cases turn with
  | refresh =>
    cases u with
    | forwarding t => exact in_of_skips _ _ h
    | queueStats t => exact in_of_lacks _ _ h
    | _ => cases h
  | query sub =>
    cases u with
    | interfaces t => exact t.cell.current.in_of_misses h
    | _ => cases h
  | _ => cases h

theorem ForwardingMaps.unbound_of_mem_unboundIn {n : Namespaces} {c : String × Event}
    (h : c ∈ unboundIn n) : Unbound n.members c := by
  rw [unboundIn] at h
  cases hports : (PortMaps.loadAll n).outcome with
  | error e =>
    rw [hports] at h
    cases h
  | ok ports =>
    rw [hports] at h
    exact (of_mem_readBridgePorts h).resolve_left List.not_mem_nil

namespace Ledger

theorem about_raised (s : Session) (turn : Turn) :
    About (passing.raised s turn) (s.Meets · turn) := by
  obtain ⟨out, u⟩ := s
  cases turn with
  | refresh =>
    cases u with
    | forwarding t => exact about_skipsIn _ _
    | queueStats t => exact about_missingIn _ _
    | _ => exact .nil fun m hm => hm
  | query sub =>
    cases u with
    | interfaces t => exact t.cell.current.about_complaintsAt sub
    | _ => exact .nil fun m hm => hm
  | _ => cases u <;> exact .nil fun m hm => hm

theorem meetsLasting_of_mem_raised {s : Session} {turn : Turn} {c : String × Event}
    (h : c ∈ lasting.raised s turn) : s.MeetsLasting c turn := by
  obtain ⟨out, u⟩ := s
  cases turn with
  | refresh =>
    cases u with
    | overlay t => exact ⟨t.top, rfl, of_mem_readOverlay h⟩
    | _ => cases h
  | reinit =>
    cases u with
    | forwarding t => exact ⟨rfl, ForwardingMaps.unbound_of_mem_unboundIn h⟩
    | _ => cases h
  | _ => cases h

section Filters

variable {m : Once String} {l : List (String × Event)} {enters : Event → Bool}

theorem filter_eq_nil {events : List Event} (h : ∀ e ∈ events, enters e = false) :
    events.filter enters = [] :=
  List.filter_eq_nil_iff.2 fun e he => Bool.not_eq_true _ ▸ h e he

theorem filter_news_of_entering (h : ∀ c ∈ l, enters c.2 = true) :
    ((m.news l).map Prod.snd).filter enters = (m.news l).map Prod.snd := by
  refine List.filter_eq_self.2 fun e he => ?_
  obtain ⟨c, hc, rfl⟩ := List.mem_map.1 he
  exact h c (Once.mem_of_mem_news hc).1

theorem filter_news_of_foreign (h : ∀ c ∈ l, enters c.2 = false) :
    ((m.news l).map Prod.snd).filter enters = [] := by
  refine filter_eq_nil fun e he => ?_
  obtain ⟨c, hc, rfl⟩ := List.mem_map.1 he
  exact h c (Once.mem_of_mem_news hc).1

end Filters

theorem enters_of_matter {e : Event} {m : Matter} (h : Matter.of? e = some m) :
    passing.enters e = true ∧ lasting.enters e = false := by
  cases e <;> first | exact ⟨rfl, rfl⟩ | cases h

theorem enters_of_meetsLasting {s : Session} {turn : Turn} {c : String × Event}
    (h : s.MeetsLasting c turn) : passing.enters c.2 = false ∧ lasting.enters c.2 = true := by
  cases turn with
  | refresh =>
    obtain ⟨top, -, -, sub, entry, fault, -, -, -, hevent⟩ := h
    rw [hevent]
    exact ⟨rfl, rfl⟩
  | reinit =>
    obtain ⟨-, ns, -, -, id, entry, -, -, -, hevent⟩ := h
    rw [hevent]
    exact ⟨rfl, rfl⟩
  | _ => cases h

theorem enters_raised (s : Session) (turn : Turn) :
    (∀ c ∈ passing.raised s turn, passing.enters c.2 = true ∧ lasting.enters c.2 = false) ∧
      ∀ c ∈ lasting.raised s turn, passing.enters c.2 = false ∧ lasting.enters c.2 = true := by
  refine ⟨fun c hc => ?_, fun c hc => enters_of_meetsLasting (meetsLasting_of_mem_raised hc)⟩
  obtain ⟨m, hof, -, -⟩ := (about_raised s turn).sound c hc
  exact enters_of_matter hof

/-- Only complaints enter a memory. -/
theorem filter_plain {events : List Event} {enters : Event → Bool}
    (henters : ∀ e, enters e = true → e.kind = .remembered) (h : ∀ e ∈ events, e.kind.Plain) :
    events.filter enters = [] := by
  refine filter_eq_nil fun e he => Bool.eq_false_iff.2 fun hent => ?_
  have hplain := h e he
  rw [henters e hent] at hplain
  rcases hplain with hkind | hkind <;> cases hkind

theorem filter_notices {enters : Event → Bool}
    (henters : ∀ e, enters e = true → e.kind = .remembered) {notices : List Event}
    (h : ∀ e ∈ notices, e.kind = .notice) : notices.filter enters = [] := by
  refine filter_eq_nil fun e he => Bool.eq_false_iff.2 fun hent => ?_
  have hkind := henters e hent
  rw [h e he] at hkind
  cases hkind

/-- Of the complaints that come up in the reads those are told that are new. -/
theorem filter_readEvents {enters : Event → Bool}
    (henters : ∀ e, enters e = true → e.kind = .remembered) (out : Outside) (u : Updater) :
    (u.readEvents out).filter enters =
      (((passing.memory u).news (u.found out)).map Prod.snd).filter enters := by
  cases u with
  | forwarding t => exact (told_readForwarding out.namespaces t.identity t.warned henters).2
  | queueStats t => exact (told_readQueues out.namespaces t.queues t.warned henters).2
  | interfaces t => exact filter_plain henters (InterfaceSnapshot.tells_read _ (.inl rfl) _)
  | routes t => exact filter_plain henters (Logged.tells_foldlM (tells_addHops (.inl rfl)) _ _)
  | sensors t => exact filter_plain henters (tells_readSensors _ (.inl rfl) (.inr rfl) _ _)
  | power t => exact filter_plain henters (tells_pollAll (.inl rfl) _)
  | neighbours t => rfl
  | overlay t => rfl

/-- Only what comes up in a turn enters a memory. -/
theorem filter_told {enters : Event → Bool}
    (henters : ∀ e, enters e = true → e.kind = .remembered) (s : Session) (turn : Turn) :
    (s.told turn).filter enters =
      (((passing.memory s.table).news (passing.raised s turn)).map Prod.snd).filter enters ++
        (((lasting.memory s.table).news (lasting.raised s turn)).map Prod.snd).filter enters := by
  cases turn with
  | change out => rfl
  | refresh =>
    rw [Session.told, Updater.events_refresh, List.filter_append, filter_readEvents henters]
    rfl
  | reinit =>
    obtain ⟨notices, hnotices, hevents⟩ := s.table.events_reinit s.world
    rw [Session.told, hevents, List.filter_append, List.filter_append,
      filter_plain henters (s.table.blueprint.plain_loadEvents s.world),
      filter_notices henters hnotices, List.append_nil]
    rfl
  | query sub =>
    rw [Session.told, Updater.events_noteRead]
    exact (List.append_nil _).symm

theorem tells_passing (s : Session) (turn : Turn) : passing.Tells s turn := by
  obtain ⟨hpassing, hlasting⟩ := enters_raised s turn
  rw [Tells, filter_told kind_of_passing, filter_news_of_entering fun c hc => (hpassing c hc).1,
    filter_news_of_foreign fun c hc => (hlasting c hc).1, List.append_nil]

theorem tells_lasting (s : Session) (turn : Turn) : lasting.Tells s turn := by
  obtain ⟨hpassing, hlasting⟩ := enters_raised s turn
  rw [Tells, filter_told kind_of_lasting, filter_news_of_foreign fun c hc => (hpassing c hc).2,
    filter_news_of_entering fun c hc => (hlasting c hc).2, List.nil_append]

end Ledger

/-! ## What is remembered after a turn -/

section Reinit

variable (out : Outside)

theorem Interfaces.warned_reinit (t : Interfaces) :
    let after := (t.reinit out).value.after
    after.warned = if after.identity = t.identity then t.warned else .fresh := by
  rw [reinit, Logged.value_bind]
  cases (InterfaceMaps.load out.namespaces).run.value with
  | error e => simp [Attempt.failed]
  | ok identity =>
    by_cases h : identity = t.identity
    · simp [h, Attempt.done]
    · simp [h, Attempt.done]

theorem QueueStats.warned_reinit (t : QueueStats) :
    let after := (t.reinit out).value.after
    after.warned = if after.queues = t.queues then t.warned else .fresh := by
  rw [reinit, Logged.value_bind]
  cases (QueueMaps.loadAll out.namespaces).run.value with
  | error e => simp [Attempt.failed]
  | ok queues =>
    by_cases h : queues = t.queues
    · simp [h, Attempt.done]
    · simp [h, Attempt.done]

theorem Forwarding.warned_reinit (t : Forwarding) :
    let after := (t.reinit out).value.after
    after.warned = if after.identity = t.identity then t.warned else .fresh := by
  rw [reinit, Logged.value_bind]
  rcases (ForwardingMaps.load out.namespaces t.bridgePortsWarned).value with ⟨loaded, warned⟩
  cases loaded with
  | error e => simp [Attempt.failed]
  | ok identity =>
    by_cases h : identity = t.identity
    · simp [h, Attempt.done]
    · simp [h, Attempt.done]

end Reinit

/-- A turn in which the identity of the table becomes another. -/
def Session.Changes (s : Session) (turn : Turn) : Prop :=
  (s.step turn).table.unread ≠ s.table.unread

namespace Ledger

theorem keeps_lasting (s : Session) (turn : Turn) : lasting.Keeps s turn := by
  obtain ⟨out, u⟩ := s
  cases turn with
  | refresh =>
    cases u with
    | overlay t => exact t.warned_refresh out
    | _ => rfl
  | reinit =>
    cases u with
    | forwarding t => exact t.bridgePortsWarned_reinit out
    | _ => rfl
  | _ => cases u <;> rfl

/-- As long as the identity stays nothing is forgotten. -/
theorem keeps_passing {s : Session} {turn : Turn} (h : ¬ s.Changes turn) :
    passing.Keeps s turn := by
  obtain ⟨out, u⟩ := s
  have hsame := not_not.1 h
  cases turn with
  | reinit =>
    cases u with
    | interfaces t =>
      have hidentity : (t.reinit out).value.after.identity = t.identity :=
        (Interfaces.mk.inj (Updater.interfaces.inj hsame)).1
      exact (t.warned_reinit out).trans (if_pos hidentity)
    | forwarding t =>
      have hidentity : (t.reinit out).value.after.identity = t.identity :=
        (Forwarding.mk.inj (Updater.forwarding.inj hsame)).1
      exact (t.warned_reinit out).trans (if_pos hidentity)
    | queueStats t =>
      have hidentity : (t.reinit out).value.after.queues = t.queues :=
        (QueueStats.mk.inj (Updater.queueStats.inj hsame)).1
      exact (t.warned_reinit out).trans (if_pos hidentity)
    | _ => rfl
  | refresh =>
    cases u with
    | forwarding t =>
      exact (@told_readForwarding out.namespaces t.identity t.warned (fun _ => false) nofun).1
    | queueStats t =>
      exact (@told_readQueues out.namespaces t.queues t.warned (fun _ => false) nofun).1
    | _ => rfl
  | _ => cases u <;> rfl

/-- When the identity changes everything is forgotten. -/
theorem passing_of_changes {s : Session} {turn : Turn} (h : s.Changes turn) :
    passing.memory (s.step turn).table = .fresh := by
  obtain ⟨out, u⟩ := s
  cases turn with
  | reinit =>
    cases u with
    | interfaces t =>
      refine (t.warned_reinit out).trans (if_neg fun hidentity => h ?_)
      exact congrArg (fun i => Updater.interfaces ⟨i, .fresh .empty, .fresh⟩) hidentity
    | forwarding t =>
      refine (t.warned_reinit out).trans (if_neg fun hidentity => h ?_)
      exact congrArg (fun i => Updater.forwarding ⟨i, .fresh .empty, .fresh, .fresh⟩) hidentity
    | queueStats t =>
      refine (t.warned_reinit out).trans (if_neg fun hidentity => h ?_)
      exact congrArg (fun q => Updater.queueStats ⟨q, .fresh .empty, .fresh⟩) hidentity
    | _ => rfl
  | _ => cases u <;> first | rfl | exact absurd rfl h

end Ledger

end SwitchMib.Mib
