import SwitchMib.Proofs.Mib.Ledgers

/-!
# Complaints over the life of a table

Between two changes of the identity, and over the whole life for complaints that are never made
again, what is told is what one memory lets pass of everything that comes up.

* `Session.Steady`: turns in which the identity stays.
* `Session.Arises`, `Session.ArisesLasting`: a matter comes up in one of the turns, or a complaint
  that is never made again.
* `Session.times_log`: every matter is told once.
* `Session.filter_life`: the building of a table, told as turns of the blank one.
* `Session.told_once`: the complaints of a table from its building on.
-/

namespace SwitchMib.Mib
set_option autoImplicit false

open Identity Snmp Store

/-! ## From one change of the identity to the next -/

namespace Session

/-- The identity of the table stays in all turns. -/
def Steady : Session → List Turn → Prop
  | _, [] => True
  | s, turn :: turns => ¬ s.Changes turn ∧ (s.step turn).Steady turns

/-- A matter comes up in one of the turns. -/
def Arises (m : Matter) : Session → List Turn → Prop
  | _, [] => False
  | s, turn :: turns => s.Meets m turn ∨ Arises m (s.step turn) turns

/-- A complaint that is never made again comes up in one of the turns. -/
def ArisesLasting (c : String × Event) : Session → List Turn → Prop
  | _, [] => False
  | s, turn :: turns => s.MeetsLasting c turn ∨ ArisesLasting c (s.step turn) turns

theorem keptIn_of_steady {s : Session} {turns : List Turn} (h : s.Steady turns) :
    Ledger.passing.KeptIn s turns := by
  induction turns generalizing s with
  | nil => trivial
  | cons turn turns ih => exact ⟨Ledger.keeps_passing h.1, ih h.2⟩

theorem keptIn_lasting (s : Session) (turns : List Turn) : Ledger.lasting.KeptIn s turns := by
  induction turns generalizing s with
  | nil => trivial
  | cons turn turns ih => exact ⟨Ledger.keeps_lasting s turn, ih _⟩

theorem about_raisedIn (s : Session) (turns : List Turn) :
    About (Ledger.passing.raisedIn s turns) (Arises · s turns) := by
  induction turns generalizing s with
  | nil => exact .nil fun m hm => hm
  | cons turn turns ih => exact (Ledger.about_raised s turn).append (ih _)

theorem arisesLasting_of_mem_raisedIn {c : String × Event} {s : Session} {turns : List Turn}
    (h : c ∈ Ledger.lasting.raisedIn s turns) : ArisesLasting c s turns := by
  induction turns generalizing s with
  | nil => cases h
  | cons turn turns ih =>
    rcases List.mem_append.1 h with h | h
    · exact .inl (Ledger.meetsLasting_of_mem_raised h)
    · exact .inr (ih h)

theorem blueprint_step (s : Session) (turn : Turn) :
    (s.step turn).table.blueprint = s.table.blueprint := by
  cases turn with
  | change out => rfl
  | refresh => exact s.table.blueprint_refresh s.world
  | reinit => exact s.table.blueprint_reinit s.world
  | query sub => exact s.table.blueprint_noteRead sub

theorem in_of_arises {m : Matter} {s : Session} {turns : List Turn} (h : Arises m s turns) :
    m.In s.table.blueprint := by
  induction turns generalizing s with
  | nil => cases h
  | cons turn turns ih =>
    rcases h with h | h
    · exact in_of_meets h
    · exact s.blueprint_step turn ▸ ih h

theorem times_filter (m : Matter) (events : List Event) :
    m.times (events.filter Ledger.passing.enters) = m.times events := by
  rw [Matter.times, Matter.times, List.countP_filter]
  refine List.countP_congr fun e _ => ?_
  rw [Bool.and_eq_true, decide_eq_true_iff]
  exact and_iff_left_of_imp fun h => (Ledger.enters_of_matter h).1

/-- A table that remembers nothing tells about every matter that comes up once while its identity
stays. -/
theorem times_log {s : Session} (hfresh : Ledger.passing.memory s.table = .fresh)
    {turns : List Turn} (hsteady : s.Steady turns) (m : Matter) :
    m.times (s.log turns) ≤ 1 ∧ (m.times (s.log turns) = 1 ↔ Arises m s turns) := by
  have hlog := Ledger.passing.filter_log Ledger.tells_passing (keptIn_of_steady hsteady)
  rw [hfresh] at hlog
  rw [← times_filter, hlog]
  exact (about_raisedIn s turns).times_news
    (fun m m' hm hm' => Matter.key_inj (in_of_arises hm) (in_of_arises hm')) m

/-! ## A table from its building on -/

/-- A new table is the blank one after a reinit and a refresh. -/
theorem run_blank {s : Session} {b : Blueprint} (hs : s.Opened b) :
    (⟨s.world, b.blank⟩ : Session).run [.reinit, .refresh] = s := by
  rw [Opened, Blueprint.outcome_build] at hs
  obtain ⟨-, -, hafter⟩ := (Updater.renew_eq_ok_iff s.world).1 hs
  exact congrArg (Session.mk s.world) hafter

/-- A table that is built from a load tells what the blank table tells in a reinit and a refresh,
to a filter that no notice passes. -/
theorem filter_events_of_loaded {α υ ε ω : Type} {x : Load ε α} {f : α → υ}
    {reinit : Logged (Attempt υ ω)} {refresh : υ → Logged (Attempt υ ε)} {u : υ}
    {passes : Event → Bool}
    (hbuilt : (x >>= fun a => Attempt.toLoad (refresh (f a))).outcome = .ok u)
    (htable : ∀ a, x.outcome = .ok a → reinit.value.table = .ok (f a))
    (hreinit : ∃ rest, (∀ e ∈ rest, e.kind = .notice) ∧ reinit.events = x.events ++ rest)
    (hpasses : ∀ e, passes e = true → e.kind ≠ .notice) :
    (x >>= fun a => Attempt.toLoad (refresh (f a))).events.filter passes =
      (reinit.events ++ (refresh reinit.value.after).events).filter passes := by
  obtain ⟨a, ha, -⟩ := Load.outcome_bind_eq_ok_iff.1 hbuilt
  obtain ⟨-, hafter⟩ := Attempt.table_eq_ok_iff.1 (htable a ha)
  obtain ⟨rest, hrest, hevents⟩ := hreinit
  have hnone : rest.filter passes = [] := Ledger.filter_eq_nil fun e he =>
    Bool.eq_false_iff.2 fun h => hpasses e h (hrest e he)
  rw [Load.events_bind_of_ok ha, hevents, hafter, List.filter_append, List.filter_append,
    List.filter_append, hnone, List.append_nil]
  rfl

/-- The building of a table tells what the blank table tells in a reinit and a refresh, but for
notices. -/
theorem filter_build {s : Session} {b : Blueprint} (hs : s.Opened b) {passes : Event → Bool}
    (hpasses : ∀ e, passes e = true → e.kind ≠ .notice) :
    (b.build s.world).events.filter passes =
      ((⟨s.world, b.blank⟩ : Session).log [.reinit, .refresh]).filter passes := by
  obtain ⟨out, u⟩ := s
  simp only at hs ⊢
  have hlog : (⟨out, b.blank⟩ : Session).log [.reinit, .refresh] = (b.blank.reinit out).events ++
      ((b.blank.reinit out).value.after.refresh out).events := by
    rw [log, log, log, List.append_nil]
    rfl
  rw [hlog]
  cases b with
  | interfaces =>
    rw [Opened, Blueprint.build, Load.outcome_return] at hs
    obtain ⟨t, hbuilt, -⟩ := exists_eq_ok_of_map hs
    have htable := Interfaces.table_reinit out ⟨.empty, .fresh .empty, .fresh⟩
    simp only [ite_self] at htable
    show _ = List.filter _ ((_ ++ []) ++ (_ ++ []))
    rw [List.append_nil, List.append_nil, Blueprint.build, Load.events_return, Load.events_lift]
    exact filter_events_of_loaded (Load.outcome_lift_eq_ok_iff.1 hbuilt)
      (fun identity hload => by rw [htable, hload]; rfl) (Interfaces.events_reinit out _) hpasses
  | queueStats =>
    rw [Opened, Blueprint.build, Load.outcome_return] at hs
    obtain ⟨t, hbuilt, -⟩ := exists_eq_ok_of_map hs
    have htable := QueueStats.table_reinit out ⟨.empty, .fresh .empty, .fresh⟩
    simp only [ite_self] at htable
    show _ = List.filter _ ((_ ++ []) ++ (_ ++ []))
    rw [List.append_nil, List.append_nil, Blueprint.build, Load.events_return]
    have hbuilt : ((QueueMaps.loadAll out.namespaces).lift >>= fun queues =>
        Attempt.toLoad (QueueStats.refresh out ⟨queues, .fresh .empty, .fresh⟩)).outcome = .ok t :=
      hbuilt
    exact filter_events_of_loaded hbuilt
      (fun queues hload => by rw [htable, Load.outcome_lift_eq_ok_iff.1 hload]; rfl)
      (QueueStats.events_reinit out _) hpasses
  | sensors =>
    rw [Opened, Blueprint.build, Load.outcome_return] at hs
    obtain ⟨t, hbuilt, -⟩ := exists_eq_ok_of_map hs
    have htable := Sensors.table_reinit out ⟨.empty, .fresh .empty⟩
    have hreinit := Sensors.events_reinit out ⟨.empty, .fresh .empty⟩
    show _ = List.filter _ ((_ ++ []) ++ (_ ++ []))
    rw [List.append_nil, List.append_nil, Blueprint.build, Load.events_return, Load.events_lift]
    exact filter_events_of_loaded (Load.outcome_lift_eq_ok_iff.1 hbuilt)
      (fun ports hload => by rw [htable, hload]; rfl)
      ⟨[], List.forall_mem_nil _, hreinit.trans (List.append_nil _).symm⟩ hpasses
  | forwarding =>
    rw [Opened, Blueprint.build, Load.outcome_return] at hs
    obtain ⟨t, hbuilt, -⟩ := exists_eq_ok_of_map hs
    obtain ⟨loaded, hloaded, -⟩ :=
      Load.outcome_bind_eq_ok_iff.1 (Load.outcome_lift_eq_ok_iff.1 hbuilt)
    obtain ⟨-, rfl⟩ := Attempt.table_eq_ok_iff.1 hloaded
    rw [Blueprint.build, Load.events_return, Load.events_lift, Forwarding.build,
      Load.events_bind_of_ok hloaded]
    show _ = List.filter _ ((_ ++ []) ++ (_ ++ []))
    rw [List.append_nil, List.append_nil]
    rfl
  | _ =>
    rw [Blueprint.build, Load.events_return]
    show _ = List.filter _ ([] ++ (_ ++ []))
    rw [List.append_nil]
    rfl

/-- The life of a table tells what the blank table tells from a reinit and a refresh on, but for
notices. -/
theorem filter_life {s : Session} {b : Blueprint} (hs : s.Opened b) {passes : Event → Bool}
    (hpasses : ∀ e, passes e = true → e.kind ≠ .notice) (turns : List Turn) :
    ((b.build s.world).events ++ s.log turns).filter passes =
      ((⟨s.world, b.blank⟩ : Session).log (.reinit :: .refresh :: turns)).filter passes := by
  have hlog := log_append ⟨s.world, b.blank⟩ [.reinit, .refresh] turns
  rw [run_blank hs] at hlog
  show _ = (log _ ([.reinit, .refresh] ++ turns)).filter passes
  rw [hlog, List.filter_append, List.filter_append, filter_build hs hpasses]

theorem memory_reinit_blank (world : Outside) (b : Blueprint) :
    Ledger.passing.memory ((⟨world, b.blank⟩ : Session).step .reinit).table = .fresh := by
  have hblank : Ledger.passing.memory b.blank = .fresh := by cases b <;> rfl
  by_cases h : (⟨world, b.blank⟩ : Session).Changes .reinit
  · exact Ledger.passing_of_changes h
  · have hkept := Ledger.keeps_passing h
    rw [Ledger.Keeps, hblank] at hkept
    rw [hkept]
    cases b <;> rfl

theorem raised_of_changes {s : Session} {turn : Turn} (h : s.Changes turn) :
    Ledger.passing.raised s turn = [] := by
  obtain ⟨out, u⟩ := s
  cases turn with
  | change world => cases u <;> rfl
  | reinit => cases u <;> rfl
  | refresh => exact absurd (u.unread_refresh out) h
  | query sub => exact absurd (u.unread_noteRead sub) h

theorem times_told_eq_zero {s : Session} {turn : Turn} (h : Ledger.passing.raised s turn = [])
    (m : Matter) : m.times (s.told turn) = 0 := by
  have htold := Ledger.tells_passing s turn
  rw [Ledger.Tells, h] at htold
  rw [← times_filter, htold]
  rfl

theorem times_append (m : Matter) (events later : List Event) :
    m.times (events ++ later) = m.times events + m.times later := List.countP_append

/-- From its building on a table tells about every matter once that comes up before its identity
changes, be it in the building itself or later. -/
theorem times_life {s : Session} {b : Blueprint} (hs : s.Opened b) {turns : List Turn}
    (hsteady : s.Steady turns) (m : Matter) :
    let told := (b.build s.world).events ++ s.log turns
    m.times told ≤ 1 ∧ (m.times told = 1 ↔ s.Meets m .refresh ∨ Arises m s turns) := by
  intro told
  have hrun : ((⟨s.world, b.blank⟩ : Session).step .reinit).step .refresh = s := run_blank hs
  have hnone : Ledger.passing.raised ⟨s.world, b.blank⟩ .reinit = [] := by cases b <;> rfl
  have hpasses : ∀ e, Ledger.passing.enters e = true → e.kind ≠ .notice :=
    fun e h => Ledger.kind_of_passing e h ▸ nofun
  have htold : m.times told =
      m.times (((⟨s.world, b.blank⟩ : Session).step .reinit).log (.refresh :: turns)) := by
    rw [← times_filter, filter_life hs hpasses, times_filter, log, times_append,
      times_told_eq_zero hnone, Nat.zero_add]
  have hfresh := memory_reinit_blank s.world b
  generalize (⟨s.world, b.blank⟩ : Session).step .reinit = born at hrun htold hfresh
  have hunread : (born.table.refresh born.world).value.after.unread = born.table.unread :=
    born.table.unread_refresh born.world
  have hborn : born.Steady (.refresh :: turns) := ⟨not_not.2 hunread, hrun ▸ hsteady⟩
  have hmeets : born.Meets m .refresh ↔ s.Meets m .refresh := by
    rw [← hrun]
    show born.table.Finds _ m ↔ (born.table.refresh born.world).value.after.Finds _ m
    rw [← Updater.finds_unread, ← hunread, Updater.finds_unread]
    rfl
  obtain ⟨hmost, hone⟩ := times_log hfresh hborn m
  rw [Arises, hmeets, hrun] at hone
  rw [htold]
  exact ⟨hmost, hone⟩

/-- What comes up in turns of the blank table comes up in the building of a table or later. -/
theorem arisesLasting_life {s : Session} {b : Blueprint} (hs : s.Opened b) {turns : List Turn}
    {c : String × Event}
    (h : ArisesLasting c ⟨s.world, b.blank⟩ (.reinit :: .refresh :: turns)) :
    s.MeetsLasting c .reinit ∨ s.MeetsLasting c .refresh ∨ ArisesLasting c s turns := by
  have hrun : ((⟨s.world, b.blank⟩ : Session).step .reinit).step .refresh = s := run_blank hs
  have hkind : s.table.blueprint = b := blueprint_run hs []
  have hborn : ((⟨s.world, b.blank⟩ : Session).step .reinit).table.blueprint = b :=
    (blueprint_step _ _).trans b.blueprint_blank
  rw [ArisesLasting, ArisesLasting, hrun] at h
  refine h.imp (fun hreinit => ?_) (Or.imp_left fun hrefresh => ?_)
  · obtain ⟨hforwarding, hunbound⟩ := hreinit
    exact ⟨(hkind.trans b.blueprint_blank.symm).trans hforwarding, hunbound⟩
  · obtain ⟨top, hoverlay, hfaulty⟩ := hrefresh
    exact ⟨top, (hkind.trans hborn.symm).trans hoverlay, hfaulty⟩

/-- In a series of turns from its building on a table tells every matter once that comes up before
its identity changes, and so it does from every change of the identity to the next. What it tells in
its life about bridge ports without a port and about faulty entries of an overlay are complaints that
come up in the building or in one of the turns, no two of them under one key. -/
theorem told_once {s : Session} {b : Blueprint} (hs : s.Opened b) :
    (∀ turns, s.Steady turns → ∀ m : Matter,
      let told := (b.build s.world).events ++ s.log turns
      m.times told ≤ 1 ∧ (m.times told = 1 ↔ s.Meets m .refresh ∨ Arises m s turns)) ∧
    (∀ earlier turn turns, (s.run earlier).Changes turn →
      ((s.run earlier).step turn).Steady turns → ∀ m : Matter,
      let told := (s.run earlier).log (turn :: turns)
      m.times told ≤ 1 ∧ (m.times told = 1 ↔ Arises m ((s.run earlier).step turn) turns)) ∧
    ∀ turns, ∃ made : List (String × Event), (made.map Prod.fst).Nodup ∧
      (∀ c ∈ made, s.MeetsLasting c .reinit ∨ s.MeetsLasting c .refresh ∨
        ArisesLasting c s turns) ∧
      ((b.build s.world).events ++ s.log turns).filter isLasting = made.map Prod.snd := by
  refine ⟨fun turns hsteady m => times_life hs hsteady m, ?_, fun turns => ?_⟩
  · intro earlier turn turns hchanges hsteady m told
    have htold : m.times told = m.times (((s.run earlier).step turn).log turns) := by
      show m.times (_ ++ _) = _
      rw [times_append, times_told_eq_zero (raised_of_changes hchanges), Nat.zero_add]
    rw [htold]
    exact times_log (Ledger.passing_of_changes hchanges) hsteady m
  · have hlog := Ledger.lasting.filter_log Ledger.tells_lasting
      (keptIn_lasting ⟨s.world, b.blank⟩ (.reinit :: .refresh :: turns))
    have hpasses : ∀ e, isLasting e = true → e.kind ≠ .notice :=
      fun e h => Ledger.kind_of_lasting e h ▸ nofun
    exact ⟨_, Once.nodup_keys_news _ _,
      fun c hc => arisesLasting_life hs
        (arisesLasting_of_mem_raisedIn (Once.mem_of_mem_news hc).1),
      (filter_life hs hpasses turns).trans hlog⟩

/-- A world with one port and with stations that were all learned on one bridge port that is not
known. -/
def worldOfStations (addresses : List String) : Outside where
  namespaces :=
    let ports := (Store.Namespace.empty "").setFields .counters Schema.portNameMap
      [("Ethernet0", "oid:0x1")]
    ⟨addresses.foldl (fun ns mac => ns.setFields .asic
      (forwardingLead ++ "\x7b\"mac\":\"" ++ mac ++ "\",\"vlan\":\"10\"\x7d")
        [(Schema.forwardingBridgePort, "oid:0x99")]) ports, []⟩
  neighbours := .ok ""
  platform := ⟨.ok 0, fun _ => .ok false, fun _ => .ok false⟩

/-- A world with one port, with a bridge port that has no port, and with an entry of an overlay that
has no type. -/
def worldOfFaults (port : String) : Outside where
  namespaces :=
    let ports := (Store.Namespace.empty "").setFields .counters Schema.portNameMap
      [(port, "oid:0x1")]
    let bridged := ports.setFields .asic (ForwardingMaps.bridgePortLead ++ "oid:0x3a1")
      [("SAI_BRIDGE_PORT_ATTR_TYPE", "SAI_BRIDGE_PORT_TYPE_PORT")]
    ⟨bridged.setFields .overlay "1.3.6.1.4.1.9.1" [(Schema.overlayData, "7")], []⟩
  neighbours := .ok ""
  platform := ⟨.ok 0, fun _ => .ok false, fun _ => .ok false⟩

/-- Stations come and go on a bridge port that is not known, and it is told once. A bridge port
without a port is told once although the ports change, and a faulty entry of an overlay once in three
refreshes. -/
theorem told_once_of_moving_stations :
    (let s := start .forwarding (worldOfStations ["00:00:00:00:00:01"])
      let turns := [.refresh,
        .change (worldOfStations ["00:00:00:00:00:02", "00:00:00:00:00:03"]), .refresh, .query [],
        .change (worldOfStations ["00:00:00:00:00:01"]), .refresh]
      let m := Matter.entry SkipReason.unknownBridgePort.text "99"
      s.Opened .forwarding ∧ s.Steady turns ∧
        m.times ((Blueprint.forwarding.build s.world).events ++ s.log turns) = 1) ∧
    ∀ p ∈ [(Blueprint.forwarding, Event.bridgePortUnbound "3a1"),
        (.overlay ⟨[1, 3, 6, 1, 4, 1, 9]⟩, .overlaySkipped "1.3.6.1.4.1.9.1" "no type field")],
      let s := start p.1 (worldOfFaults "Ethernet0")
      let turns := [.reinit, .refresh, .change (worldOfFaults "Ethernet4"), .reinit, .refresh]
      s.Opened p.1 ∧
        ((p.1.build s.world).events ++ s.log turns).filter isLasting = [p.2] ∧
        ∃ key, s.MeetsLasting (key, p.2) .reinit ∨ s.MeetsLasting (key, p.2) .refresh ∨
          ArisesLasting (key, p.2) s turns := by
  constructor
  · intro s turns m
    obtain ⟨hbuilt, htold⟩ : (Blueprint.forwarding.build s.world).outcome.isOk = true ∧
        0 < m.times (Blueprint.forwarding.build s.world).events := by decide +kernel
    have hs : s.Opened .forwarding := opened_start hbuilt
    have hrefresh : ∀ t : Session, ¬ t.Changes .refresh :=
      fun t => not_not.2 (t.table.unread_refresh t.world)
    have hsteady : s.Steady turns :=
      ⟨hrefresh _, not_not.2 rfl, hrefresh _, not_not.2 (Updater.unread_noteRead _ _),
        not_not.2 rfl, hrefresh _, trivial⟩
    obtain ⟨hmost, -⟩ := (told_once hs).1 turns hsteady m
    refine ⟨hs, hsteady, Nat.le_antisymm hmost ?_⟩
    rw [times_append]
    exact Nat.le_add_right_of_le htold
  · intro p hp s turns
    obtain ⟨hbuilt, hlog⟩ : (p.1.build (worldOfFaults "Ethernet0")).outcome.isOk = true ∧
        ((p.1.build s.world).events ++ s.log turns).filter isLasting = [p.2] := by
      revert p
      decide +kernel
    have hs : s.Opened p.1 := opened_start hbuilt
    obtain ⟨made, -, harises, htold⟩ := (told_once hs).2.2 turns
    rw [hlog] at htold
    obtain ⟨c, rfl, hc⟩ := List.map_eq_singleton_iff.1 htold.symm
    refine ⟨hs, hlog, c.1, ?_⟩
    rw [← hc]
    exact harises c List.mem_cons_self

end Session

end SwitchMib.Mib
