import SwitchMib.Proofs.Mib.ForwardingReads
import SwitchMib.Proofs.Mib.ProperRows
import SwitchMib.Proofs.Mib.QueueReads
import SwitchMib.Proofs.Store.Glob

/-!
# What tables complain about

A missing counter, an entry without a row: each complaint is about one matter and is remembered
under a key that names the matter. The key of a matter is a text joined of two parts, and among the
matters of one table no two have the same key.

* `Matter`, `Matter.key`, `Matter.of?`: what a complaint is about, its key and its messages.
* `Matter.key_inj`: the matters of one table are told apart by their keys.
* `About`: a list of complaints that is about given matters.
* `InterfaceSnapshot.about_complaintsAt`, `about_skipsIn`, `about_missingIn`: what the complaints
  of a read, of the forwarding table and of the queue table are about.
* `About.times_news`: of complaints about the same matter a memory lets one pass.
* `ForwardingMaps.Unbound`, `Faulty`: the bridge ports without a port and the faulty entries of an
  overlay, by the keys that they are stored under.
-/

namespace SwitchMib.Mib
set_option autoImplicit false

open Identity Snmp Store

/-! ## Matters -/

/-- What a complaint is about that may be made again when the identity of a table has changed. -/
inductive Matter where
  | portCounter (port counter : String)
  | vlanCounter (vlan counter : String)
  /-- Entries of the forwarding table that have no row, for one reason and object. -/
  | entry (reason subject : String)
  | queueCounter (key stat : String)
  deriving DecidableEq

namespace Matter

def key : Matter → String
  | portCounter port counter => Once.joined ':' port counter
  | vlanCounter vlan counter => Once.joined ':' vlan counter
  | entry reason subject => Once.joined '|' reason subject
  | queueCounter key stat => Once.joined ':' key stat

/-- The matter that a message is about. -/
def of? : Event → Option Matter
  | .portCounterMissing port counter => some (portCounter port counter)
  | .vlanCounterMissing vlan counter => some (vlanCounter vlan counter)
  | .forwardingSkipped _ reason subject => some (entry reason subject)
  | .queueCounterMissing key stat => some (queueCounter key stat)
  | _ => none

/-- The matters of a table: the counters that it shows, the reasons that it knows. -/
def In : Blueprint → Matter → Prop
  | .interfaces, portCounter _ counter => counter ∈ InterfaceSnapshot.counterOfColumn.map Prod.snd
  | .interfaces, vlanCounter _ counter => counter ∈ InterfaceSnapshot.vlanRifCounter.map Prod.snd
  | .forwarding, entry reason _ => ∃ r : SkipReason, reason = r.text
  | .queueStats, queueCounter _ stat => stat ∈ queueCounters.map Prod.snd
  | _, _ => False

theorem colon_not_mem_portCounter : ∀ counter ∈ InterfaceSnapshot.counterOfColumn.map Prod.snd,
    ':' ∉ counter.toList ∧ counter ∉ InterfaceSnapshot.vlanRifCounter.map Prod.snd := by
  decide +kernel

theorem colon_not_mem_vlanCounter : ∀ counter ∈ InterfaceSnapshot.vlanRifCounter.map Prod.snd,
    ':' ∉ counter.toList := by
  decide +kernel

theorem colon_not_mem_queueCounter : ∀ stat ∈ queueCounters.map Prod.snd, ':' ∉ stat.toList := by
  decide +kernel

theorem bar_not_mem_reason (r : SkipReason) : '|' ∉ r.text.toList := by
  cases r <;> decide +kernel

/-- The keys of a table do not confuse its matters. -/
theorem key_inj {b : Blueprint} {m m' : Matter} (h : m.In b) (h' : m'.In b)
    (hkey : m.key = m'.key) : m = m' := by
  cases b with
  | interfaces =>
    cases m with
    | portCounter port counter =>
      obtain ⟨hcolon, hvlan⟩ := colon_not_mem_portCounter counter h
      cases m' with
      | portCounter port' counter' =>
        obtain ⟨rfl, rfl⟩ :=
          Once.joined_inj_right hkey hcolon (colon_not_mem_portCounter counter' h').1
        rfl
      | vlanCounter vlan counter' =>
        obtain ⟨-, rfl⟩ := Once.joined_inj_right hkey hcolon (colon_not_mem_vlanCounter counter' h')
        exact absurd h' hvlan
      | _ => cases h'
    | vlanCounter vlan counter =>
      have hcolon := colon_not_mem_vlanCounter counter h
      cases m' with
      | portCounter port counter' =>
        obtain ⟨hcolon', hvlan⟩ := colon_not_mem_portCounter counter' h'
        obtain ⟨-, rfl⟩ := Once.joined_inj_right hkey hcolon hcolon'
        exact absurd h hvlan
      | vlanCounter vlan' counter' =>
        obtain ⟨rfl, rfl⟩ :=
          Once.joined_inj_right hkey hcolon (colon_not_mem_vlanCounter counter' h')
        rfl
      | _ => cases h'
    | _ => cases h
  | forwarding =>
    cases m with
    | entry reason subject =>
      cases m' with
      | entry reason' subject' =>
        obtain ⟨r, rfl⟩ := h
        obtain ⟨r', rfl⟩ := h'
        obtain ⟨hreason, rfl⟩ :=
          Once.joined_inj_left hkey (bar_not_mem_reason r) (bar_not_mem_reason r')
        rw [hreason]
      | _ => cases h'
    | _ => cases h
  | queueStats =>
    cases m with
    | queueCounter key stat =>
      cases m' with
      | queueCounter key' stat' =>
        obtain ⟨rfl, rfl⟩ := Once.joined_inj_right hkey (colon_not_mem_queueCounter stat h)
          (colon_not_mem_queueCounter stat' h')
        rfl
      | _ => cases h'
    | _ => cases h
  | _ => cases m <;> cases h

/-- How often a matter is told about. -/
def times (m : Matter) (events : List Event) : Nat := events.countP fun e => of? e = some m

end Matter

/-! ## Complaints about given matters -/

/-- The complaints of a list are about just the given matters, each under the key of its matter. -/
structure About (l : List (String × Event)) (C : Matter → Prop) : Prop where
  sound : ∀ c ∈ l, ∃ m, Matter.of? c.2 = some m ∧ c.1 = m.key ∧ C m
  complete : ∀ m, C m → ∃ c ∈ l, Matter.of? c.2 = some m

namespace About

variable {l later : List (String × Event)} {C D : Matter → Prop}

theorem nil (h : ∀ m, ¬ C m) : About [] C where
  sound c hc := by cases hc
  complete m hm := absurd hm (h m)

theorem append (hl : About l C) (hlater : About later D) :
    About (l ++ later) fun m => C m ∨ D m where
  sound c hc := by
    rcases List.mem_append.1 hc with hc | hc
    · obtain ⟨m, hof, hkey, hm⟩ := hl.sound c hc
      exact ⟨m, hof, hkey, .inl hm⟩
    · obtain ⟨m, hof, hkey, hm⟩ := hlater.sound c hc
      exact ⟨m, hof, hkey, .inr hm⟩
  complete m hm := by
    rcases hm with hm | hm
    · obtain ⟨c, hc, hof⟩ := hl.complete m hm
      exact ⟨c, List.mem_append_left _ hc, hof⟩
    · obtain ⟨c, hc, hof⟩ := hlater.complete m hm
      exact ⟨c, List.mem_append_right _ hc, hof⟩

/-- A message passes under the key of its matter. -/
theorem sound_news (h : About l C) {c : String × Event} (hc : c ∈ Once.fresh.news l) :
    ∃ m, Matter.of? c.2 = some m ∧ c.1 = m.key ∧ C m :=
  h.sound c (Once.mem_of_mem_news hc).1

theorem times_news_le_one (h : About l C) (m : Matter) :
    m.times ((Once.fresh.news l).map Prod.snd) ≤ 1 := by
  have hcount : m.times ((Once.fresh.news l).map Prod.snd) ≤
      ((Once.fresh.news l).map Prod.fst).count m.key := by
    rw [Matter.times, List.countP_map, List.count, List.countP_map]
    refine List.countP_mono_left fun c hc hof => ?_
    obtain ⟨m', hof', hkey, -⟩ := h.sound_news hc
    have hsame : Matter.of? c.2 = some m := of_decide_eq_true hof
    obtain rfl : m' = m := Option.some.inj (hof'.symm.trans hsame)
    exact beq_iff_eq.2 hkey
  exact Nat.le_trans hcount (List.nodup_iff_count_le_one.1 (Once.nodup_keys_news _ l) _)

theorem times_news_pos_iff (h : About l C)
    (hkeys : ∀ m m', C m → C m' → m.key = m'.key → m = m') (m : Matter) :
    0 < m.times ((Once.fresh.news l).map Prod.snd) ↔ C m := by
  rw [Matter.times, List.countP_pos_iff]
  constructor
  · rintro ⟨e, he, hof⟩
    obtain ⟨c, hc, rfl⟩ := List.mem_map.1 he
    obtain ⟨m', hof', -, hm'⟩ := h.sound_news hc
    have hsame : Matter.of? c.2 = some m := of_decide_eq_true hof
    obtain rfl : m' = m := Option.some.inj (hof'.symm.trans hsame)
    exact hm'
  · intro hm
    obtain ⟨c, hc, hof⟩ := h.complete m hm
    obtain ⟨m', hof', hkey, -⟩ := h.sound c hc
    obtain rfl : m' = m := Option.some.inj (hof'.symm.trans hof)
    -- the complaint that passes under the key need not be this one, but it has the same matter
    have hnew : m'.key ∈ (Once.fresh.news l).map Prod.fst :=
      Once.mem_keys_news_iff.2 ⟨hkey ▸ List.mem_map_of_mem hc, List.not_mem_nil⟩
    obtain ⟨c', hc', hkey'⟩ := List.mem_map.1 hnew
    obtain ⟨found, hfound, hkeyFound, hCfound⟩ := h.sound_news hc'
    obtain rfl := hkeys found m' hCfound hm (hkeyFound.symm.trans hkey')
    exact ⟨c'.2, List.mem_map_of_mem hc', decide_eq_true hfound⟩

/-- Where keys tell matters apart, a memory that holds nothing lets one complaint about every
matter pass and no second one. -/
theorem times_news (h : About l C) (hkeys : ∀ m m', C m → C m' → m.key = m'.key → m = m')
    (m : Matter) :
    let told := (Once.fresh.news l).map Prod.snd
    m.times told ≤ 1 ∧ (m.times told = 1 ↔ C m) := by
  intro told
  have hmost : m.times told ≤ 1 := h.times_news_le_one m
  have hone : m.times told = 1 ↔ 0 < m.times told :=
    ⟨fun htold => htold ▸ Nat.one_pos, fun htold => Nat.le_antisymm hmost htold⟩
  exact ⟨hmost, hone.trans (h.times_news_pos_iff hkeys m)⟩

end About

/-! ## What reading a cell misses -/

namespace InterfaceSnapshot

variable (snap : InterfaceSnapshot)

/-- A row that is shown in a cell of a counter column. -/
def ShowsCounter (sub : SubId) (index : UInt32) (row : InterfaceRow) (counter : String) : Prop :=
  ∃ column : UInt32, sub = entryLead ++ [column, index] ∧ snap.rows.get? index = some row ∧
    counterOfColumn.lookup column.toNat = some counter

/-- The counters that a read of a cell misses: that of a port, those of the members of a group, or
that of the router interface of a VLAN. -/
def Misses (sub : SubId) : Matter → Prop
  | .portCounter port counter => ∃ index row, snap.ShowsCounter sub index row counter ∧
      (row.kind = .port ∧ row.name = port ∨
        row.kind = .lag ∧ port ∈ snap.identity.lags.members row.name) ∧
      snap.portCounter port counter = none
  | .vlanCounter vlan counter => ∃ index row shown, snap.ShowsCounter sub index row shown ∧
      row.kind = .vlan ∧ row.name = vlan ∧ vlanRifCounter.lookup shown = some counter ∧
      snap.vlanCounter index counter = none
  | _ => False

theorem mem_complaintsAt_iff {sub : SubId} {c : String × Event} :
    c ∈ snap.complaintsAt sub ↔ ∃ index row counter, snap.ShowsCounter sub index row counter ∧
      c ∈ snap.counterComplaints index row counter := by
  have hcell : ∀ column index : UInt32, c ∈ snap.complaints column index ↔ ∃ row counter,
      snap.rows.get? index = some row ∧ counterOfColumn.lookup column.toNat = some counter ∧
        c ∈ snap.counterComplaints index row counter := by
    intro column index
    rw [complaints]
    cases snap.rows.get? index <;> cases counterOfColumn.lookup column.toNat <;> simp
  constructor
  · intro h
    rw [complaintsAt] at h
    split at h
    · rename_i column index hsub
      obtain ⟨row, counter, hrow, hcounter, hc⟩ := (hcell column index).1 h
      have hlead := List.isPrefixOf?_eq_some_iff_append_eq.1 hsub
      exact ⟨index, row, counter, ⟨column, hlead.symm, hrow, hcounter⟩, hc⟩
    · cases h
  · rintro ⟨index, row, counter, ⟨column, rfl, hrow, hcounter⟩, hc⟩
    rw [complaintsAt, List.isPrefixOf?_eq_some_iff_append_eq.2 rfl]
    exact (hcell column index).2 ⟨row, counter, hrow, hcounter, hc⟩

theorem mem_counterComplaints_iff {index : UInt32} {row : InterfaceRow} {counter : String}
    {c : String × Event} :
    c ∈ snap.counterComplaints index row counter ↔
      (∃ port, (row.kind = .port ∧ row.name = port ∨
          row.kind = .lag ∧ port ∈ snap.identity.lags.members row.name) ∧
        snap.portCounter port counter = none ∧
        c = (Once.joined ':' port counter, .portCounterMissing port counter)) ∨
      ∃ mapped, row.kind = .vlan ∧ vlanRifCounter.lookup counter = some mapped ∧
        snap.vlanCounter index mapped = none ∧
        c = (Once.joined ':' row.name mapped, .vlanCounterMissing row.name mapped) := by
  have hport : ∀ port, snap.portComplaint counter port = some c ↔
      snap.portCounter port counter = none ∧
        c = (Once.joined ':' port counter, .portCounterMissing port counter) := by
    intro port
    rw [portComplaint]
    cases snap.portCounter port counter <;> simp [eq_comm]
  rw [counterComplaints]
  cases hkind : row.kind with
  | port => simp [hport]
  | lag => simp [hport]
  | vlan =>
    cases hmapped : vlanRifCounter.lookup counter with
    | none => simp
    | some mapped => cases hvlan : snap.vlanCounter index mapped <;> simp [hvlan]
  | management => simp

/-- The complaints of a read are about the counters that it misses. -/
theorem about_complaintsAt (sub : SubId) : About (snap.complaintsAt sub) (snap.Misses sub) where
  sound c hc := by
    obtain ⟨index, row, counter, hshown, hc⟩ := snap.mem_complaintsAt_iff.1 hc
    rcases snap.mem_counterComplaints_iff.1 hc with
      ⟨port, hrow, hnone, rfl⟩ | ⟨mapped, hkind, hmapped, hnone, rfl⟩
    · exact ⟨.portCounter port counter, rfl, rfl, index, row, hshown, hrow, hnone⟩
    · exact ⟨.vlanCounter row.name mapped, rfl, rfl, index, row, counter, hshown, hkind, rfl,
        hmapped, hnone⟩
  complete m hm := by
    cases m with
    | portCounter port counter =>
      obtain ⟨index, row, hshown, hrow, hnone⟩ := hm
      have hc : _ ∈ snap.counterComplaints index row counter :=
        snap.mem_counterComplaints_iff.2 (.inl ⟨port, hrow, hnone, rfl⟩)
      exact ⟨_, snap.mem_complaintsAt_iff.2 ⟨index, row, counter, hshown, hc⟩, rfl⟩
    | vlanCounter vlan counter =>
      obtain ⟨index, row, shown, hshown, hkind, rfl, hmapped, hnone⟩ := hm
      have hc : _ ∈ snap.counterComplaints index row shown :=
        snap.mem_counterComplaints_iff.2 (.inr ⟨counter, hkind, hmapped, hnone, rfl⟩)
      exact ⟨_, snap.mem_complaintsAt_iff.2 ⟨index, row, shown, hshown, hc⟩, rfl⟩
    | _ => cases hm

theorem mem_map_snd_of_lookup {α β : Type} [BEq α] [LawfulBEq α] {l : List (α × β)} {a : α}
    {b : β} (h : l.lookup a = some b) : b ∈ l.map Prod.snd := by
  obtain ⟨earlier, later, rfl, -⟩ := List.lookup_eq_some_iff.1 h
  simp

theorem in_of_misses {sub : SubId} {m : Matter} (h : snap.Misses sub m) : m.In .interfaces := by
  cases m with
  | portCounter port counter =>
    obtain ⟨_, _, ⟨_, _, _, hcounter⟩, -⟩ := h
    exact mem_map_snd_of_lookup hcounter
  | vlanCounter vlan counter =>
    obtain ⟨_, _, _, _, _, _, hmapped, -⟩ := h
    exact mem_map_snd_of_lookup hmapped
  | _ => cases h

end InterfaceSnapshot

/-! ## Entries without a row -/

section Forwarding

variable (n : Namespaces) (maps : ForwardingMaps)

/-- An entry of the forwarding table has no row for a reason that hinges on an object. -/
def Skips : Matter → Prop
  | .entry reason subject => ∃ key ∈ (n.keys .asic (forwardingLead ++ "*")).value, ∃ skip : Skip,
      (resolve n maps key).value = .error skip ∧ skip.reason.text = reason ∧
        skip.subject = subject
  | _ => False

/-- The complaints of the forwarding table are about the entries without a row. -/
theorem about_skipsIn : About (skipsIn n maps) (Skips n maps) where
  sound c hc := by
    obtain ⟨key, hkey, skip, hskip, rfl⟩ := (mem_skipsIn_iff n maps).1 hc
    exact ⟨.entry skip.reason.text skip.subject, rfl, rfl, key, hkey, skip, hskip, rfl, rfl⟩
  complete m hm := by
    cases m with
    | entry reason subject =>
      obtain ⟨key, hkey, skip, hskip, rfl, rfl⟩ := hm
      exact ⟨_, (mem_skipsIn_iff n maps).2 ⟨key, hkey, skip, hskip, rfl⟩, rfl⟩
    | _ => cases hm

theorem in_of_skips {m : Matter} (h : Skips n maps m) : m.In .forwarding := by
  cases m with
  | entry reason subject =>
    obtain ⟨_, _, skip, _, hreason, -⟩ := h
    exact ⟨skip.reason, hreason.symm⟩
  | _ => cases h

end Forwarding

/-! ## Counters of queues -/

section Queues

variable (n : Namespaces) (maps : QueueMaps)

/-- A counter of a queue is missing, and the refresh comes to read it: no read before it
overflows. -/
def Lacks : Matter → Prop
  | .queueCounter key stat => ∃ earlier r later, queueReads maps = earlier ++ r :: later ∧
      (∀ before ∈ earlier, ¬ before.Overflows n) ∧ r.word? n = none ∧
        r.key = key ∧ r.counter.2 = stat
  | _ => False

theorem mem_missingIn_iff {c : String × Event} :
    c ∈ missingIn n maps ↔ ∃ earlier r later, queueReads maps = earlier ++ r :: later ∧
      (∀ before ∈ earlier, ¬ before.Overflows n) ∧ r.word? n = none ∧
        c = (Once.joined ':' r.key r.counter.2, .queueCounterMissing r.key r.counter.2) := by
  have hread : ∀ r : QueueRead, c ∈ r.complaints n ↔ r.word? n = none ∧
      c = (Once.joined ':' r.key r.counter.2, .queueCounterMissing r.key r.counter.2) := by
    intro r
    rw [QueueRead.complaints]
    cases r.word? n <;> simp
  rw [missingIn, List.mem_flatMap]
  simp only [reachedReads, Attempt.mem_reached_iff, QueueRead.outcome_eq_ok_iff, hread]
  constructor
  · rintro ⟨r, ⟨earlier, later, hreads, hearlier⟩, hr⟩
    exact ⟨earlier, r, later, hreads, hearlier, hr⟩
  · rintro ⟨earlier, r, later, hreads, hearlier, hr⟩
    exact ⟨r, ⟨earlier, later, hreads, hearlier⟩, hr⟩

/-- The complaints of the queue table are about the counters that queues lack. -/
theorem about_missingIn : About (missingIn n maps) (Lacks n maps) where
  sound c hc := by
    obtain ⟨earlier, r, later, hreads, hearlier, hnone, rfl⟩ := (mem_missingIn_iff n maps).1 hc
    exact ⟨.queueCounter r.key r.counter.2, rfl, rfl, earlier, r, later, hreads, hearlier, hnone,
      rfl, rfl⟩
  complete m hm := by
    cases m with
    | queueCounter key stat =>
      obtain ⟨earlier, r, later, hreads, hearlier, hnone, rfl, rfl⟩ := hm
      exact ⟨_, (mem_missingIn_iff n maps).2 ⟨earlier, r, later, hreads, hearlier, hnone, rfl⟩,
        rfl⟩
    | _ => cases hm

theorem in_of_lacks {m : Matter} (h : Lacks n maps m) : m.In .queueStats := by
  cases m with
  | queueCounter key stat =>
    obtain ⟨earlier, r, later, hreads, -, -, -, rfl⟩ := h
    have hr : r ∈ queueReads maps := hreads ▸ List.mem_append_right _ List.mem_cons_self
    exact List.mem_map_of_mem (mem_queueReads_iff.1 hr).2.1
  | _ => cases h

end Queues

/-! ## Complaints that are never made again -/

namespace ForwardingMaps

/-- A bridge port is stored under the key of the complaint and has no port, as the message says. -/
def UnboundIn (ns : Namespace) (c : String × Event) : Prop :=
  ∃ id entry, c.1 = bridgePortLead ++ id ∧ ns.getAll .asic c.1 = .ok entry ∧
    entry.get? Schema.bridgePortPort = none ∧ c.2 = .bridgePortUnbound (Schema.bareId id)

/-- One of the namespaces lists the bridge port of the complaint, which has no port. -/
def Unbound (members : List Namespace) (c : String × Event) : Prop :=
  ∃ ns ∈ members, (∃ keys, ns.keys .asic (bridgePortLead ++ "*") = .ok keys ∧ c.1 ∈ keys) ∧
    UnboundIn ns c

variable {c : String × Event} {acc : BridgePorts}

theorem of_mem_addBridgePort {ns : Namespace} {key : String}
    (h : c ∈ (addBridgePort ns acc key).1.unbound) :
    c ∈ acc.unbound ∨ c.1 = key ∧ UnboundIn ns c := by
  rw [addBridgePort] at h
  split at h
  · exact .inl h
  · rename_i id hid
    split at h
    · exact .inl h
    · rename_i entry hentry
      split at h
      · exact .inl h
      · rename_i hnone
        rcases List.mem_append.1 h with h | h
        · exact .inl h
        · rw [List.mem_singleton.1 h]
          exact .inr ⟨rfl, id, entry, Text.after?_eq_some_iff.1 hid, hentry, hnone, rfl⟩

theorem of_mem_addBridgePorts {ns : Namespace} {keys : List String}
    (h : c ∈ (addBridgePorts ns acc keys).1.unbound) :
    c ∈ acc.unbound ∨ c.1 ∈ keys ∧ UnboundIn ns c := by
  induction keys generalizing acc with
  | nil => exact .inl h
  | cons key keys ih =>
    have hfirst : c ∈ (addBridgePort ns acc key).1.unbound →
        c ∈ acc.unbound ∨ c.1 ∈ key :: keys ∧ UnboundIn ns c := by
      intro hmem
      rcases of_mem_addBridgePort hmem with hmem | ⟨rfl, hunbound⟩
      · exact .inl hmem
      · exact .inr ⟨List.mem_cons_self, hunbound⟩
    rw [addBridgePorts] at h
    split at h
    · rename_i next _ hnext
      rw [hnext] at hfirst
      rcases ih h with hmem | ⟨hkey, hunbound⟩
      · exact hfirst hmem
      · exact .inr ⟨List.mem_cons_of_mem _ hkey, hunbound⟩
    · rename_i next _ hnext
      rw [hnext] at hfirst
      exact hfirst h

theorem of_mem_readBridgePorts {members : List Namespace}
    (h : c ∈ (readBridgePorts acc members).1.unbound) : c ∈ acc.unbound ∨ Unbound members c := by
  induction members generalizing acc with
  | nil => exact .inl h
  | cons ns members ih =>
    rw [readBridgePorts] at h
    split at h
    · exact .inl h
    · rename_i keys hkeys
      have hfirst : c ∈ (addBridgePorts ns acc keys).1.unbound →
          c ∈ acc.unbound ∨ Unbound (ns :: members) c := by
        intro hmem
        rcases of_mem_addBridgePorts hmem with hmem | ⟨hkey, hunbound⟩
        · exact .inl hmem
        · exact .inr ⟨ns, List.mem_cons_self, ⟨keys, hkeys, hkey⟩, hunbound⟩
      split at h
      · rename_i next _ hnext
        rw [hnext] at hfirst
        rcases ih h with hmem | ⟨member, hmember, hunbound⟩
        · exact hfirst hmem
        · exact .inr ⟨member, List.mem_cons_of_mem _ hmember, hunbound⟩
      · rename_i next _ hnext
        rw [hnext] at hfirst
        exact hfirst h

end ForwardingMaps

/-- An entry is stored under the key of the complaint and has a place below the root, but no value,
as the message says. -/
def FaultyIn (host : Namespace) (top : Oid) (c : String × Event) : Prop :=
  ∃ sub entry fault, overlayPlace top c.1 = some sub ∧ host.getAll .overlay c.1 = .ok entry ∧
    decodeOverlay entry = .error fault ∧ c.2 = .overlaySkipped c.1 fault.message

/-- The host lists the entry of the complaint, which is faulty. -/
def Faulty (host : Namespace) (top : Oid) (c : String × Event) : Prop :=
  (∃ keys, host.keys .overlay "*" = .ok keys ∧ c.1 ∈ keys) ∧ FaultyIn host top c

section Faulty

variable {host : Namespace} {top : Oid} {c : String × Event}

theorem of_mem_addOverlay {key : String} {acc : OverlayRows}
    (h : c ∈ (addOverlay host top acc key).1.faulty) :
    c ∈ acc.faulty ∨ c.1 = key ∧ FaultyIn host top c := by
  unfold addOverlay at h
  cases hplace : overlayPlace top key with
  | none =>
    rw [hplace] at h
    exact .inl h
  | some sub =>
    cases hentry : host.getAll .overlay key with
    | error e =>
      rw [hplace, hentry] at h
      exact .inl h
    | ok entry =>
      rw [hplace, hentry] at h
      simp only at h
      cases hdecoded : decodeOverlay entry with
      | ok value =>
        rw [hdecoded] at h
        exact .inl h
      | error fault =>
        rw [hdecoded] at h
        rcases List.mem_append.1 h with h | h
        · exact .inl h
        · rw [List.mem_singleton.1 h]
          exact .inr ⟨rfl, sub, entry, fault, hplace, hentry, hdecoded, rfl⟩

theorem of_mem_addOverlays {keys : List String} {acc : OverlayRows}
    (h : c ∈ (addOverlays host top acc keys).1.faulty) :
    c ∈ acc.faulty ∨ c.1 ∈ keys ∧ FaultyIn host top c := by
  induction keys generalizing acc with
  | nil => exact .inl h
  | cons key keys ih =>
    have hfirst : c ∈ (addOverlay host top acc key).1.faulty →
        c ∈ acc.faulty ∨ c.1 ∈ key :: keys ∧ FaultyIn host top c := by
      intro hmem
      rcases of_mem_addOverlay hmem with hmem | ⟨rfl, hfaulty⟩
      · exact .inl hmem
      · exact .inr ⟨List.mem_cons_self, hfaulty⟩
    rw [addOverlays_cons] at h
    generalize addOverlay host top acc key = added at h hfirst
    obtain ⟨next, outcome⟩ := added
    cases outcome with
    | error e => exact hfirst h
    | ok _ =>
      rcases ih h with hmem | ⟨hkey, hfaulty⟩
      · exact hfirst hmem
      · exact .inr ⟨List.mem_cons_of_mem _ hkey, hfaulty⟩

theorem of_mem_readOverlay (h : c ∈ (readOverlay host top).1.faulty) : Faulty host top c := by
  rw [readOverlay] at h
  cases hkeys : host.keys .overlay "*" with
  | error e =>
    rw [hkeys] at h
    cases h
  | ok keys =>
    rw [hkeys] at h
    obtain ⟨hmem, hfaulty⟩ := (of_mem_addOverlays h).resolve_left List.not_mem_nil
    exact ⟨⟨keys, hkeys, hmem⟩, hfaulty⟩

end Faulty

end SwitchMib.Mib
