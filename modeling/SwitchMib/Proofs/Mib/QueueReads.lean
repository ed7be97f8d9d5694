import Mathlib.Algebra.Group.Nat.Defs
import SwitchMib.Mib.Interfaces
import SwitchMib.Proofs.Dict
import SwitchMib.Proofs.Mib.Loops

/-!
# Reading the counters of queues

The counters of all queues are read one after the other. One that is there has a row, or overflows
where no number follows that of its queue; one that is missing is complained about. None of this
hinges on what was read before, but after an overflow nothing is read any more.

* `queueCounterArcs?_eq_some_iff`, `eq_of_queueCounterArcs?`: the places of counters.
* `QueueRead`, `queueReads`: the reads, in order.
* `QueueRead.value_enter`, `QueueRead.events_enter`: what one read does.
* `agree_readQueues`: the queues are read by one loop over the reads.
* `Overflows`, `outcome_readQueues_eq_ok_iff`, `outcome_readQueues_eq_error_iff`: when they
  overflow.
* `get?_readQueues`, `get?_readQueues_iff`: the rows.
* `told_readQueues`: the complaints.
-/

namespace SwitchMib.Mib
set_option autoImplicit false

open Identity Snmp Store

/-! ## Places -/

theorem queueCounterArcs?_eq_some_iff {q : QueueId} {counter : UInt32} {sub : SubId} :
    queueCounterArcs? q counter = some sub ↔
      q.queue.toNat + 1 < 2 ^ 32 ∧ sub = [q.port, 2, q.queue + 1, counter] := by
  rw [queueCounterArcs?]
  split
  · rename_i h
    rw [Option.some.injEq, eq_comm]
    exact (and_iff_right h).symm
  · rename_i h
    exact iff_of_false nofun fun hsub => h hsub.1

theorem queueCounterArcs?_eq_none_iff {q : QueueId} {counter : UInt32} :
    queueCounterArcs? q counter = none ↔ 2 ^ 32 ≤ q.queue.toNat + 1 := by
  simp only [Option.eq_none_iff_forall_ne_some, ne_eq, queueCounterArcs?_eq_some_iff, not_and]
  exact ⟨fun h => Nat.le_of_not_lt fun hnext => h _ hnext rfl,
    fun hlast _ hnext => absurd hlast (Nat.not_le_of_lt hnext)⟩

/-- No two counters are shown in one place. -/
theorem eq_of_queueCounterArcs? {q q' : QueueId} {counter counter' : UInt32 × String}
    (hcounter : counter ∈ queueCounters) (hcounter' : counter' ∈ queueCounters) {sub : SubId}
    (h : queueCounterArcs? q counter.1 = some sub)
    (h' : queueCounterArcs? q' counter'.1 = some sub) : q = q' ∧ counter = counter' := by
  obtain ⟨-, rfl⟩ := queueCounterArcs?_eq_some_iff.1 h
  obtain ⟨-, hsame⟩ := queueCounterArcs?_eq_some_iff.1 h'
  obtain ⟨port, queue⟩ := q
  obtain ⟨port', queue'⟩ := q'
  simp only [List.cons.injEq, and_true, true_and] at hsame
  obtain ⟨hport, hqueue, harc⟩ := hsame
  have hinj : ∀ a ∈ queueCounters, ∀ b ∈ queueCounters, a.1 = b.1 → a = b := by decide
  exact ⟨congrArg₂ QueueId.mk hport ((UInt32.add_left_inj 1).1 hqueue),
    hinj counter hcounter counter' hcounter' harc⟩

/-! ## Reads -/

/-- A read of a counter of a queue, whose counters are under a key. -/
structure QueueRead where
  queue : QueueId
  key : String
  counter : UInt32 × String

namespace QueueRead

section Read

variable (n : Namespaces) (r : QueueRead)

/-- The counter, if it is there. -/
def word? : Option UInt64 :=
  InterfaceSnapshot.counterIn (n.getAll .counters r.key).value r.counter.2

/-- The place of the counter, if a number follows that of the queue. -/
def arcs? : Option SubId := queueCounterArcs? r.queue r.counter.1

def outcome : Except Failure Unit :=
  match r.word? n, r.arcs? with
  | some _, none => .error .overflow
  | _, _ => .ok ()

/-- The counter is there and has no place. -/
def Overflows : Prop := r.word? n ≠ none ∧ r.arcs? = none

def row? : Option (SubId × UInt64) := (r.word? n).bind fun v => r.arcs?.map (·, v)

def complaints : List (String × Event) :=
  match r.word? n with
  | some _ => []
  | none => [(Once.joined ':' r.key r.counter.2, .queueCounterMissing r.key r.counter.2)]

def enter (acc : QueueRows) : Logged (Attempt QueueRows Failure) :=
  addQueueCounter r.queue r.key (n.getAll .counters r.key).value r.counter acc

/-- What a read does is decided by its counter and its place. -/
theorem enter_eq (acc : QueueRows) :
    r.enter n acc = match r.word? n, r.arcs? with
      | some v, some arcs => return .done { acc with rows := acc.rows.insert arcs v }
      | some _, none => return .failed .overflow acc
      | none, _ => return .done { acc with warned := ← acc.warned.tellNew (r.complaints n) } := by
  rw [enter, addQueueCounter, complaints, word?, InterfaceSnapshot.counterIn, arcs?]
  cases (n.getAll .counters r.key).value.get? r.counter.2 with
  | none => rfl
  | some text =>
    rw [Option.map_some, Option.bind_some]
    cases Text.readWord64 text with
    | error e => rfl
    | ok v => cases queueCounterArcs? r.queue r.counter.1 <;> rfl

theorem value_enter (acc : QueueRows) :
    (r.enter n acc).value = ⟨r.outcome n,
      { rows := match r.row? n with
          | some (arcs, v) => acc.rows.insert arcs v
          | none => acc.rows
        warned := (acc.warned.tellNew (r.complaints n)).value }⟩ := by
  rw [enter_eq, outcome, complaints, row?]
  cases r.word? n with
  | none => rfl
  | some v => cases r.arcs? <;> rfl

theorem events_enter (acc : QueueRows) :
    (r.enter n acc).events = (acc.warned.news (r.complaints n)).map Prod.snd := by
  rw [enter_eq, ← Once.events_tellNew]
  cases hword : r.word? n with
  | none => exact List.append_nil _
  | some v =>
    have hnone : r.complaints n = [] := by rw [complaints, hword]
    rw [hnone]
    cases r.arcs? <;> rfl

end Read

variable {n : Namespaces} {r : QueueRead}

theorem outcome_eq_ok_iff : r.outcome n = .ok () ↔ ¬ r.Overflows n := by
  rw [outcome, Overflows]
  cases r.word? n <;> cases r.arcs? <;> simp

theorem outcome_eq_error_iff {e : Failure} :
    r.outcome n = .error e ↔ e = .overflow ∧ r.Overflows n := by
  rw [outcome, Overflows]
  cases r.word? n <;> cases r.arcs? <;> simp [eq_comm]

end QueueRead

/-! ## All reads -/

/-- The reads for a queue. One without an identifier has none. -/
def queueReadsOf (maps : QueueMaps) (q : QueueId) : List QueueRead :=
  match maps.idByQueue.get? q with
  | none => []
  | some id => queueCounters.map fun counter => ⟨q, Schema.queueCounterKey id, counter⟩

/-- The reads for all queues, in order. -/
def queueReads (maps : QueueMaps) : List QueueRead := (queuesOf maps).flatMap (queueReadsOf maps)

theorem mem_queueReads_iff {maps : QueueMaps} {r : QueueRead} :
    r ∈ queueReads maps ↔ r.queue ∈ queuesOf maps ∧ r.counter ∈ queueCounters ∧
      ∃ id, maps.idByQueue.get? r.queue = some id ∧ r.key = Schema.queueCounterKey id := by
  rw [queueReads, List.mem_flatMap]
  constructor
  · rintro ⟨q, hq, hr⟩
    rw [queueReadsOf] at hr
    cases hid : maps.idByQueue.get? q with
    | none =>
      rw [hid] at hr
      cases hr
    | some id =>
      rw [hid] at hr
      obtain ⟨counter, hcounter, rfl⟩ := List.mem_map.1 hr
      exact ⟨hq, hcounter, id, hid, rfl⟩
  · rintro ⟨hq, hcounter, id, hid, hkey⟩
    refine ⟨r.queue, hq, ?_⟩
    rw [queueReadsOf, hid]
    exact List.mem_map.2 ⟨r.counter, hcounter, by rw [← hkey]⟩

section Reads

variable (n : Namespaces) (maps : QueueMaps) (warned : Once String)

/-- A counter of a queue, if the queue has an identifier and that has the counter. -/
def queueCounterOf (q : QueueId) (counter : String) : Option UInt64 :=
  (maps.idByQueue.get? q).bind fun id =>
    InterfaceSnapshot.counterIn (n.getAll .counters (Schema.queueCounterKey id)).value counter

theorem queueCounterOf_eq_word? {r : QueueRead} (hr : r ∈ queueReads maps) :
    queueCounterOf n maps r.queue r.counter.2 = r.word? n := by
  obtain ⟨-, -, id, hid, hkey⟩ := mem_queueReads_iff.1 hr
  rw [queueCounterOf, hid, QueueRead.word?, hkey]
  rfl

theorem exists_read {q : QueueId} (hq : q ∈ queuesOf maps) {counter : UInt32 × String}
    (hcounter : counter ∈ queueCounters) {v : UInt64}
    (hv : queueCounterOf n maps q counter.2 = some v) :
    ∃ r ∈ queueReads maps, r.queue = q ∧ r.counter = counter ∧ r.word? n = some v := by
  obtain ⟨id, hid, hword⟩ := Option.bind_eq_some_iff.1 hv
  exact ⟨⟨q, Schema.queueCounterKey id, counter⟩,
    mem_queueReads_iff.2 ⟨hq, hcounter, id, hid, rfl⟩, rfl, rfl, hword⟩

/-- A queue with a counter has the last of all numbers. -/
def Overflows : Prop :=
  ∃ q ∈ queuesOf maps, ∃ counter ∈ queueCounters, queueCounterOf n maps q counter.2 ≠ none ∧
    2 ^ 32 ≤ q.queue.toNat + 1

theorem overflows_iff : Overflows n maps ↔ ∃ r ∈ queueReads maps, r.Overflows n := by
  constructor
  · rintro ⟨q, hq, counter, hcounter, hcounted, hlast⟩
    obtain ⟨v, hv⟩ := Option.ne_none_iff_exists'.1 hcounted
    obtain ⟨r, hr, rfl, rfl, hword⟩ := exists_read n maps hq hcounter hv
    exact ⟨r, hr, hword ▸ Option.some_ne_none v, queueCounterArcs?_eq_none_iff.2 hlast⟩
  · rintro ⟨r, hr, hcounted, hlast⟩
    obtain ⟨hq, hcounter, -⟩ := mem_queueReads_iff.1 hr
    rw [← queueCounterOf_eq_word? n maps hr] at hcounted
    exact ⟨r.queue, hq, r.counter, hcounter, hcounted, queueCounterArcs?_eq_none_iff.1 hlast⟩

/-- The queues are read by one loop over the reads. -/
theorem agree_readQueues {passes : Event → Bool}
    (hpasses : ∀ e, passes e = true → e.kind ≠ .unread) :
    (readQueues n maps warned).Agree passes
      (Attempt.each (QueueRead.enter n) (queueReads maps) ⟨.empty, warned⟩) := by
  refine Attempt.agree_each_flatMap (fun q acc => ?_) _ _
  rw [addQueueCounters, queueReadsOf]
  cases maps.idByQueue.get? q with
  | none => exact .refl _
  | some id =>
    refine .of_silent ?_ ?_
    · rw [List.filter_eq_nil_iff]
      exact fun e he hpass => hpasses e hpass
        (Logged.tells_serve (K := (· = .unread)) rfl _ _ e he)
    · rw [Attempt.each_map]
      exact .refl _

theorem value_readQueues : (readQueues n maps warned).value =
    (Attempt.each (QueueRead.enter n) (queueReads maps) ⟨.empty, warned⟩).value :=
  (@agree_readQueues n maps warned (fun _ => false) nofun).value

theorem outcome_enter (r : QueueRead) (acc : QueueRows) :
    (r.enter n acc).value.outcome = r.outcome n := by rw [QueueRead.value_enter]

theorem outcome_readQueues_eq_ok_iff :
    (readQueues n maps warned).value.outcome = .ok () ↔ ¬ Overflows n maps := by
  rw [value_readQueues, Attempt.outcome_each_eq_ok_iff (outcome_enter n), overflows_iff]
  simp only [QueueRead.outcome_eq_ok_iff, not_exists, not_and]

/-- Nothing else can go wrong. -/
theorem outcome_readQueues_eq_error_iff {e : Failure} :
    (readQueues n maps warned).value.outcome = .error e ↔ e = .overflow ∧ Overflows n maps := by
  cases h : (readQueues n maps warned).value.outcome with
  | ok _ =>
    have hnone := (outcome_readQueues_eq_ok_iff n maps warned).1 h
    exact iff_of_false nofun fun hover => hnone hover.2
  | error e' =>
    have hover : Overflows n maps := not_not.1 fun hnone => by
      rw [(outcome_readQueues_eq_ok_iff n maps warned).2 hnone] at h
      cases h
    rw [value_readQueues, Attempt.outcome_each_eq_error_iff (outcome_enter n)] at h
    obtain ⟨r, -, herror⟩ := h
    obtain ⟨rfl, -⟩ := QueueRead.outcome_eq_error_iff.1 herror
    rw [Except.error.injEq, eq_comm, and_iff_left hover]

/-- The reads up to the first that overflows, and that one. -/
def reachedReads : List QueueRead := Attempt.reached (QueueRead.outcome n) (queueReads maps)

theorem after_readQueues : (readQueues n maps warned).value.after =
    (reachedReads n maps).foldl (fun acc r => (r.enter n acc).value.after) ⟨.empty, warned⟩ := by
  have hloop := congrArg Logged.value
    (Attempt.after_each (outcome_enter n) (queueReads maps) ⟨.empty, warned⟩)
  rw [Logged.value_map, Logged.value_foldlM] at hloop
  rw [value_readQueues, hloop]
  rfl

theorem get?_readQueues (sub : SubId) : (readQueues n maps warned).value.after.rows.get? sub =
    Bindings.last? sub ((reachedReads n maps).filterMap (QueueRead.row? n)) := by
  rw [after_readQueues, Dict.get?_foldl_insert QueueRows.rows (QueueRead.row? n)]
  · exact Option.or_none
  · intro acc r
    rw [QueueRead.value_enter]
    cases r.row? n <;> rfl

/-- The rows are those of all counters that are there, if none of them overflows. -/
theorem get?_readQueues_iff (hnone : ¬ Overflows n maps) {sub : SubId} {v : UInt64} :
    (readQueues n maps warned).value.after.rows.get? sub = some v ↔
      ∃ q ∈ queuesOf maps, ∃ counter ∈ queueCounters,
        queueCounterArcs? q counter.1 = some sub ∧ queueCounterOf n maps q counter.2 = some v := by
  have hall : reachedReads n maps = queueReads maps := Attempt.reached_of_ok fun r hr =>
    QueueRead.outcome_eq_ok_iff.2 fun hover => hnone ((overflows_iff n maps).2 ⟨r, hr, hover⟩)
  have hmem : ∀ v, (sub, v) ∈ (queueReads maps).filterMap (QueueRead.row? n) ↔
      ∃ q ∈ queuesOf maps, ∃ counter ∈ queueCounters,
        queueCounterArcs? q counter.1 = some sub ∧ queueCounterOf n maps q counter.2 = some v := by
    intro v
    have hrow : ∀ r : QueueRead,
        r.row? n = some (sub, v) ↔ r.word? n = some v ∧ r.arcs? = some sub := by
      intro r
      rw [QueueRead.row?]
      cases r.word? n <;> cases r.arcs? <;> simp [and_comm]
    simp only [List.mem_filterMap, hrow]
    constructor
    · rintro ⟨r, hr, hword, harcs⟩
      obtain ⟨hq, hcounter, -⟩ := mem_queueReads_iff.1 hr
      exact ⟨r.queue, hq, r.counter, hcounter, harcs,
        (queueCounterOf_eq_word? n maps hr).trans hword⟩
    · rintro ⟨q, hq, counter, hcounter, harcs, hv⟩
      obtain ⟨r, hr, rfl, rfl, hword⟩ := exists_read n maps hq hcounter hv
      exact ⟨r, hr, hword, harcs⟩
  rw [get?_readQueues, hall, ← hmem]
  refine Bindings.last?_eq_some_iff_mem fun v v' hv hv' => ?_
  obtain ⟨q, -, counter, hcounter, hsub, hvalue⟩ := (hmem v).1 hv
  obtain ⟨q', -, counter', hcounter', hsub', hvalue'⟩ := (hmem v').1 hv'
  obtain ⟨rfl, rfl⟩ := eq_of_queueCounterArcs? hcounter hcounter' hsub hsub'
  exact Option.some.inj (hvalue.symm.trans hvalue')

/-! Neither the outcome nor the rows depend on what was told before. -/

theorem outcome_readQueues : (readQueues n maps warned).value.outcome =
    (readQueues n maps .fresh).value.outcome := by
  cases h : (readQueues n maps .fresh).value.outcome with
  | ok _ =>
    exact (outcome_readQueues_eq_ok_iff n maps warned).2
      ((outcome_readQueues_eq_ok_iff n maps .fresh).1 h)
  | error e =>
    exact (outcome_readQueues_eq_error_iff n maps warned).2
      ((outcome_readQueues_eq_error_iff n maps .fresh).1 h)

theorem rows_readQueues : (readQueues n maps warned).value.after.rows =
    (readQueues n maps .fresh).value.after.rows :=
  Dict.ext_get? fun sub => (get?_readQueues n maps warned sub).trans
    (get?_readQueues n maps .fresh sub).symm

/-- The complaints of the reads, in order. -/
def missingIn : List (String × Event) := (reachedReads n maps).flatMap (QueueRead.complaints n)

/-- Of the complaints those are told that are new, and all are remembered. -/
theorem told_readQueues {passes : Event → Bool}
    (hpasses : ∀ e, passes e = true → e.kind = .remembered) :
    let read := readQueues n maps warned
    read.value.after.warned = (warned.tellNew (missingIn n maps)).value ∧
      read.events.filter passes =
        ((warned.news (missingIn n maps)).map Prod.snd).filter passes := by
  intro read
  have hagree := agree_readQueues n maps warned fun e he hunread => by
    rw [hpasses e he] at hunread
    cases hunread
  have hloop := Attempt.after_each (outcome_enter n) (queueReads maps) ⟨.empty, warned⟩
  have hevents : ∀ (acc : QueueRows) (r : QueueRead),
      (Attempt.after <$> r.enter n acc).events.filter passes =
        ((acc.warned.news (r.complaints n)).map Prod.snd).filter passes := fun acc r => by
    rw [Logged.events_map, QueueRead.events_enter]
  have htold := Once.told_foldlM QueueRows.warned (QueueRead.complaints n)
    (fun acc r => by rw [Logged.value_map, QueueRead.value_enter]) hevents (reachedReads n maps)
    ⟨.empty, warned⟩
  rw [reachedReads, ← hloop, Logged.value_map, Logged.events_map] at htold
  rw [show read.value = _ from hagree.value, show read.events.filter passes = _ from hagree.events]
  exact htold

end Reads

end SwitchMib.Mib
