import Mathlib.Algebra.Group.Nat.Defs
import SwitchMib.Proofs.Mib.ChipQueues

/-!
# The queue rows of a device

The rows of the queue statistics are read in two steps: the ports give the numbers of their queues,
and a queue gives its identifier. Both maps of a loaded identity know the same queues. A row shows
its queue under the next number. The last of all numbers has none after it, so a refresh overflows
where the queue of that number has a counter.

* `QueueMaps.Agree`, `QueueMaps.agree_loadAll`: the maps of an identity know the same queues.
* `Counts`: a counter that is stored for a queue of an identity.
* `QueueStats.Exact`: every row is under the number after that of its queue.
* `QueueStats.exact_or_overflow`: the rows after a refresh, and when it overflows.
* `QueueStats.not_exact_of_last_queue`: a refresh that overflows.
-/

namespace SwitchMib
set_option autoImplicit false

open Identity Snmp Store

/-! ## Both maps know the same queues -/

namespace Identity.QueueMaps

/-- The queues with an identifier are those that are listed for their ports. -/
def Agree (maps : QueueMaps) : Prop :=
  ∀ q, (maps.idByQueue.get? q).isSome = true ↔ Lists maps.queuesByPort q

theorem agree_empty : Agree empty := by
  intro q
  have hnone : ¬ Lists empty.queuesByPort q := List.not_mem_nil
  have hbound : empty.idByQueue.get? q = none := rfl
  simp [hnone, hbound]

theorem Agree.addQueue {maps : QueueMaps} (h : Agree maps) (q : QueueId) (id : String) :
    Agree (maps.addQueue q id) := by
  intro other
  have hpair : other = q ↔ other.port = q.port ∧ other.queue ∈ [q.queue] := by
    cases other
    cases q
    simp
  rw [QueueMaps.addQueue, Dict.get?_insert, lists_addNumbers, ← h other, ← hpair]
  by_cases hsame : other = q
  · simp [hsame]
  · simp [hsame, KeyOrder.same_eq_false_iff.2 hsame]

theorem Agree.merge {a b : QueueMaps} (ha : Agree a) (hb : Agree b) : Agree (a.merge b) := by
  intro q
  rw [lists_merge, ← ha q, ← hb q, QueueMaps.merge, Dict.get?_merge, Option.isSome_or,
    Bool.or_eq_true, or_comm]

theorem agree_load {ns : Namespace} {maps : QueueMaps} (h : (load ns).outcome = .ok maps) :
    Agree maps := by
  obtain ⟨entries, -, hentered⟩ := Load.outcome_bind_eq_ok_iff.1 h
  unfold ofEntries at hentered
  by_cases hnone : (ns.visit.order entries).isEmpty = true
  · rw [if_pos hnone] at hentered
    cases hentered
  · rw [if_neg hnone] at hentered
    obtain ⟨found, hloop, hdone⟩ := Load.outcome_bind_eq_ok_iff.1 hentered
    have hfound : Agree found.1 := by
      refine Load.foldlM_induction (P := fun acc => Agree acc.1) agree_empty ?_ hloop
      intro acc hacc entry _ acc' hstep
      unfold addEntry at hstep
      cases hq : queueOfName entry.1 with
      | error e =>
        simp only [hq] at hstep
        obtain rfl : acc = acc' := Except.ok.inj hstep
        exact hacc
      | ok q =>
        simp only [hq] at hstep
        obtain ⟨counted, -, hadded⟩ := Load.outcome_bind_eq_ok_iff.1 hstep
        rw [← Except.ok.inj hadded]
        exact hacc.addQueue q entry.2
    obtain ⟨found, counted⟩ := found
    cases counted with
    | false => cases hdone
    | true =>
      obtain rfl : found = maps := Except.ok.inj hdone
      exact hfound

theorem agree_loadAll {n : Namespaces} {maps : QueueMaps} (h : (loadAll n).outcome = .ok maps) :
    Agree maps := by
  refine Load.foldlM_induction (P := Agree) agree_empty ?_ h
  intro merged hmerged ns _ next hstep
  obtain ⟨part, hpart, hmerge⟩ := Load.outcome_bind_eq_ok_iff.1 hstep
  rw [← Except.ok.inj hmerge]
  exact hmerged.merge (agree_load hpart)

end Identity.QueueMaps

/-! ## Rows after a refresh -/

namespace Mib

/-- The counters of a queue, by their numbers in the table. -/
def queueStatistics : List (UInt32 × String) :=
  [ (1, "SAI_QUEUE_STAT_PACKETS")
  , (2, "SAI_QUEUE_STAT_BYTES")
  , (3, "SAI_QUEUE_STAT_DROPPED_PACKETS")
  , (4, "SAI_QUEUE_STAT_DROPPED_BYTES") ]

/-- The store holds a counter for a queue of an identity: the merged hash of the queue has a text
under the name of the counter that reads as a number of 64 bits. -/
def Counts (n : Namespaces) (maps : QueueMaps) (q : QueueId) (counter : UInt32 × String)
    (v : UInt64) : Prop :=
  counter ∈ queueStatistics ∧ ∃ id text, maps.idByQueue.get? q = some id ∧
    n.field? .counters (Schema.queueCounterKey id) counter.2 = some text ∧
    Text.readWord64 text = .ok v

/-- The place of a counter of a queue, in numbers without a bound: its port, the direction, the
number after that of the queue and the number of the counter. -/
def queueCounterPlace (q : QueueId) (counter : UInt32 × String) : List Nat :=
  [q.port.toNat, 2, q.queue.toNat + 1, counter.1.toNat]

theorem queueCounterArcs?_eq_some_iff_place {q : QueueId} {counter : UInt32 × String}
    {sub : SubId} :
    queueCounterArcs? q counter.1 = some sub ↔
      sub.map UInt32.toNat = queueCounterPlace q counter := by
  have hinj : Function.Injective (List.map UInt32.toNat) :=
    List.map_injective_iff.2 fun _ _ => UInt32.toNat_inj.1
  have hplace : q.queue.toNat + 1 < 2 ^ 32 →
      [q.port, 2, q.queue + 1, counter.1].map UInt32.toNat = queueCounterPlace q counter := by
    intro hnext
    have hsucc : (q.queue + 1).toNat = q.queue.toNat + 1 := by
      rw [UInt32.toNat_add, UInt32.toNat_one, Nat.mod_eq_of_lt hnext]
    simp [queueCounterPlace, hsucc]
  rw [queueCounterArcs?_eq_some_iff]
  constructor
  · rintro ⟨hnext, rfl⟩
    exact hplace hnext
  · intro hsub
    have hnext : q.queue.toNat + 1 < 2 ^ 32 := by
      have hmem : q.queue.toNat + 1 ∈ sub.map UInt32.toNat := by simp [hsub, queueCounterPlace]
      obtain ⟨arc, -, harc⟩ := List.mem_map.1 hmem
      exact harc ▸ arc.toNat_lt
    exact ⟨hnext, hinj (hsub.trans (hplace hnext).symm)⟩

section Loaded

variable {n loaded : Namespaces} {maps : QueueMaps} (h : n.Healthy)

include h

theorem queueCounterOf_eq_some_iff {q : QueueId} {counter : String} {v : UInt64} :
    queueCounterOf n maps q counter = some v ↔
      ∃ id text, maps.idByQueue.get? q = some id ∧
        n.field? .counters (Schema.queueCounterKey id) counter = some text ∧
        Text.readWord64 text = .ok v := by
  simp only [queueCounterOf, Option.bind_eq_some_iff, Namespaces.get?_getAll h,
    toOption_eq_some_iff, InterfaceSnapshot.counterIn]
  constructor
  · rintro ⟨id, hid, text, htext, hread⟩
    exact ⟨id, text, hid, htext, hread⟩
  · rintro ⟨id, text, hid, htext, hread⟩
    exact ⟨id, hid, text, htext, hread⟩

variable (hmaps : (QueueMaps.loadAll loaded).outcome = .ok maps)

include hmaps

/-- The counters that are read are those that the store holds. -/
theorem counts_iff {q : QueueId} {counter : UInt32 × String} {v : UInt64} :
    Counts n maps q counter v ↔ q ∈ queuesOf maps ∧ counter ∈ queueCounters ∧
      queueCounterOf n maps q counter.2 = some v := by
  rw [mem_queuesOf, ← QueueMaps.agree_loadAll hmaps q, queueCounterOf_eq_some_iff h]
  constructor
  · rintro ⟨hcounter, id, text, hid, hstored⟩
    exact ⟨Option.isSome_of_eq_some hid, hcounter, id, text, hid, hstored⟩
  · rintro ⟨-, hcounter, hstored⟩
    exact ⟨hcounter, hstored⟩

theorem overflows_iff_counts : Overflows n maps ↔
    ∃ q counter v, Counts n maps q counter v ∧ 2 ^ 32 ≤ q.queue.toNat + 1 := by
  simp only [counts_iff h hmaps, Overflows, Option.ne_none_iff_exists']
  constructor
  · rintro ⟨q, hq, counter, hcounter, ⟨v, hv⟩, hlast⟩
    exact ⟨q, counter, v, ⟨hq, hcounter, hv⟩, hlast⟩
  · rintro ⟨q, counter, v, ⟨hq, hcounter, hv⟩, hlast⟩
    exact ⟨q, hq, counter, hcounter, ⟨v, hv⟩, hlast⟩

end Loaded

namespace QueueStats

/-- The rows are those of the counters of the queues of an identity, each under its port, the
direction, the number after that of the queue and the number of the counter. -/
def Exact (t : QueueStats) (n : Namespaces) (maps : QueueMaps) : Prop :=
  ∀ sub value, t.valueAt sub = some value ↔
    ∃ q counter v, Counts n maps q counter v ∧
      sub.map UInt32.toNat = queueCounterPlace q counter ∧ value = .counter64 v

section Refresh

variable {loaded : Namespaces} {t : QueueStats} {out : Outside}

theorem exact_refresh (hmaps : (QueueMaps.loadAll loaded).outcome = .ok t.queues)
    (h : out.namespaces.Healthy) (hnone : ¬ Overflows out.namespaces t.queues) :
    (t.refresh out).value.after.Exact out.namespaces t.queues := by
  intro sub value
  have hrows : (t.refresh out).value.after.valueAt sub =
      ((readQueues out.namespaces t.queues .fresh).value.after.rows.get? sub).map .counter64 := by
    have hcell := t.cell_refresh out
    rw [built_eq_ok_iff.2 ⟨hnone, rfl⟩] at hcell
    rw [valueAt, hcell]
    rfl
  rw [hrows, Option.map_eq_some_iff]
  simp only [get?_readQueues_iff _ _ _ hnone, counts_iff h hmaps,
    ← queueCounterArcs?_eq_some_iff_place]
  constructor
  · rintro ⟨v, ⟨q, hq, counter, hcounter, harcs, hv⟩, rfl⟩
    exact ⟨q, counter, v, ⟨hq, hcounter, hv⟩, harcs, rfl⟩
  · rintro ⟨q, counter, v, ⟨hq, hcounter, hv⟩, harcs, rfl⟩
    exact ⟨v, ⟨q, hq, counter, hcounter, harcs, hv⟩, rfl⟩

/-- A refresh in a world in which all can be read succeeds just when no queue with a counter has the
last of all numbers, which no number follows. The rows are then those of the counters that are
stored for the queues of the identity of the table, each under the number after that of its queue.
Otherwise the refresh overflows and the rows stay as they are. No two counters share a place. -/
theorem exact_or_overflow (hmaps : (QueueMaps.loadAll loaded).outcome = .ok t.queues)
    (h : out.namespaces.Healthy) :
    let a := (t.refresh out).value
    let n := out.namespaces
    (a.outcome = .ok () ↔
      ∀ q counter v, Counts n t.queues q counter v → q.queue.toNat + 1 < 2 ^ 32) ∧
    (a.outcome = .ok () → a.after.Exact n t.queues) ∧
    (a.outcome ≠ .ok () → a.outcome = .error .overflow ∧ a.after.cell = t.cell) ∧
    ∀ q q' : QueueId, ∀ counter ∈ queueStatistics, ∀ counter' ∈ queueStatistics,
      queueCounterPlace q counter = queueCounterPlace q' counter' →
        q = q' ∧ counter = counter' := by
  intro a n
  have hdone : a.outcome = .ok () ↔ ¬ Overflows n t.queues := outcome_readQueues_eq_ok_iff _ _ _
  refine ⟨?_, fun hok => exact_refresh hmaps h (hdone.1 hok), fun hfails => ?_, ?_⟩
  · rw [hdone, show Overflows n t.queues ↔ _ from overflows_iff_counts h hmaps]
    simp only [not_exists, not_and, Nat.not_le]
  · have hover : Overflows n t.queues := not_not.1 fun hnone => hfails (hdone.2 hnone)
    refine ⟨(outcome_readQueues_eq_error_iff _ _ _).2 ⟨rfl, hover⟩, ?_⟩
    have hcell := t.cell_refresh out
    rwa [built_eq_error_iff.2 ⟨rfl, hover⟩] at hcell
  · intro q q' counter hcounter counter' hcounter' hplace
    simp only [queueCounterPlace, List.cons.injEq, Nat.add_right_cancel_iff, and_true,
      true_and, UInt32.toNat_inj] at hplace
    obtain ⟨hport, hqueue, harc⟩ := hplace
    have hinj : ∀ a ∈ queueStatistics, ∀ b ∈ queueStatistics, a.1 = b.1 → a = b := by decide
    cases q
    cases q'
    exact ⟨congrArg₂ QueueId.mk hport hqueue, hinj _ hcounter _ hcounter' harc⟩

end Refresh

/-- A world in which one port has two queues, each of which has counted packets. -/
def worldOfQueues (number : String) : Outside where
  namespaces :=
    ⟨[ (Schema.queueNameMap, "Ethernet0:3", "oid:0x15")
      , (Schema.queueNameMap, "Ethernet0:" ++ number, "oid:0x16")
      , (Schema.queueCounterKey "oid:0x15", "SAI_QUEUE_STAT_PACKETS", "7")
      , (Schema.queueCounterKey "oid:0x16", "SAI_QUEUE_STAT_PACKETS", "9") ].foldl
        (fun ns write => ns.setFields .counters write.1 [write.2]) (.empty ""), []⟩
  neighbours := .ok ""
  platform := ⟨.ok 0, fun _ => .ok false, fun _ => .ok false⟩

theorem healthy_worldOfQueues (number : String) : (worldOfQueues number).namespaces.Healthy := by
  intro ns hns
  obtain rfl := List.mem_singleton.1 hns
  exact ⟨rfl, rfl⟩

/-- The rows of the queues 3 and 0 are those of the numbers 4 and 1. -/
theorem exact_of_queue_three :
    let out := worldOfQueues "0"
    ∃ t : QueueStats, (QueueMaps.loadAll out.namespaces).outcome = .ok t.queues ∧
      out.namespaces.Healthy ∧ (t.refresh out).value.outcome = .ok () ∧
      (t.refresh out).value.after.Exact out.namespaces t.queues ∧
      (t.refresh out).value.after.cells = [[1, 2, 1, 1], [1, 2, 4, 1]] ∧
      (t.refresh out).value.after.valueAt [1, 2, 4, 1] = some (.counter64 7) := by
  intro out
  have hrun : (QueueMaps.loadAll out.namespaces).outcome.map (fun maps =>
      let a := (refresh out ⟨maps, .fresh .empty, .fresh⟩).value
      (a.outcome.isOk, a.after.cells, a.after.valueAt [1, 2, 4, 1])) =
      .ok (true, [[1, 2, 1, 1], [1, 2, 4, 1]], some (.counter64 7)) := by decide +kernel
  obtain ⟨maps, hmaps, hrun⟩ := exists_eq_ok_of_map hrun
  simp only [Prod.mk.injEq] at hrun
  obtain ⟨hok, hcells, hvalue⟩ := hrun
  obtain ⟨⟨⟩, hdone⟩ := exists_eq_ok_of_isOk hok
  have hhealthy := healthy_worldOfQueues "0"
  let t : QueueStats := ⟨maps, .fresh .empty, .fresh⟩
  exact ⟨t, hmaps, hhealthy, hdone, (exact_or_overflow (t := t) hmaps hhealthy).2.1 hdone, hcells,
    hvalue⟩

/-- No number follows the last, so the counter of its queue has no row, and neither has that of the
other queue. -/
theorem not_exact_of_last_queue :
    let out := worldOfQueues "4294967295"
    (∃ t : QueueStats, (QueueMaps.loadAll out.namespaces).outcome = .ok t.queues ∧
      out.namespaces.Healthy ∧
      Counts out.namespaces t.queues ⟨1, 3⟩ (1, "SAI_QUEUE_STAT_PACKETS") 7 ∧
      (t.refresh out).value.outcome = .error .overflow ∧
      (t.refresh out).value.after.valueAt [1, 2, 4, 1] = none) ∧
    ¬ ∀ (t : QueueStats) (out : Outside),
      (QueueMaps.loadAll out.namespaces).outcome = .ok t.queues → out.namespaces.Healthy →
        (t.refresh out).value.after.Exact out.namespaces t.queues := by
  intro out
  have hrun : (QueueMaps.loadAll out.namespaces).outcome.map (fun maps =>
      let a := (refresh out ⟨maps, .fresh .empty, .fresh⟩).value
      (maps.idByQueue.get? ⟨1, 3⟩, a.outcome.isOk, a.after.valueAt [1, 2, 4, 1])) =
      .ok (some "oid:0x15", false, none) := by decide +kernel
  obtain ⟨maps, hmaps, hrun⟩ := exists_eq_ok_of_map hrun
  simp only [Prod.mk.injEq] at hrun
  obtain ⟨hid, hfails, hnone⟩ := hrun
  have hhealthy := healthy_worldOfQueues "4294967295"
  let t : QueueStats := ⟨maps, .fresh .empty, .fresh⟩
  have hcounts : Counts out.namespaces maps ⟨1, 3⟩ (1, "SAI_QUEUE_STAT_PACKETS") 7 :=
    ⟨by decide, "oid:0x15", "7", hid, by decide +kernel, by decide +kernel⟩
  have hover : (t.refresh out).value.outcome = .error .overflow := by
    refine ((exact_or_overflow (t := t) hmaps hhealthy).2.2.1 fun hok => ?_).1
    have hisOk : (t.refresh out).value.outcome.isOk = false := hfails
    rw [hok] at hisOk
    cases hisOk
  refine ⟨⟨t, hmaps, hhealthy, hcounts, hover, hnone⟩, fun hall => ?_⟩
  have hserved := (hall t out hmaps hhealthy [1, 2, 4, 1] (.counter64 7)).2
    ⟨_, _, _, hcounts, by decide, rfl⟩
  rw [hnone] at hserved
  cases hserved

end QueueStats

end Mib

end SwitchMib
