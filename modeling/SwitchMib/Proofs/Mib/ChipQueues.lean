import SwitchMib.Proofs.Identity.Apart
import SwitchMib.Proofs.Mib.Renewal

/-!
# The queue rows of a chip

Where the chips of a device are apart, the queues of a chip have the rows in the table of the device
that they have in the table of that chip alone.

* `QueueMaps.Lists`, `QueueMaps.lists_loadAll`: the queues that are found in some places.
* `QueueMaps.lists_own`, `QueueMaps.idByQueue_own`: the queues of a chip and their identifiers.
* `queueCounterOf_own`, `overflows_iff_of_separate`: the counters of a chip, and those that
  overflow.
* `QueueStats.ReadFrom`, `QueueStats.exists_build`: a table that has been built.
* `QueueStats.exists_place_of_valueAt`: its rows are about ports of the namespaces.
* `QueueStats.valueAt_of_ofChip`: a row of the device is that of the chip that has the port.
-/

namespace SwitchMib
set_option autoImplicit false

open Identity Snmp Store Store.Namespaces

/-! ## Queues of several places -/

namespace Identity.QueueMaps

theorem mem_insertNumber {n m : UInt32} {l : List UInt32} :
    m ∈ insertNumber n l ↔ m = n ∨ m ∈ l := by
  induction l with
  | nil => simp [insertNumber]
  | cons first rest ih =>
    rw [insertNumber]
    split
    · simp
    · split
      · simp [ih, or_left_comm]
      · rename_i hbefore hbefore'
        have hsame : n = first := KeyOrder.connex (by simpa using hbefore) (by simpa using hbefore')
        simp [hsame]

theorem mem_foldl_insertNumber {m : UInt32} (numbers l : List UInt32) :
    m ∈ numbers.foldl (fun l n => insertNumber n l) l ↔ m ∈ numbers ∨ m ∈ l := by
  induction numbers generalizing l with
  | nil => simp
  | cons n numbers ih =>
    rw [List.foldl_cons, ih, mem_insertNumber, List.mem_cons, or_left_comm, or_assoc]

/-- A queue is among the numbers that are listed for its port. -/
def Lists (lists : Dict UInt32 (List UInt32)) (q : QueueId) : Prop :=
  q.queue ∈ (lists.get? q.port).getD []

theorem lists_addNumbers {lists : Dict UInt32 (List UInt32)} {port : UInt32}
    {numbers : List UInt32} {q : QueueId} :
    Lists (addNumbers lists port numbers) q ↔
      Lists lists q ∨ (q.port = port ∧ q.queue ∈ numbers) := by
  rw [Lists, Lists, addNumbers, Dict.get?_insert]
  by_cases hport : q.port = port
  · rw [if_pos (KeyOrder.same_iff.2 hport), Option.getD_some, mem_foldl_insertNumber, hport]
    simp [or_comm]
  · rw [KeyOrder.same_eq_false_iff.2 hport]
    simp [hport]

theorem lists_iff_exists_mem {lists : Dict UInt32 (List UInt32)} {q : QueueId} :
    Lists lists q ↔ ∃ p ∈ lists.toList, q.port = p.1 ∧ q.queue ∈ p.2 := by
  rw [Lists]
  constructor
  · intro h
    cases hbound : lists.get? q.port with
    | none =>
      rw [hbound] at h
      cases h
    | some numbers =>
      rw [hbound] at h
      exact ⟨(q.port, numbers), Dict.mem_toList_iff.2 hbound, rfl, h⟩
  · rintro ⟨⟨port, numbers⟩, hp, rfl, hnumber⟩
    rw [Dict.mem_toList_iff.1 hp]
    exact hnumber

theorem lists_foldl_addNumbers (l : List (UInt32 × List UInt32))
    {lists : Dict UInt32 (List UInt32)} {q : QueueId} :
    Lists (l.foldl (fun lists p => addNumbers lists p.1 p.2) lists) q ↔
      Lists lists q ∨ ∃ p ∈ l, q.port = p.1 ∧ q.queue ∈ p.2 := by
  induction l generalizing lists with
  | nil => simp
  | cons p l ih =>
    rw [List.foldl_cons, ih, lists_addNumbers, or_assoc]
    simp

theorem lists_merge {a b : QueueMaps} {q : QueueId} :
    Lists (a.merge b).queuesByPort q ↔ Lists a.queuesByPort q ∨ Lists b.queuesByPort q := by
  rw [merge, lists_foldl_addNumbers, ← lists_iff_exists_mem]

theorem lists_foldl_merge (parts : List QueueMaps) {start : QueueMaps} {q : QueueId} :
    Lists (parts.foldl merge start).queuesByPort q ↔
      Lists start.queuesByPort q ∨ ∃ part ∈ parts, Lists part.queuesByPort q := by
  induction parts generalizing start with
  | nil => simp
  | cons part parts ih =>
    rw [List.foldl_cons, ih, lists_merge, or_assoc]
    simp

theorem lists_foldl_addPair (pairs : List (QueueId × String)) {start : QueueMaps} {q : QueueId} :
    Lists (pairs.foldl addPair start).queuesByPort q ↔
      Lists start.queuesByPort q ∨ q ∈ pairs.map Prod.fst := by
  induction pairs generalizing start with
  | nil => simp
  | cons p pairs ih =>
    have hself : q = p.1 ↔ q.port = p.1.port ∧ q.queue ∈ [p.1.queue] := by
      rw [List.mem_singleton]
      constructor
      · rintro rfl
        exact ⟨rfl, rfl⟩
      · rintro ⟨hport, hqueue⟩
        cases q
        exact congrArg₂ QueueId.mk hport hqueue
    rw [List.foldl_cons, ih, addPair, addQueue, lists_addNumbers, ← hself, or_assoc, List.map_cons,
      List.mem_cons]

/-! ## Queues of a chip -/

theorem exists_name_of_mem_queuesIn {c : Namespace} {q : QueueId} {id : String}
    (h : (q, id) ∈ queuesIn c) : q.port ∈ c.indexes ∧
      (.counters, Schema.queueCounterKey id) ∈ c.objectKeys := by
  obtain ⟨entry, hentry, hq⟩ := mem_queuesIn_iff.1 h
  obtain ⟨other, hname, hpair⟩ := Option.map_eq_some_iff.1 hq
  obtain ⟨rfl, rfl⟩ := Prod.mk.inj hpair
  refine ⟨?_, Namespace.queueKey_mem_objectKeys (mem_values_of_mem hentry)⟩
  rw [toOption_eq_some_iff, queueOfName] at hname
  cases hcut : Text.cutFirst ':' entry.1 with
  | none =>
    rw [hcut] at hname
    cases hname
  | some parts =>
    obtain ⟨port, rest⟩ := parts
    simp only [hcut] at hname
    cases hnumber : queueNumber? rest with
    | none =>
      simp only [hnumber] at hname
      cases hname
    | some queue =>
      simp only [hnumber, Net.IfName.index] at hname
      cases hindex : Net.IfName.index? port with
      | none =>
        simp only [hindex] at hname
        cases hname
      | some index =>
        simp only [hindex] at hname
        obtain rfl := Except.ok.inj hname
        have hport : port ∈ c.interfaceNames := by
          refine List.mem_append_right _ (List.mem_filterMap.2 ⟨entry.1, ?_, ?_⟩)
          · exact mem_keys_of_mem hentry
          · rw [hcut]
            rfl
        exact Namespace.mem_indexes hport hindex

theorem mem_queuesIn_of_idByQueue {c : Namespace} {q : QueueId} {id : String}
    (h : ((queuesIn c).foldl addPair empty).idByQueue.get? q = some id) :
    (q, id) ∈ queuesIn c := by
  rw [Dict.get?_foldl_insert idByQueue some (fun _ _ => rfl), List.filterMap_some] at h
  exact Bindings.mem_of_last? (Option.or_none.symm.trans h)

section Loaded

variable {n : Namespaces} {maps : QueueMaps} (h : n.Healthy)
  (hqueues : ∀ c ∈ n.members, c.HasCountedQueue)

include h hqueues

theorem exists_loadAll : ∃ maps, (loadAll n).outcome = .ok maps :=
  Load.succeeds_merged (fun c hc => ⟨_, outcome_load (h c hc) (hqueues c hc)⟩) _

variable (hmaps : (loadAll n).outcome = .ok maps)

include hmaps

theorem lists_loadAll {q : QueueId} :
    Lists maps.queuesByPort q ↔ ∃ c ∈ n.members, q ∈ (queuesIn c).map Prod.fst := by
  obtain ⟨part, hpart, rfl⟩ := Load.exists_merged_of_outcome hmaps
  have hempty : ¬ Lists empty.queuesByPort q := List.not_mem_nil
  rw [lists_foldl_merge, or_iff_right hempty]
  simp only [List.mem_map (f := part), exists_exists_and_eq_and]
  refine exists_congr fun c => and_congr_right fun hc => ?_
  have hload := (hpart c hc).symm.trans (outcome_load (h c hc) (hqueues c hc))
  rw [Except.ok.inj hload, lists_foldl_addPair, or_iff_right hempty]

theorem exists_chip_of_idByQueue {q : QueueId} {id : String}
    (hid : maps.idByQueue.get? q = some id) : ∃ c ∈ n.members, (q, id) ∈ queuesIn c := by
  have hmerge : ∀ a b : QueueMaps, (a.merge b).idByQueue = a.idByQueue.merge b.idByQueue :=
    fun _ _ => rfl
  obtain ⟨c, hc, part, hload, hget⟩ := Load.exists_part_of_merged hmaps hmerge rfl hid
  rw [outcome_load (h c hc) (hqueues c hc)] at hload
  exact ⟨c, hc, mem_queuesIn_of_idByQueue (Except.ok.inj hload ▸ hget)⟩

end Loaded

section Chip

variable {n : Namespaces} {maps own : QueueMaps} {c : Namespace} (h : n.Separate)
  (hqueues : ∀ c ∈ n.chips, c.HasCountedQueue) (hc : c ∈ n.chips)
  (hmaps : (loadAll n).outcome = .ok maps) (hown : (loadAll (alone c)).outcome = .ok own)

include h hqueues hc hmaps hown

theorem lists_own {q : QueueId} (hi : q.port ∈ c.indexes) :
    Lists maps.queuesByPort q ↔ Lists own.queuesByPort q := by
  have hmembers := h.members
  rw [lists_loadAll h.allHealthy (hmembers ▸ hqueues) hmaps,
    lists_loadAll (h.aloneHealthy hc) (by simpa [alone, members] using hqueues c hc) hown, hmembers]
  constructor
  · rintro ⟨d, hd, hq⟩
    obtain ⟨p, hp, rfl⟩ := List.mem_map.1 hq
    by_cases hsame : d = c
    · subst hsame
      exact ⟨d, List.mem_cons_self, hq⟩
    · exact absurd hi ((h.apart_of_ne hc hd hsame).indexes _ (exists_name_of_mem_queuesIn hp).1)
  · rintro ⟨d, hd, hq⟩
    obtain rfl := List.mem_singleton.1 hd
    exact ⟨d, hc, hq⟩

theorem idByQueue_own {q : QueueId} (hi : q.port ∈ c.indexes) :
    maps.idByQueue.get? q = own.idByQueue.get? q := by
  rw [loadAll, h.members] at hmaps
  refine Load.get?_merged_of_sole hc hmaps hown (fun _ _ => rfl) rfl
    fun d hd hne part hload id hget => ?_
  rw [outcome_load (h.healthy d hd) (hqueues d hd)] at hload
  have hmem := mem_queuesIn_of_idByQueue (Except.ok.inj hload ▸ hget)
  exact (h.apart_of_ne hc hd hne).indexes _ (exists_name_of_mem_queuesIn hmem).1 hi

end Chip

end Identity.QueueMaps

/-! ## Rows -/

namespace Mib

theorem mem_queuesOf {maps : QueueMaps} {q : QueueId} :
    q ∈ queuesOf maps ↔ QueueMaps.Lists maps.queuesByPort q := by
  rw [QueueMaps.lists_iff_exists_mem, queuesOf, List.mem_flatMap]
  refine exists_congr fun p => and_congr_right fun hp => ?_
  rw [List.mem_map]
  constructor
  · rintro ⟨queue, hqueue, rfl⟩
    exact ⟨rfl, hqueue⟩
  · rintro ⟨hport, hqueue⟩
    exact ⟨q.queue, hqueue, by rw [← hport]⟩

section Chip

variable {n : Namespaces} {maps own : QueueMaps} {c : Namespace} (h : n.Separate)
  (hqueues : ∀ c ∈ n.chips, c.HasCountedQueue) (hmaps : (QueueMaps.loadAll n).outcome = .ok maps)

include h hqueues hmaps

/-- A queue of the device belongs to the chip that has its port. -/
theorem exists_chip_of_mem_queuesOf {q : QueueId} (hq : q ∈ queuesOf maps) :
    ∃ c ∈ n.chips, q.port ∈ c.indexes := by
  obtain ⟨c, hc, hmem⟩ := (QueueMaps.lists_loadAll h.allHealthy (h.members ▸ hqueues) hmaps).1
    (mem_queuesOf.1 hq)
  obtain ⟨p, hp, rfl⟩ := List.mem_map.1 hmem
  exact ⟨c, h.members ▸ hc, (QueueMaps.exists_name_of_mem_queuesIn hp).1⟩

variable (hc : c ∈ n.chips) (hown : (QueueMaps.loadAll (alone c)).outcome = .ok own)

include hc hown

/-- The counters of a queue of a chip are those that the chip alone has. -/
theorem queueCounterOf_own {q : QueueId} (hi : q.port ∈ c.indexes) (counter : String) :
    queueCounterOf n maps q counter = queueCounterOf (alone c) own q counter := by
  rw [queueCounterOf, queueCounterOf, QueueMaps.idByQueue_own h hqueues hc hmaps hown hi]
  refine Option.bind_congr fun id hid => ?_
  obtain ⟨d, hd, hmem⟩ := QueueMaps.exists_chip_of_idByQueue (h.aloneHealthy hc)
    (List.forall_mem_singleton.2 (hqueues c hc)) hown hid
  obtain rfl := List.mem_singleton.1 hd
  rw [h.getAll_eq hc (QueueMaps.exists_name_of_mem_queuesIn hmem).2]

theorem mem_queuesOf_own {q : QueueId} (hi : q.port ∈ c.indexes) :
    q ∈ queuesOf maps ↔ q ∈ queuesOf own := by
  rw [mem_queuesOf, mem_queuesOf, QueueMaps.lists_own h hqueues hc hmaps hown hi]

/-- What overflows in the chip alone overflows in the device. -/
theorem overflows_of_own (hover : Overflows (alone c) own) : Overflows n maps := by
  obtain ⟨q, hq, counter, hcounter, hcounted, hlast⟩ := hover
  obtain ⟨d, hd, hmem⟩ := (QueueMaps.lists_loadAll (h.aloneHealthy hc)
    (List.forall_mem_singleton.2 (hqueues c hc)) hown).1 (mem_queuesOf.1 hq)
  obtain rfl := List.mem_singleton.1 hd
  obtain ⟨p, hp, rfl⟩ := List.mem_map.1 hmem
  have hi := (QueueMaps.exists_name_of_mem_queuesIn hp).1
  exact ⟨p.1, (mem_queuesOf_own h hqueues hmaps hc hown hi).2 hq, counter, hcounter,
    queueCounterOf_own h hqueues hmaps hc hown hi _ ▸ hcounted, hlast⟩

end Chip

/-- A counter of the device overflows just when one of a chip does. -/
theorem overflows_iff_of_separate {n : Namespaces} {maps : QueueMaps} (h : n.Separate)
    (hqueues : ∀ c ∈ n.chips, c.HasCountedQueue) (hmaps : (QueueMaps.loadAll n).outcome = .ok maps)
    {own : Namespace → QueueMaps}
    (hown : ∀ c ∈ n.chips, (QueueMaps.loadAll (alone c)).outcome = .ok (own c)) :
    Overflows n maps ↔ ∃ c ∈ n.chips, Overflows (alone c) (own c) := by
  constructor
  · rintro ⟨q, hq, counter, hcounter, hcounted, hlast⟩
    obtain ⟨c, hc, hi⟩ := exists_chip_of_mem_queuesOf h hqueues hmaps hq
    exact ⟨c, hc, q, (mem_queuesOf_own h hqueues hmaps hc (hown c hc) hi).1 hq, counter, hcounter,
      queueCounterOf_own h hqueues hmaps hc (hown c hc) hi _ ▸ hcounted, hlast⟩
  · rintro ⟨c, hc, hover⟩
    exact overflows_of_own h hqueues hmaps hc (hown c hc) hover

namespace QueueStats

/-- The port that a row is about is one of the chip. -/
def OfChip (c : Namespace) (sub : SubId) : Prop := ∃ i ∈ c.indexes, sub.head? = some i

/-- The table shows the queues of healthy namespaces, all of which have some, and none of their
counters overflows. -/
structure ReadFrom (t : QueueStats) (n : Namespaces) : Prop where
  healthy : n.Healthy
  queues : ∀ c ∈ n.members, c.HasCountedQueue
  rows : ∃ maps, (QueueMaps.loadAll n).outcome = .ok maps ∧ ¬ Overflows n maps ∧
    t.cell.current = (readQueues n maps .fresh).value.after.rows

theorem outcome_build_of_loaded {out : Outside} {maps : QueueMaps}
    (hmaps : (QueueMaps.loadAll out.namespaces).outcome = .ok maps) :
    (build out).outcome.map (·.cell) = (built out maps).map (⟨·, .seeded⟩) := by
  rw [outcome_build, cell_renew, hmaps]
  rfl

theorem built_eq_ok_iff {out : Outside} {maps : QueueMaps} {rows : SubIdIndex UInt64} :
    built out maps = .ok rows ↔ ¬ Overflows out.namespaces maps ∧
      (readQueues out.namespaces maps .fresh).value.after.rows = rows := by
  rw [built, ← outcome_readQueues_eq_ok_iff out.namespaces maps .fresh]
  cases (readQueues out.namespaces maps .fresh).value.outcome <;> simp [Except.map]

theorem built_eq_error_iff {out : Outside} {maps : QueueMaps} {e : Failure} :
    built out maps = .error e ↔ e = .overflow ∧ Overflows out.namespaces maps := by
  rw [built, ← outcome_readQueues_eq_error_iff out.namespaces maps .fresh]
  cases (readQueues out.namespaces maps .fresh).value.outcome <;> simp [Except.map]

theorem outcome_build_eq_overflow_iff {out : Outside} {maps : QueueMaps}
    (hmaps : (QueueMaps.loadAll out.namespaces).outcome = .ok maps) :
    (build out).outcome = .error .overflow ↔ Overflows out.namespaces maps := by
  rw [← map_eq_error_iff, outcome_build_of_loaded hmaps, map_eq_error_iff, built_eq_error_iff]
  exact and_iff_right rfl

theorem exists_build {out : Outside} {maps : QueueMaps} (h : out.namespaces.Healthy)
    (hqueues : ∀ c ∈ out.namespaces.members, c.HasCountedQueue)
    (hmaps : (QueueMaps.loadAll out.namespaces).outcome = .ok maps)
    (hnone : ¬ Overflows out.namespaces maps) :
    ∃ t, (build out).outcome = .ok t ∧ t.ReadFrom out.namespaces := by
  have hcell := outcome_build_of_loaded hmaps
  rw [built_eq_ok_iff.2 ⟨hnone, rfl⟩] at hcell
  obtain ⟨t, ht, hcell⟩ := exists_eq_ok_of_map hcell
  exact ⟨t, ht, h, hqueues, maps, hmaps, hnone, congrArg SnapshotCell.current hcell⟩

theorem exists_place_of_valueAt {t : QueueStats} {n : Namespaces} (ht : t.ReadFrom n)
    {sub : SubId} {v : Value} (hv : t.valueAt sub = some v) : ∃ c ∈ n.members, OfChip c sub := by
  obtain ⟨maps, hmaps, hnone, hcell⟩ := ht.rows
  obtain ⟨word, hword, -⟩ := Option.map_eq_some_iff.1 hv
  rw [hcell] at hword
  obtain ⟨q, hlisted, counter, -, harcs, -⟩ := (get?_readQueues_iff n maps .fresh hnone).1 hword
  obtain ⟨c, hc, hq⟩ :=
    (QueueMaps.lists_loadAll ht.healthy ht.queues hmaps).1 (mem_queuesOf.1 hlisted)
  obtain ⟨p, hp, rfl⟩ := List.mem_map.1 hq
  refine ⟨c, hc, _, (QueueMaps.exists_name_of_mem_queuesIn hp).1, ?_⟩
  rw [(queueCounterArcs?_eq_some_iff.1 harcs).2]
  rfl

/-- Where a row is about a port of a chip, the table of the device serves what that of the chip
alone serves. -/
theorem valueAt_of_ofChip {n : Namespaces} {t t' : QueueStats} {c : Namespace} (h : n.Separate)
    (hc : c ∈ n.chips) (ht : t.ReadFrom n) (ht' : t'.ReadFrom (alone c)) {sub : SubId}
    (hsub : OfChip c sub) : t.valueAt sub = t'.valueAt sub := by
  obtain ⟨maps, hmaps, hnone, hcell⟩ := ht.rows
  obtain ⟨own, hown, hnone', hcell'⟩ := ht'.rows
  have hqueues : ∀ c ∈ n.chips, c.HasCountedQueue := h.members ▸ ht.queues
  have hrows : ∀ v, (readQueues n maps .fresh).value.after.rows.get? sub = some v ↔
      (readQueues (alone c) own .fresh).value.after.rows.get? sub = some v := by
    intro v
    rw [get?_readQueues_iff _ _ _ hnone, get?_readQueues_iff _ _ _ hnone']
    refine exists_congr fun q => ?_
    by_cases hi : q.port ∈ c.indexes
    · simp only [mem_queuesOf_own h hqueues hmaps hc hown hi,
        queueCounterOf_own h hqueues hmaps hc hown hi]
    · have hother : ∀ counter, queueCounterArcs? q counter ≠ some sub := by
        intro counter harcs
        obtain ⟨i, hmem, hhead⟩ := hsub
        rw [(queueCounterArcs?_eq_some_iff.1 harcs).2] at hhead
        exact hi (Option.some.inj hhead ▸ hmem)
      simp only [hother, false_and, and_false, exists_false]
  rw [valueAt, valueAt, hcell, hcell', Option.ext hrows]

end QueueStats

end Mib

end SwitchMib
