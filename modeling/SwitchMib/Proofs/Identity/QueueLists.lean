import Mathlib.Data.List.TakeDrop
import Mathlib.Data.List.TakeWhile
import SwitchMib.Proofs.Identity.Visits
import SwitchMib.Proofs.Mib.QueueRows
import SwitchMib.Proofs.Mib.Session
import SwitchMib.Proofs.Text.Numeral

/-!
# Queues with numbers and queues with identifiers

A queue may be named several times, in one namespace and in several. Of its identifiers the one that
is entered last counts, while the numbers of a port are put in order without repetition, name by
name and once more when namespaces are merged. Both maps know the same queues all the same, so a
refresh, which goes through the numbers of the ports, finds an identifier for every queue.

* `Text.cutFirst_eq_some_iff`: the parts of a text before and after the first separator.
* `QueueMaps.Names`, `QueueMaps.queueOfName_eq_ok_iff`: the names of a queue.
* `QueueMaps.Ordered`: the numbers of every port are in order, and there are some.
* `QueueMaps.Sound`: both maps know the same queues, in order. `Sound.addQueue` and `Sound.merge`:
  what one queue and one merge keep.
* `readQueuesOr`: a refresh that does something of its own for a queue without an identifier.
* `QueueStats.sound_run`: the queues of a table over its life.
* `QueueMaps.loadAllBy_exact`: the queues of all members.
-/

namespace SwitchMib
set_option autoImplicit false

open KeyOrder Store

/-! ## Names of queues -/

theorem Text.cutFirst_eq_some_iff {sep : Char} {s before rest : String} :
    cutFirst sep s = some (before, rest) ↔
      s = before ++ String.singleton sep ++ rest ∧ sep ∉ before.toList := by
  rw [cutFirst, List.span_eq_takeWhile_dropWhile]
  constructor
  · intro h
    cases hdrop : s.toList.dropWhile (· != sep) with
    | nil =>
      rw [hdrop] at h
      cases h
    | cons c tail =>
      rw [hdrop] at h
      obtain ⟨rfl, rfl⟩ := Prod.mk.inj (Option.some.inj h)
      obtain rfl : c = sep := by
        have hstop := List.dropWhile_get_zero_not (· != sep) s.toList (by simp [hdrop])
        simpa [hdrop] using hstop
      refine ⟨String.toList_inj.1 ?_, fun hmem => ?_⟩
      · have hsplit := List.takeWhile_append_dropWhile (p := (· != c)) (l := s.toList)
        rw [hdrop] at hsplit
        rw [String.toList_append, String.toList_append, String.toList_ofList,
          String.toList_ofList, String.toList_singleton, List.append_assoc]
        exact hsplit.symm
      · rw [String.toList_ofList] at hmem
        simpa using List.mem_takeWhile_imp hmem
  · rintro ⟨rfl, hsep⟩
    have hpass : ∀ c ∈ before.toList, (c != sep) = true := by
      intro c hc
      rw [bne_iff_ne]
      rintro rfl
      exact hsep hc
    rw [String.toList_append, String.toList_append, List.append_assoc,
      List.takeWhile_append_of_pos hpass, List.dropWhile_append_of_pos hpass]
    simp

namespace Identity.QueueMaps

theorem queueNumber?_eq_some_iff {s : String} {n : UInt32} :
    queueNumber? s = some n ↔ Text.Denotes (s.toList.filter Text.isDigit) n.toNat := by
  unfold queueNumber?
  generalize s.toList.filter Text.isDigit = digits
  cases digits with
  | nil => simp [Text.Denotes]
  | cons c cs =>
    have hread : ∀ m, Text.readDigits 10 (UInt32.size - 1) 0 (c :: cs) = .ok m ↔
        Text.Denotes (c :: cs) m ∧ m ≤ UInt32.size - 1 :=
      fun m => Text.readDigits_zero_eq_ok_iff (List.cons_ne_nil c cs)
    have hn : n.toNat ≤ UInt32.size - 1 := Nat.le_pred_of_lt n.toNat_lt
    rw [← and_iff_left (a := Text.Denotes (c :: cs) n.toNat) hn, ← hread]
    simp only [List.isEmpty_cons, Bool.false_eq_true, if_false]
    cases hdigits : Text.readDigits 10 (UInt32.size - 1) 0 (c :: cs) with
    | error fault => simp
    | ok m =>
      have hm : m < UInt32.size := Nat.lt_of_le_pred (by decide) ((hread m).1 hdigits).2
      simp only [Option.some.injEq, Except.ok.injEq]
      constructor
      · rintro rfl
        exact (UInt32.toNat_ofNat_of_lt' hm).symm
      · rintro rfl
        exact UInt32.ofNat_toNat

/-- The name has a port before its first colon, and the digits of what follows write the number. -/
def Names (name : String) (q : QueueId) : Prop :=
  ∃ port rest, name = port ++ ":" ++ rest ∧ ':' ∉ port.toList ∧
    Net.IfName.index? port = some q.port ∧
    Text.Denotes (rest.toList.filter Text.isDigit) q.queue.toNat

theorem queueOfName_eq_ok_iff {name : String} {q : QueueId} :
    queueOfName name = .ok q ↔ Names name q := by
  have hcut : ∀ port rest, name = port ++ ":" ++ rest ∧ ':' ∉ port.toList ↔
      Text.cutFirst ':' name = some (port, rest) := by
    have hcolon : ":" = String.singleton ':' := by decide
    intro port rest
    rw [hcolon, Text.cutFirst_eq_some_iff]
  simp only [Names, ← and_assoc, hcut]
  simp only [and_assoc, ← queueNumber?_eq_some_iff]
  unfold queueOfName
  cases hparts : Text.cutFirst ':' name with
  | none => simp
  | some parts =>
    obtain ⟨port, rest⟩ := parts
    obtain ⟨index, queue⟩ := q
    cases hqueue : queueNumber? rest with
    | none => simp [hqueue]
    | some number =>
      cases hindex : Net.IfName.index? port with
      | none => simp [hindex, hqueue, Net.IfName.index]
      | some i => simp [hindex, hqueue, Net.IfName.index]

theorem mem_filterMap_queueOf?_iff {entries : List (String × String)} {q : QueueId} :
    q ∈ (entries.filterMap queueOf?).map Prod.fst ↔
      ∃ name ∈ entries.map Prod.fst, Names name q := by
  simp only [← queueOfName_eq_ok_iff, ← toOption_eq_some_iff, List.mem_map, List.mem_filterMap,
    queueOf?, Option.map_eq_some_iff]
  constructor
  · rintro ⟨_, ⟨entry, hentry, q, hq, rfl⟩, rfl⟩
    exact ⟨entry.1, ⟨entry, hentry, rfl⟩, hq⟩
  · rintro ⟨_, ⟨entry, hentry, rfl⟩, hq⟩
    exact ⟨(q, entry.2), ⟨entry, hentry, q, hq, rfl⟩, rfl⟩

/-! ## Numbers in order -/

theorem insertNumber_ascending (n : UInt32) {l : List UInt32} (h : Ascending l) :
    Ascending (insertNumber n l) := by
  induction l with
  | nil => exact List.pairwise_singleton _ n
  | cons m rest ih =>
    rw [insertNumber]
    split
    · rename_i hn
      refine List.pairwise_cons.2 ⟨fun k hk => ?_, h⟩
      rcases List.mem_cons.1 hk with rfl | hk
      · exact hn
      · exact KeyOrder.trans hn (h.head_before k hk)
    · split
      · rename_i hm
        refine List.pairwise_cons.2 ⟨fun k hk => ?_, ih h.tail⟩
        rcases mem_insertNumber.1 hk with rfl | hk
        · exact hm
        · exact h.head_before k hk
      · exact h

/-- The numbers of every port are strictly ascending, and there is one at least. -/
def Ordered (lists : Dict UInt32 (List UInt32)) : Prop :=
  ∀ port numbers, lists.get? port = some numbers → numbers ≠ [] ∧ Ascending numbers

theorem ordered_empty : Ordered Dict.empty := fun _ _ h => by cases h

theorem Ordered.ascending {lists : Dict UInt32 (List UInt32)} (h : Ordered lists) (port : UInt32) :
    Ascending ((lists.get? port).getD []) := by
  cases hport : lists.get? port with
  | none => exact List.Pairwise.nil
  | some numbers => exact (h port numbers hport).2

theorem Ordered.addNumbers {lists : Dict UInt32 (List UInt32)} (h : Ordered lists) (port : UInt32)
    {added : List UInt32} (hadded : added ≠ []) : Ordered (addNumbers lists port added) := by
  intro other numbers hget
  rw [QueueMaps.addNumbers, Dict.get?_insert] at hget
  split at hget
  · obtain rfl := Option.some.inj hget
    obtain ⟨n, hn⟩ := List.exists_mem_of_ne_nil added hadded
    refine ⟨List.ne_nil_of_mem ((mem_foldl_insertNumber added _).2 (.inl hn)), ?_⟩
    exact List.foldlRecOn added _ (h.ascending port) fun l hl m _ => insertNumber_ascending m hl
  · exact h other numbers hget

theorem Ordered.merge {a b : QueueMaps} (ha : Ordered a.queuesByPort)
    (hb : Ordered b.queuesByPort) : Ordered (a.merge b).queuesByPort := by
  refine List.foldlRecOn b.queuesByPort.toList _ ha fun lists hlists p hp => ?_
  exact hlists.addNumbers p.1 (hb p.1 p.2 (Dict.mem_toList_iff.1 hp)).1

/-! ## Both maps -/

/-- Both maps know the same queues, and the numbers of the ports are in order. -/
structure Sound (maps : QueueMaps) : Prop where
  agree : Agree maps
  ordered : Ordered maps.queuesByPort

theorem sound_empty : Sound empty := ⟨agree_empty, ordered_empty⟩

theorem Sound.addQueue {maps : QueueMaps} (h : Sound maps) (q : QueueId) (id : String) :
    Sound (maps.addQueue q id) :=
  ⟨h.agree.addQueue q id, h.ordered.addNumbers q.port (List.cons_ne_nil _ _)⟩

theorem Sound.merge {a b : QueueMaps} (ha : Sound a) (hb : Sound b) : Sound (a.merge b) :=
  ⟨ha.agree.merge hb.agree, ha.ordered.merge hb.ordered⟩

theorem Sound.exists_id {maps : QueueMaps} (h : Sound maps) {q : QueueId}
    (hq : q ∈ Mib.queuesOf maps) : ∃ id, maps.idByQueue.get? q = some id :=
  Option.isSome_iff_exists.1 ((h.agree q).2 (Mib.mem_queuesOf.1 hq))

section Load

variable {visit : Visit} {ns : Namespace} {visits : Namespace → Visit} {n : Namespaces}
  {maps : QueueMaps}

theorem loadBy_eq_ok (h : (loadBy visit ns).outcome = .ok maps) :
    ∃ visited, (ns.hash .counters Schema.queueNameMap).toList.Perm visited ∧
      maps = (visited.filterMap queueOf?).foldl addPair empty := by
  obtain ⟨hash, hread, hrest⟩ := Load.outcome_bind_eq_ok_iff.1 h
  obtain rfl := Namespace.eq_hash_of_getAll (Load.outcome_ofRead_eq_ok_iff.1 hread)
  exact ⟨_, (visit.perm _).symm, eq_foldl_of_ofEntries hrest⟩

theorem sound_of_loadBy (h : (loadBy visit ns).outcome = .ok maps) : Sound maps := by
  obtain ⟨visited, -, rfl⟩ := loadBy_eq_ok h
  exact List.foldlRecOn (visited.filterMap queueOf?) addPair sound_empty
    fun _ hmaps p _ => hmaps.addQueue p.1 p.2

/-- The queues of a namespace are those that a name of its queue name map names. -/
theorem lists_loadBy_iff (h : (loadBy visit ns).outcome = .ok maps) (q : QueueId) :
    Lists maps.queuesByPort q ↔
      ∃ name ∈ (ns.hash .counters Schema.queueNameMap).keys, Names name q := by
  obtain ⟨visited, hperm, rfl⟩ := loadBy_eq_ok h
  have hempty : ¬ Lists empty.queuesByPort q := List.not_mem_nil
  rw [lists_foldl_addPair, or_iff_right hempty, mem_filterMap_queueOf?_iff]
  simp only [Dict.keys, (hperm.map Prod.fst).mem_iff]

theorem loadAllBy_visit (n : Namespaces) : loadAllBy Namespace.visit n = loadAll n := rfl

theorem sound_of_loadAllBy (h : (loadAllBy visits n).outcome = .ok maps) : Sound maps := by
  refine Load.foldlM_induction (P := Sound) sound_empty ?_ h
  intro merged hmerged ns _ next hnext
  obtain ⟨part, hpart, hmerge⟩ := Load.outcome_bind_eq_ok_iff.1 hnext
  rw [← Except.ok.inj hmerge]
  exact hmerged.merge (sound_of_loadBy hpart)

theorem lists_loadAllBy_iff (h : (loadAllBy visits n).outcome = .ok maps) (q : QueueId) :
    Lists maps.queuesByPort q ↔ ∃ ns ∈ n.members,
      ∃ name ∈ (ns.hash .counters Schema.queueNameMap).keys, Names name q := by
  obtain ⟨part, hpart, rfl⟩ := Load.exists_merged_of_outcome h
  have hempty : ¬ Lists empty.queuesByPort q := List.not_mem_nil
  rw [lists_foldl_merge, or_iff_right hempty]
  simp only [List.mem_map (f := part), exists_exists_and_eq_and]
  exact exists_congr fun ns => and_congr_right fun hns => lists_loadBy_iff (hpart ns hns) q

end Load

end Identity.QueueMaps

/-! ## Refreshes -/

namespace Mib

open Identity

/-- The rows of a queue, or `skip` for a queue without an identifier. -/
def addQueueCountersOr (skip : QueueId → QueueRows → Logged (Attempt QueueRows Failure))
    (n : Namespaces) (maps : QueueMaps) (q : QueueId) (acc : QueueRows) :
    Logged (Attempt QueueRows Failure) :=
  match maps.idByQueue.get? q with
  | none => skip q acc
  | some _ => addQueueCounters n maps q acc

def readQueuesOr (skip : QueueId → QueueRows → Logged (Attempt QueueRows Failure))
    (n : Namespaces) (maps : QueueMaps) (warned : Once String) :
    Logged (Attempt QueueRows Failure) :=
  Attempt.each (addQueueCountersOr skip n maps) (queuesOf maps) ⟨.empty, warned⟩

/-- What is done for a queue without an identifier does not matter, because there is none. -/
theorem readQueuesOr_eq {maps : QueueMaps} (h : QueueMaps.Sound maps)
    (skip : QueueId → QueueRows → Logged (Attempt QueueRows Failure)) (n : Namespaces) :
    readQueuesOr skip n maps = readQueues n maps := by
  funext warned
  refine Attempt.each_congr (fun q hq acc => ?_) _
  obtain ⟨id, hid⟩ := h.exists_id hq
  rw [addQueueCountersOr, hid]

namespace QueueStats

/-- A reinit keeps the queues or has loaded others. -/
theorem queues_reinit (out : Outside) (t : QueueStats) :
    (t.reinit out).value.after.queues = t.queues ∨
      (QueueMaps.loadAll out.namespaces).outcome = .ok (t.reinit out).value.after.queues := by
  rw [reinit, Load.outcome, Logged.value_bind]
  cases (QueueMaps.loadAll out.namespaces).run.value with
  | error e => exact .inl rfl
  | ok queues =>
    simp only
    split
    · exact .inl rfl
    · exact .inr rfl

/-- Whatever happens around a table, its queues stay sound from its building on. -/
theorem sound_run {s : Session} (hs : s.Opened .queueStats) (turns : List Turn) {t : QueueStats}
    (ht : (s.run turns).table = .queueStats t) : QueueMaps.Sound t.queues := by
  refine Session.life_induction (P := fun u => ∀ t, u = .queueStats t → QueueMaps.Sound t.queues)
    ?_ ?_ ?_ ?_ hs turns t ht
  · rintro t ht
    obtain rfl := Updater.queueStats.inj ht
    exact QueueMaps.sound_empty
  · rintro out (_ | _ | _ | _ | _ | t' | _ | _) h t ht <;> cases ht
    exact h t' rfl
  · rintro out (_ | _ | _ | _ | _ | t' | _ | _) h t ht <;> cases ht
    show QueueMaps.Sound (t'.reinit out).value.after.queues
    rcases t'.queues_reinit out with hsame | hloaded
    · rw [hsame]
      exact h t' rfl
    · rw [← QueueMaps.loadAllBy_visit] at hloaded
      exact QueueMaps.sound_of_loadAllBy hloaded
  · rintro sub (_ | _ | _ | _ | _ | t' | _ | _) h t ht <;> cases ht
    exact h t' rfl

end QueueStats

end Mib

namespace Identity.QueueMaps

open Mib

theorem lists_iff_exists_numbers {lists : Dict UInt32 (List UInt32)} {q : QueueId} :
    Lists lists q ↔ ∃ numbers, lists.get? q.port = some numbers ∧ q.queue ∈ numbers := by
  rw [Lists]
  cases lists.get? q.port <;> simp

/-- Whatever the order in which hashes are visited, and however often queues are named, the queues
of a device that can be loaded have an identifier just when they are listed for their port; no list
is empty, and each is strictly increasing; and the queues are those that some name of some
namespace names. So a refresh finds an identifier for every listed queue, and whatever it might do
otherwise, with these queues or with those of a table at any time of its life, is never done. -/
theorem loadAllBy_exact {visits : Namespace → Visit} {n : Namespaces} {maps : QueueMaps}
    (h : (loadAllBy visits n).outcome = .ok maps) :
    (∀ q, q ∈ maps.idByQueue.keys ↔
      ∃ numbers, maps.queuesByPort.get? q.port = some numbers ∧ q.queue ∈ numbers) ∧
    (∀ port numbers, maps.queuesByPort.get? port = some numbers →
      numbers ≠ [] ∧ numbers.Pairwise (· < ·)) ∧
    (∀ q, q ∈ maps.idByQueue.keys ↔ ∃ ns ∈ n.members,
      ∃ name ∈ (ns.hash .counters Schema.queueNameMap).keys, Names name q) ∧
    (∀ q ∈ queuesOf maps, ∃ id, maps.idByQueue.get? q = some id) ∧
    (∀ skip others, readQueuesOr skip others maps = readQueues others maps) ∧
    ∀ (s : Session) (turns : List Turn) (t : QueueStats), s.Opened .queueStats →
      (s.run turns).table = .queueStats t →
        ∀ skip others, readQueuesOr skip others t.queues = readQueues others t.queues := by
  have hsound := sound_of_loadAllBy h
  have hkeys : ∀ q, q ∈ maps.idByQueue.keys ↔ Lists maps.queuesByPort q :=
    fun q => Dict.mem_keys_iff.trans (hsound.agree q)
  refine ⟨fun q => (hkeys q).trans lists_iff_exists_numbers, fun port numbers hport => ?_,
    fun q => (hkeys q).trans (lists_loadAllBy_iff h q), fun q hq => hsound.exists_id hq,
    readQueuesOr_eq hsound,
    fun s turns t hs ht => readQueuesOr_eq (QueueStats.sound_run hs turns ht)⟩
  obtain ⟨hsome, hascending⟩ := hsound.ordered port numbers hport
  exact ⟨hsome, hascending.imp fun hbefore => UInt32.lt_iff_toNat_lt.2 (of_decide_eq_true hbefore)⟩

/-- A chip with names of queues, of which those with the identifier `oid:0x1` have counters. -/
def chipOfQueues (name : String) (queues : List (String × String)) : Namespace :=
  ((Namespace.empty name).setFields .counters Schema.queueNameMap queues).setFields .counters
    (Schema.queueCounterKey "oid:0x1") [("SAI_QUEUE_STAT_PACKETS", "7")]

/-- Two chips that name one queue four times, and have names that name none. -/
theorem loadAllBy_exact_of_repeated_queue :
    let n : Namespaces := ⟨.empty "", [
      chipOfQueues "asic0" [("Ethernet0:UC3", "oid:0x1"), ("Ethernet0:0:3", "oid:0x2"),
        ("Ethernet0:1", "oid:0x3"), ("Ethernet0:UC", "oid:0x4"), ("Loopback0:1", "oid:0x5")],
      chipOfQueues "asic1" [("Ethernet0:3", "oid:0x1"), ("Ethernet0:03", "oid:0x6"),
        ("Ethernet0:2", "oid:0x7"), ("Ethernet0", "oid:0x8")]]⟩
    ∃ maps, (loadAllBy (fun _ => .backwards) n).outcome = .ok maps ∧
      maps.queuesByPort.toList = [(1, [1, 2, 3])] ∧
      maps.idByQueue.toList = [(⟨1, 1⟩, "oid:0x3"), (⟨1, 2⟩, "oid:0x7"), (⟨1, 3⟩, "oid:0x6")] ∧
      (∃ ns ∈ n.members, ∃ name ∈ (ns.hash .counters Schema.queueNameMap).keys,
        Names name ⟨1, 3⟩) ∧
      (∀ q ∈ queuesOf maps, ∃ id, maps.idByQueue.get? q = some id) ∧
      ∀ skip others, readQueuesOr skip others maps = readQueues others maps := by
  intro n
  have hloaded : (loadAllBy (fun _ => .backwards) n).outcome.map (fun maps =>
      (maps.queuesByPort.toList, maps.idByQueue.toList)) =
      .ok ([(1, [1, 2, 3])],
        [(⟨1, 1⟩, "oid:0x3"), (⟨1, 2⟩, "oid:0x7"), (⟨1, 3⟩, "oid:0x6")]) := by decide +kernel
  obtain ⟨maps, hmaps, hshown⟩ := exists_eq_ok_of_map hloaded
  obtain ⟨hlists, hids⟩ := Prod.mk.inj hshown
  obtain ⟨-, -, hnamed, hfound, hdone, -⟩ := loadAllBy_exact hmaps
  have hthree : (⟨1, 3⟩ : QueueId) ∈ maps.idByQueue.keys := by
    rw [Dict.keys, hids]
    decide
  exact ⟨maps, hmaps, hlists, hids, (hnamed _).1 hthree, hfound, hdone⟩

end Identity.QueueMaps

end SwitchMib
