import SwitchMib.Proofs.Identity.Membership
import SwitchMib.Proofs.Order.Subtree

/-!
# The groups of one namespace

The members of a group are found by a scan whose pattern starts with the name of the group. A star
or a question mark in the name makes the scan find members of other groups, too, but only the keys
that literally start with the name are kept, so what is loaded is what the keys say. Of several
groups that claim one member or one index, the one whose key comes last has it.

* `Namespace.below_ascending`: what the keys below a lead say is in the order of the keys.
* `LagMaps.groupKey`, `LagMaps.memberKey`: the keys of a group and of a member of it.
* `LagMaps.LastGroup`: the last group with a property.
* `LagMaps.load_exact`: the loaded groups, told by keys alone.
-/

namespace SwitchMib
set_option autoImplicit false

open KeyOrder

/-! ## Ascending lists -/

theorem before_lead (lead a b : String) : before (lead ++ a) (lead ++ b) = before a b := by
  show lexBefore (lead ++ a).toList (lead ++ b).toList = lexBefore a.toList b.toList
  rw [String.toList_append, String.toList_append]
  exact before_append lead.toList a.toList b.toList

section Last

variable {κ ν : Type} [KeyOrder κ]

/-- Searched from its end, an ascending list gives its greatest element with a property. -/
theorem Ascending.find?_reverse_eq_some_iff {l : List κ} (h : Ascending l) {p : κ → Bool} {k : κ} :
    l.reverse.find? p = some k ↔
      k ∈ l ∧ p k = true ∧ ∀ j ∈ l, p j = true → before k j = false := by
  constructor
  · intro hfound
    obtain ⟨hp, later, earlier, hl, hnone⟩ := List.find?_eq_some_iff_append.1 hfound
    have hsplit : l = earlier.reverse ++ k :: later.reverse := by
      rw [← List.reverse_reverse l, hl]
      simp
    refine ⟨by simp [hsplit], hp, fun j hj hpj => ?_⟩
    cases hbefore : before k j with
    | false => rfl
    | true =>
      have hlater : j ∈ later.reverse := by
        rw [hsplit] at h hj
        exact h.mem_later_iff.2 ⟨hj, hbefore⟩
      have hnot := hnone j (List.mem_reverse.1 hlater)
      rw [hpj] at hnot
      cases hnot
  · rintro ⟨hk, hp, hlast⟩
    obtain ⟨earlier, later, rfl⟩ := List.append_of_mem hk
    refine List.find?_eq_some_iff_append.2 ⟨hp, later.reverse, earlier.reverse, by simp, ?_⟩
    intro j hj
    obtain ⟨hmem, hbefore⟩ := h.mem_later_iff.1 (List.mem_reverse.1 hj)
    cases hpj : p j with
    | false => rfl
    | true =>
      have hnot := hlast j hmem hpj
      rw [hbefore] at hnot
      cases hnot

/-- Of the elements that are bound to keys of their own, the last one with a key is found. -/
theorem Bindings.last?_filterMap_self [DecidableEq κ] (key? : ν → Option κ) (l : List ν) (k : κ) :
    Bindings.last? k (l.filterMap fun a => (key? a).map (·, a)) =
      l.reverse.find? fun a => key? a = some k := by
  induction l with
  | nil => rfl
  | cons a l ih =>
    rw [List.reverse_cons, List.find?_append, ← ih]
    cases hkey : key? a with
    | none => simp [hkey]
    | some k' =>
      rw [List.filterMap_cons_some (b := (k', a)) (by rw [hkey]; rfl), Bindings.last?]
      by_cases hk : k = k'
      · simp [hkey, hk]
      · simp [hkey, same_eq_false_iff.2 hk, Ne.symm hk]

end Last

theorem Store.Namespace.below_ascending (ns : Store.Namespace) (db : Store.Database)
    (lead : String) : Ascending (ns.below db lead) := by
  have hfound : Ascending ((ns.tables db).keys.filter fun key =>
      Store.globMatch (lead ++ "*").toList key.toList) :=
    (Dict.keys_ascending _).filter _
  refine List.Pairwise.filterMap _ (fun key key' hbefore rest hrest rest' hrest' => ?_) hfound
  obtain rfl := Text.after?_eq_some_iff.1 hrest
  obtain rfl := Text.after?_eq_some_iff.1 hrest'
  rwa [before_lead] at hbefore

namespace Identity.LagMaps

open Store

/-! ## Groups and members by their keys -/

def groupKey (lag : String) : String := Schema.tableKey Schema.lagTable ':' lag

def memberKey (lag member : String) : String :=
  Schema.tableKey (Schema.tableKey Schema.lagMemberTable ':' lag) ':' member

/-- No key of the application database has a line feed. -/
def OneLine (ns : Namespace) : Prop := ∀ key ∈ (ns.tables .appl).keys, '\n' ∉ key.toList

theorem groupsIn_ascending (ns : Namespace) : Ascending (groupsIn ns) :=
  ns.below_ascending .appl lagLead

theorem membersIn_ascending (ns : Namespace) (lag : String) : Ascending (membersIn ns lag) :=
  ns.below_ascending .appl (memberLead lag)

/-- Of the groups with a property, the one whose key comes last. -/
structure LastGroup (ns : Namespace) (P : String → Prop) (lag : String) : Prop where
  stored : groupKey lag ∈ (ns.tables .appl).keys
  holds : P lag
  last : ∀ other, groupKey other ∈ (ns.tables .appl).keys → P other →
    before (groupKey lag) (groupKey other) = false

section OneLine

variable {ns : Namespace} (hline : OneLine ns)

include hline

theorem OneLine.mem_groupsIn_iff {lag : String} :
    lag ∈ groupsIn ns ↔ groupKey lag ∈ (ns.tables .appl).keys := by
  rw [LagMaps.mem_groupsIn_iff, HasGroup]
  refine ⟨fun h => h.1, fun h => ⟨h, fun hfeed => hline _ h ?_⟩⟩
  simp [groupKey, Schema.tableKey, hfeed]

theorem OneLine.mem_membersIn_iff {lag member : String}
    (h : groupKey lag ∈ (ns.tables .appl).keys) :
    member ∈ membersIn ns lag ↔ memberKey lag member ∈ (ns.tables .appl).keys := by
  have hgroup := LagMaps.mem_groupsIn_iff.1 (hline.mem_groupsIn_iff.2 h)
  rw [LagMaps.mem_membersIn_iff hgroup]
  refine ⟨fun hlists => hlists.2.1, fun hkey => ⟨hgroup, hkey, fun hfeed => hline _ hkey ?_⟩⟩
  simp [memberKey, Schema.tableKey, hfeed]

/-- Searched from the end, the groups give the last one with a property. -/
theorem OneLine.find?_groupsIn_iff {p : String → Bool} {P : String → Prop}
    (hp : ∀ lag, groupKey lag ∈ (ns.tables .appl).keys → (p lag = true ↔ P lag)) {lag : String} :
    (groupsIn ns).reverse.find? p = some lag ↔ LastGroup ns P lag := by
  have hkeys : ∀ other, before lag other = before (groupKey lag) (groupKey other) :=
    fun other => (before_lead lagLead lag other).symm
  rw [(groupsIn_ascending ns).find?_reverse_eq_some_iff]
  constructor
  · rintro ⟨hlag, hpick, hlast⟩
    have hstored := hline.mem_groupsIn_iff.1 hlag
    refine ⟨hstored, (hp lag hstored).1 hpick, fun other hother hP => ?_⟩
    rw [← hkeys]
    exact hlast other (hline.mem_groupsIn_iff.2 hother) ((hp other hother).2 hP)
  · rintro ⟨hstored, hP, hlast⟩
    refine ⟨hline.mem_groupsIn_iff.2 hstored, (hp lag hstored).2 hP, fun other hother hpick => ?_⟩
    have hother := hline.mem_groupsIn_iff.1 hother
    rw [hkeys]
    exact hlast other hother ((hp other hother).1 hpick)

end OneLine

/-! ## What is loaded -/

section Load

variable {ns : Namespace} {maps : LagMaps} (h : (load ns).outcome = .ok maps)

include h

theorem get?_lagByIndex_load (i : UInt32) :
    maps.lagByIndex.get? i =
      (groupsIn ns).reverse.find? fun lag => Net.IfName.index? lag = some i := by
  obtain ⟨ids, rfl, -⟩ := load_eq_ok h
  rw [Dict.get?_foldl_insert lagByIndex (fun lag => (Net.IfName.index? lag).map (·, lag))
    (fun maps lag => by rw [addLag]; cases Net.IfName.index? lag <;> rfl),
    Bindings.last?_filterMap_self]
  exact Option.or_none

theorem mem_membersByLag_keys_load (lag : String) :
    lag ∈ maps.membersByLag.keys ↔ lag ∈ groupsIn ns := by
  rw [Dict.mem_keys_iff, get?_membersByLag_load h]
  by_cases hlag : lag ∈ groupsIn ns <;> simp [hlag]

theorem members_load (lag : String) :
    maps.members lag = if lag ∈ groupsIn ns then membersIn ns lag else [] := by
  rw [members, get?_membersByLag_load h]
  by_cases hlag : lag ∈ groupsIn ns <;> simp [hlag]

end Load

/-- Where no key has a line feed, a namespace that can be loaded gives exactly the groups that have
a key, each with exactly the members that have a key below it, in order and once each, whatever
characters the names have. The group of a member is the last one, in the order of the keys, with a
key for it; the group of an index is the last one whose name has the index. -/
theorem load_exact {ns : Namespace} {maps : LagMaps} (hline : OneLine ns)
    (h : (load ns).outcome = .ok maps) :
    (∀ lag, lag ∈ maps.membersByLag.keys ↔ groupKey lag ∈ (ns.tables .appl).keys) ∧
    (∀ lag ∈ maps.membersByLag.keys, Ascending (maps.members lag) ∧
      ∀ member, member ∈ maps.members lag ↔ memberKey lag member ∈ (ns.tables .appl).keys) ∧
    (∀ lag, lag ∉ maps.membersByLag.keys → maps.members lag = []) ∧
    (∀ member lag, maps.lagByMember.get? member = some lag ↔
      LastGroup ns (fun lag => memberKey lag member ∈ (ns.tables .appl).keys) lag) ∧
    (∀ i lag, maps.lagByIndex.get? i = some lag ↔
      LastGroup ns (fun lag => Net.IfName.index? lag = some i) lag) ∧
    (∀ member, member ∈ maps.lagByMember.keys ↔ ∃ lag,
      groupKey lag ∈ (ns.tables .appl).keys ∧ memberKey lag member ∈ (ns.tables .appl).keys) ∧
    ∀ i, i ∈ maps.lagByIndex.keys ↔ ∃ lag,
      groupKey lag ∈ (ns.tables .appl).keys ∧ Net.IfName.index? lag = some i := by
  have hkeys : ∀ lag, lag ∈ maps.membersByLag.keys ↔ groupKey lag ∈ (ns.tables .appl).keys :=
    fun lag => (mem_membersByLag_keys_load h lag).trans hline.mem_groupsIn_iff
  refine ⟨hkeys, fun lag hlag => ?_, fun lag hlag => ?_, fun member lag => ?_, fun i lag => ?_,
    fun member => ?_, fun i => ?_⟩
  · rw [members_load h, if_pos ((mem_membersByLag_keys_load h lag).1 hlag)]
    exact ⟨membersIn_ascending ns lag,
      fun member => hline.mem_membersIn_iff ((hkeys lag).1 hlag)⟩
  · rw [members_load h, if_neg (mt (mem_membersByLag_keys_load h lag).2 hlag)]
  · rw [get?_lagByMember_load h]
    refine hline.find?_groupsIn_iff fun other hother => ?_
    rw [decide_eq_true_eq, hline.mem_membersIn_iff hother]
  · rw [get?_lagByIndex_load h]
    exact hline.find?_groupsIn_iff fun other _ => decide_eq_true_iff
  · rw [Dict.mem_keys_iff, get?_lagByMember_load h, List.find?_isSome]
    constructor
    · rintro ⟨lag, hlag, hmember⟩
      have hstored := hline.mem_groupsIn_iff.1 (List.mem_reverse.1 hlag)
      exact ⟨lag, hstored, (hline.mem_membersIn_iff hstored).1 (of_decide_eq_true hmember)⟩
    · rintro ⟨lag, hstored, hkey⟩
      exact ⟨lag, List.mem_reverse.2 (hline.mem_groupsIn_iff.2 hstored),
        decide_eq_true ((hline.mem_membersIn_iff hstored).2 hkey)⟩
  · rw [Dict.mem_keys_iff, get?_lagByIndex_load h, List.find?_isSome]
    constructor
    · rintro ⟨lag, hlag, hindex⟩
      exact ⟨lag, hline.mem_groupsIn_iff.1 (List.mem_reverse.1 hlag), of_decide_eq_true hindex⟩
    · rintro ⟨lag, hstored, hindex⟩
      exact ⟨lag, List.mem_reverse.2 (hline.mem_groupsIn_iff.2 hstored), decide_eq_true hindex⟩

/-! ## A group named by a pattern -/

/-- A chip with groups and their members. -/
def chipOfGroups (groups : List (String × List String)) : Namespace :=
  let keys := groups.flatMap fun p => groupKey p.1 :: p.2.map (memberKey p.1)
  keys.foldl (fun ns key => ns.setFields .appl key [("status", "enabled")]) (.empty "")

/-- A scan for the members of a group named with a star finds those of the other groups as well,
but the group keeps to its own. Of two groups with one index and one member, the last has both. -/
theorem load_exact_of_starred_name :
    let ns := chipOfGroups [("PortChannel*", ["Ethernet8"]), ("PortChannel01", ["Ethernet0"]),
      ("PortChannel1", ["Ethernet0", "Ethernet4"])]
    OneLine ns ∧
    (ns.keys .appl (memberLead "PortChannel*" ++ "*")).map List.length = .ok 4 ∧
    ∃ maps, (load ns).outcome = .ok maps ∧
      maps.membersByLag.keys = ["PortChannel*", "PortChannel01", "PortChannel1"] ∧
      maps.members "PortChannel*" = ["Ethernet8"] ∧
      (∀ member, member ∈ maps.members "PortChannel*" ↔
        memberKey "PortChannel*" member ∈ (ns.tables .appl).keys) ∧
      LastGroup ns (fun lag => memberKey lag "Ethernet0" ∈ (ns.tables .appl).keys)
        "PortChannel1" ∧
      LastGroup ns (fun lag => Net.IfName.index? lag = some 1001) "PortChannel1" := by
  intro ns
  have hline : OneLine ns := by
    unfold OneLine
    decide +kernel
  have hscan : (ns.keys .appl (memberLead "PortChannel*" ++ "*")).map List.length = .ok 4 := by
    decide +kernel
  have hloaded : (load ns).outcome.map (fun maps => (maps.membersByLag.keys,
      maps.members "PortChannel*", maps.lagByMember.get? "Ethernet0",
      maps.lagByIndex.get? 1001)) = .ok (["PortChannel*", "PortChannel01", "PortChannel1"],
        ["Ethernet8"], some "PortChannel1", some "PortChannel1") := by decide +kernel
  obtain ⟨maps, hmaps, hshown⟩ := exists_eq_ok_of_map hloaded
  obtain ⟨hkeys, hstarred, hmember, hindex⟩ : _ ∧ _ ∧ _ ∧ _ := by simpa using hshown
  obtain ⟨-, hmembers, -, hlagByMember, hlagByIndex, -⟩ := load_exact hline hmaps
  have hin : "PortChannel*" ∈ maps.membersByLag.keys := by
    rw [hkeys]
    decide
  exact ⟨hline, hscan, maps, hmaps, hkeys, hstarred, (hmembers _ hin).2,
    (hlagByMember _ _).1 hmember, (hlagByIndex _ _).1 hindex⟩

end Identity.LagMaps

end SwitchMib
