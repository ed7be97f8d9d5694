import SwitchMib.Identity.Lags
import SwitchMib.Proofs.Identity.Merged
import SwitchMib.Proofs.Store.Reads

/-!
# Groups and their members over several namespaces

The namespaces of a device are loaded one by one and merged. The groups of the members are merged
entry by entry, but of a group that several namespaces have only the members from the last of them
are left, so the two directions can disagree.

* `LagMaps.HasGroup`, `LagMaps.Lists`: what the keys of one namespace say.
* `LagMaps.get?_membersByLag_loadAll`, `LagMaps.get?_lagByMember_loadAll`: both directions after a
  load of all namespaces.
* `LagMaps.membership_agrees_iff`: they agree just when the last namespace with a group lists every
  member of it.
-/

namespace SwitchMib.Identity
set_option autoImplicit false

open Store

namespace LagMaps

/-! ## One namespace -/

/-- The namespace has a table entry for the group. A name with a line feed is not found. -/
def HasGroup (ns : Namespace) (lag : String) : Prop :=
  Schema.tableKey Schema.lagTable ':' lag ∈ (ns.tables .appl).keys ∧ '\n' ∉ lag.toList

/-- The namespace has the group and an entry for the member in it. -/
def Lists (ns : Namespace) (lag member : String) : Prop :=
  HasGroup ns lag ∧ memberLead lag ++ member ∈ (ns.tables .appl).keys ∧ '\n' ∉ member.toList

/-- The groups that a load finds, in the order of their keys. -/
def groupsIn (ns : Namespace) : List String := ns.below .appl lagLead

/-- The members of a group that a load finds, in the order of their keys. -/
def membersIn (ns : Namespace) (lag : String) : List String := ns.below .appl (memberLead lag)

theorem mem_groupsIn_iff {ns : Namespace} {lag : String} : lag ∈ groupsIn ns ↔ HasGroup ns lag := by
  have hlead : '\n' ∉ lagLead.toList := by decide
  exact ns.mem_below_iff .appl hlead

theorem newline_not_mem_memberLead {lag : String} (h : '\n' ∉ lag.toList) :
    '\n' ∉ (memberLead lag).toList := by
  have htable : '\n' ∉ Schema.lagMemberTable.toList := by decide
  simp [memberLead, Schema.tableLead, Schema.tableKey, htable, h]

theorem mem_membersIn_iff {ns : Namespace} {lag member : String} (h : HasGroup ns lag) :
    member ∈ membersIn ns lag ↔ Lists ns lag member := by
  rw [membersIn, ns.mem_below_iff .appl (newline_not_mem_memberLead h.2)]
  exact ⟨fun hm => ⟨h, hm⟩, fun hm => hm.2⟩

theorem addKey_eq_ok {ns : Namespace} {maps maps' : LagMaps} {key : String}
    (h : (addKey ns maps key).outcome = .ok maps') :
    maps' = match Text.after? lagLead key with
      | some lag => maps.addLag lag (membersIn ns lag)
      | none => maps := by
  unfold addKey at h
  cases hkey : Text.after? lagLead key with
  | none =>
    rw [hkey] at h
    exact (Except.ok.inj h).symm
  | some lag =>
    rw [hkey] at h
    obtain ⟨keys, hread, hadd⟩ := Load.outcome_bind_eq_ok_iff.1 h
    have hkeys := Namespace.eq_of_keys_eq_ok (Load.outcome_ofRead_eq_ok_iff.1 hread)
    rw [hkeys] at hadd
    exact (Except.ok.inj hadd).symm

theorem readIds_eq_ok {ns : Namespace} {ids : Dict String String}
    (h : (readIds ns).outcome = .ok ids) {lag id : String} (hid : ids.get? lag = some id) :
    ∃ text, (lag, text) ∈ (ns.hash .counters Schema.lagNameMap).toList ∧
      Schema.bareId text = id := by
  unfold readIds at h
  cases hread : ns.getAll .counters Schema.lagNameMap with
  | error e =>
    rw [hread] at h
    obtain rfl : Dict.empty = ids := Except.ok.inj h
    cases hid
  | ok entries =>
    rw [hread] at h
    obtain rfl := Namespace.eq_hash_of_getAll hread
    obtain rfl := Except.ok.inj h
    rw [Dict.get?_insertAll, Dict.get?_empty, Option.or_none] at hid
    obtain ⟨entry, hentry, hpair⟩ := List.mem_map.1 (Bindings.mem_of_last? hid)
    obtain ⟨rfl, hbare⟩ := Prod.mk.inj hpair
    exact ⟨entry.2, hentry, hbare⟩

/-- A load enters the groups one by one. Only the identifiers may be missing. -/
theorem load_eq_ok {ns : Namespace} {maps : LagMaps} (h : (load ns).outcome = .ok maps) :
    ∃ ids, maps = (groupsIn ns).foldl (fun maps lag => maps.addLag lag (membersIn ns lag))
        { empty with idByLag := ids } ∧
      ∀ lag id, ids.get? lag = some id →
        ∃ text, (lag, text) ∈ (ns.hash .counters Schema.lagNameMap).toList ∧
          Schema.bareId text = id := by
  obtain ⟨keys, hread, hrest⟩ := Load.outcome_bind_eq_ok_iff.1 h
  have hkeys := Namespace.eq_of_keys_eq_ok (Load.outcome_ofRead_eq_ok_iff.1 hread)
  have hgroups : groupsIn ns = keys.filterMap (Text.after? lagLead) := by rw [hkeys]; rfl
  rw [hgroups]
  by_cases hnone : keys.isEmpty = true
  · rw [if_pos hnone] at hrest
    refine ⟨.empty, ?_, fun lag id hid => by cases hid⟩
    rw [List.isEmpty_iff.1 hnone]
    exact (Except.ok.inj hrest).symm
  · rw [if_neg hnone] at hrest
    obtain ⟨ids, hids, hfold⟩ := Load.outcome_bind_eq_ok_iff.1 hrest
    refine ⟨ids, ?_, fun lag id hid => readIds_eq_ok hids hid⟩
    rw [Load.eq_foldl_of_outcome (fun _ _ _ => addKey_eq_ok) hfold, List.foldl_filterMap]
    congr
    funext maps key
    cases Text.after? lagLead key <;> rfl

theorem get?_membersByLag_foldl (ns : Namespace) (lags : List String) (start : LagMaps)
    (lag : String) :
    (lags.foldl (fun maps lag => maps.addLag lag (membersIn ns lag)) start).membersByLag.get? lag =
      if lag ∈ lags then some (membersIn ns lag) else start.membersByLag.get? lag := by
  induction lags generalizing start with
  | nil => simp
  | cons first lags ih =>
    rw [List.foldl_cons, ih, addLag, Dict.get?_insert]
    by_cases hlater : lag ∈ lags
    · simp [hlater]
    · by_cases hfirst : lag = first
      · simp [hfirst]
      · simp [hlater, hfirst, KeyOrder.same_eq_false_iff.2 hfirst]

theorem get?_lagByMember_foldl (ns : Namespace) (lags : List String) (start : LagMaps)
    (member : String) :
    (lags.foldl (fun maps lag => maps.addLag lag (membersIn ns lag)) start).lagByMember.get?
        member =
      (lags.reverse.find? fun lag => member ∈ membersIn ns lag).or
        (start.lagByMember.get? member) := by
  induction lags generalizing start with
  | nil => rfl
  | cons first lags ih =>
    rw [List.foldl_cons, ih, addLag, Dict.get?_insertAll_const, List.reverse_cons,
      List.find?_append, Option.or_assoc]
    by_cases hmember : member ∈ membersIn ns first
    · simp [hmember]
    · simp [hmember]

theorem get?_membersByLag_load {ns : Namespace} {maps : LagMaps}
    (h : (load ns).outcome = .ok maps) (lag : String) :
    maps.membersByLag.get? lag = if lag ∈ groupsIn ns then some (membersIn ns lag) else none := by
  obtain ⟨ids, rfl, -⟩ := load_eq_ok h
  exact get?_membersByLag_foldl ns (groupsIn ns) _ lag

theorem get?_lagByMember_load {ns : Namespace} {maps : LagMaps}
    (h : (load ns).outcome = .ok maps) (member : String) :
    maps.lagByMember.get? member =
      (groupsIn ns).reverse.find? fun lag => member ∈ membersIn ns lag := by
  obtain ⟨ids, rfl, -⟩ := load_eq_ok h
  rw [get?_lagByMember_foldl]
  exact Option.or_none

/-! ## All namespaces -/

section All

variable {n : Namespaces} {maps : LagMaps}

/-- The members of a group are those in the last namespace that has it. -/
theorem get?_membersByLag_loadAll (h : (loadAll n).outcome = .ok maps) (lag : String) :
    maps.membersByLag.get? lag = n.members.reverse.findSome? fun ns =>
      if lag ∈ groupsIn ns then some (membersIn ns lag) else none :=
  Load.get?_merged h (fun _ _ => rfl) rfl fun _ _ hload => get?_membersByLag_load hload lag

/-- A member is in the last group of the last namespace that lists it. -/
theorem get?_lagByMember_loadAll (h : (loadAll n).outcome = .ok maps) (member : String) :
    maps.lagByMember.get? member = n.members.reverse.findSome? fun ns =>
      (groupsIn ns).reverse.find? fun lag => member ∈ membersIn ns lag :=
  Load.get?_merged h (fun _ _ => rfl) rfl fun _ _ hload => get?_lagByMember_load hload member

theorem mem_members_iff_of_last (h : (loadAll n).outcome = .ok maps)
    {earlier later : List Namespace} {ns : Namespace} {lag member : String}
    (hsplit : n.members = earlier ++ ns :: later) (hgroup : HasGroup ns lag)
    (hlater : ∀ ns' ∈ later, ¬ HasGroup ns' lag) :
    member ∈ maps.members lag ↔ Lists ns lag member := by
  have hget : maps.membersByLag.get? lag = some (membersIn ns lag) := by
    rw [get?_membersByLag_loadAll h, findSome?_reverse_eq_some_iff]
    refine ⟨earlier, ns, later, hsplit, if_pos (mem_groupsIn_iff.2 hgroup), ?_⟩
    intro ns' hns'
    exact if_neg fun hmem => hlater ns' hns' (mem_groupsIn_iff.1 hmem)
  rw [members, hget]
  exact mem_membersIn_iff hgroup

theorem members_eq_nil (h : (loadAll n).outcome = .ok maps) {lag : String}
    (hnone : ∀ ns ∈ n.members, ¬ HasGroup ns lag) : maps.members lag = [] := by
  have hget : maps.membersByLag.get? lag = none := by
    rw [get?_membersByLag_loadAll h, List.findSome?_eq_none_iff]
    intro ns hns
    exact if_neg fun hmem => hnone ns (List.mem_reverse.1 hns) (mem_groupsIn_iff.1 hmem)
  rw [members, hget]
  rfl

theorem exists_lists_of_mem_members (h : (loadAll n).outcome = .ok maps) {lag member : String}
    (hmem : member ∈ maps.members lag) : ∃ ns ∈ n.members, Lists ns lag member := by
  by_cases hsome : ∃ ns ∈ n.members, HasGroup ns lag
  · obtain ⟨earlier, ns, later, hsplit, hgroup, hlater⟩ := exists_last hsome
    have hns : ns ∈ n.members := by simp [hsplit]
    exact ⟨ns, hns, (mem_members_iff_of_last h hsplit hgroup hlater).1 hmem⟩
  · have hnone : ∀ ns ∈ n.members, ¬ HasGroup ns lag := fun ns hns hgroup =>
      hsome ⟨ns, hns, hgroup⟩
    rw [members_eq_nil h hnone] at hmem
    cases hmem

/-- No name is a member of two groups, in one namespace or in two. -/
def ListedOnce (n : Namespaces) : Prop :=
  ∀ ns ∈ n.members, ∀ ns' ∈ n.members, ∀ lag lag' member,
    Lists ns lag member → Lists ns' lag' member → lag = lag'

theorem lagByMember_eq_some_iff (h : (loadAll n).outcome = .ok maps) (honce : ListedOnce n)
    {lag member : String} :
    maps.lagByMember.get? member = some lag ↔ ∃ ns ∈ n.members, Lists ns lag member := by
  rw [get?_lagByMember_loadAll h]
  have hfind : ∀ {ns lag}, ((groupsIn ns).reverse.find? fun lag => member ∈ membersIn ns lag) =
      some lag → Lists ns lag member := by
    intro ns lag hfound
    have hgroup := mem_groupsIn_iff.1 (List.mem_reverse.1 (List.mem_of_find?_eq_some hfound))
    have hmember := List.find?_some hfound
    rw [decide_eq_true_eq] at hmember
    exact (mem_membersIn_iff hgroup).1 hmember
  constructor
  · intro hsome
    obtain ⟨ns, hns, hfound⟩ := List.exists_of_findSome?_eq_some hsome
    exact ⟨ns, List.mem_reverse.1 hns, hfind hfound⟩
  · rintro ⟨ns, hns, hlists⟩
    cases hlast : n.members.reverse.findSome? fun ns =>
        (groupsIn ns).reverse.find? fun lag => member ∈ membersIn ns lag with
    | none =>
      have hnone := List.findSome?_eq_none_iff.1 hlast ns (List.mem_reverse.2 hns)
      have hnot := List.find?_eq_none.1 hnone lag
        (List.mem_reverse.2 (mem_groupsIn_iff.2 hlists.1))
      rw [decide_eq_true_eq] at hnot
      exact absurd ((mem_membersIn_iff hlists.1).2 hlists) hnot
    | some lag' =>
      obtain ⟨ns', hns', hfound⟩ := List.exists_of_findSome?_eq_some hlast
      rw [honce ns' (List.mem_reverse.1 hns') ns hns lag' lag member (hfind hfound) hlists]

/-- Where no name is listed in two groups, the group of a member is the one that lists it in some
namespace, and every member of a group has that group. The other way, every name with that group is
among its members just when the last namespace that has the group lists what earlier ones list. -/
theorem membership_agrees_iff (h : (loadAll n).outcome = .ok maps) (honce : ListedOnce n) :
    (∀ lag member, maps.lagByMember.get? member = some lag ↔
      ∃ ns ∈ n.members, Lists ns lag member) ∧
    (∀ lag member, member ∈ maps.members lag → maps.lagByMember.get? member = some lag) ∧
    ((∀ lag member, maps.lagByMember.get? member = some lag ↔ member ∈ maps.members lag) ↔
      ∀ earlier ns later lag, n.members = earlier ++ ns :: later → HasGroup ns lag →
        (∀ ns' ∈ later, ¬ HasGroup ns' lag) →
        ∀ ns' ∈ earlier, ∀ member, Lists ns' lag member → Lists ns lag member) := by
  have hgroup : ∀ lag member, maps.lagByMember.get? member = some lag ↔
      ∃ ns ∈ n.members, Lists ns lag member := fun lag member => lagByMember_eq_some_iff h honce
  refine ⟨hgroup, ?_, ?_, ?_⟩
  · intro lag member hmem
    exact (hgroup lag member).2 (exists_lists_of_mem_members h hmem)
  · intro hagree earlier ns later lag hsplit hhas hlater ns' hns' member hlists
    have hin : ns' ∈ n.members := by simp [hsplit, hns']
    have hget := (hgroup lag member).2 ⟨ns', hin, hlists⟩
    exact (mem_members_iff_of_last h hsplit hhas hlater).1 ((hagree lag member).1 hget)
  · intro hcover lag member
    rw [hgroup]
    refine ⟨?_, exists_lists_of_mem_members h⟩
    rintro ⟨ns', hns', hlists⟩
    obtain ⟨earlier, ns, later, hsplit, hhas, hlater⟩ := 
      exists_last (P := (HasGroup · lag)) ⟨ns', hns', hlists.1⟩
    rw [mem_members_iff_of_last h hsplit hhas hlater]
    -- the namespace that lists the member is the last one with the group or comes before it
    rw [hsplit, List.mem_append, List.mem_cons] at hns'
    rcases hns' with hearlier | rfl | hlate
    · exact hcover earlier ns later lag hsplit hhas hlater ns' hearlier member hlists
    · exact hlists
    · exact absurd hlists.1 (hlater ns' hlate)

end All

/-! ## One group on two chips -/

/-- A chip with the group `PortChannel01` and members of it. -/
def chipOfGroup (name : String) (members : List String) : Namespace :=
  let keys := "LAG_TABLE:PortChannel01" :: members.map ("LAG_MEMBER_TABLE:PortChannel01:" ++ ·)
  keys.foldl (fun ns key => ns.setFields .appl key [("status", "enabled")]) (.empty name)

/-- A device with the group on two chips. -/
def deviceOfGroup (first second : List String) : Namespaces :=
  ⟨.empty "", [chipOfGroup "asic0" first, chipOfGroup "asic1" second]⟩

theorem listedOnce_of_one_group {n : Namespaces} {only : String}
    (h : ∀ ns ∈ n.members, groupsIn ns = [only]) : ListedOnce n := by
  have hname : ∀ ns ∈ n.members, ∀ {lag member}, Lists ns lag member → lag = only := by
    intro ns hns lag member hlists
    have hmem := mem_groupsIn_iff.2 hlists.1
    rw [h ns hns] at hmem
    exact List.mem_singleton.1 hmem
  intro ns hns ns' hns' lag lag' member hlists hlists'
  rw [hname ns hns hlists, hname ns' hns' hlists']

/-- Where the second chip repeats what the first one lists, both directions agree. -/
theorem membership_agrees_of_repeated_member :
    let n := deviceOfGroup ["Ethernet0"] ["Ethernet0", "Ethernet4"]
    ListedOnce n ∧ ∃ maps, (loadAll n).outcome = .ok maps ∧
      maps.members "PortChannel01" = ["Ethernet0", "Ethernet4"] ∧
      ∀ lag member, maps.lagByMember.get? member = some lag ↔ member ∈ maps.members lag := by
  intro n
  -- the last part says that only the second chip has a chip before it
  obtain ⟨hgroups, hmembers, hcover⟩ : (∀ ns ∈ n.members, groupsIn ns = ["PortChannel01"]) ∧
      (loadAll n).outcome.map (·.members "PortChannel01") = .ok ["Ethernet0", "Ethernet4"] ∧
      ∀ member ∈ membersIn (chipOfGroup "asic0" ["Ethernet0"]) "PortChannel01",
        member ∈ membersIn (chipOfGroup "asic1" ["Ethernet0", "Ethernet4"]) "PortChannel01" := by
    decide +kernel
  have honce : ListedOnce n := listedOnce_of_one_group hgroups
  obtain ⟨maps, hmaps, hmembers⟩ := exists_eq_ok_of_map hmembers
  refine ⟨honce, maps, hmaps, hmembers, ?_⟩
  refine (membership_agrees_iff hmaps honce).2.2.2 ?_
  intro earlier ns later lag hsplit hgroup _ ns' hns' member hlists
  have hns : ns ∈ n.members := by simp [hsplit]
  have hlag := mem_groupsIn_iff.2 hgroup
  rw [hgroups ns hns, List.mem_singleton] at hlag
  subst hlag
  have hmem := (mem_membersIn_iff hlists.1).2 hlists
  rcases earlier with _ | ⟨first, _ | ⟨second, rest⟩⟩
  · cases hns'
  · obtain ⟨hfirst, hsecond, -⟩ := List.cons.inj hsplit |>.imp_right List.cons.inj
    obtain rfl := List.mem_singleton.1 hns'
    rw [← hfirst] at hmem
    rw [← hsecond] at hgroup ⊢
    exact (mem_membersIn_iff hgroup).1 (hcover member hmem)
  · have hlength := congrArg List.length hsplit
    have htwo : n.members.length = 2 := rfl
    simp only [List.length_append, List.length_cons] at hlength
    omega

/-- Where the second chip has another member, the one on the first chip is lost to the group, but
not the group to the member. -/
theorem membership_disagrees_of_two_chips :
    let n := deviceOfGroup ["Ethernet0"] ["Ethernet4"]
    ListedOnce n ∧
      (∃ maps, (loadAll n).outcome = .ok maps ∧
        maps.lagByMember.get? "Ethernet0" = some "PortChannel01" ∧
        maps.lagByMember.get? "Ethernet4" = some "PortChannel01" ∧
        maps.members "PortChannel01" = ["Ethernet4"]) ∧
      ¬ ∀ (n : Namespaces) (maps : LagMaps), (loadAll n).outcome = .ok maps → ListedOnce n →
        ∀ lag member, maps.lagByMember.get? member = some lag ↔ member ∈ maps.members lag := by
  intro n
  obtain ⟨hgroups, hshown⟩ : (∀ ns ∈ n.members, groupsIn ns = ["PortChannel01"]) ∧
      (loadAll n).outcome.map (fun maps => (maps.lagByMember.get? "Ethernet0",
        maps.lagByMember.get? "Ethernet4", maps.members "PortChannel01")) =
        .ok (some "PortChannel01", some "PortChannel01", ["Ethernet4"]) := by decide +kernel
  have honce : ListedOnce n := listedOnce_of_one_group hgroups
  obtain ⟨maps, hmaps, hshown⟩ := exists_eq_ok_of_map hshown
  obtain ⟨hfirst, hsecond, hmembers⟩ : _ ∧ _ ∧ _ := by simpa using hshown
  refine ⟨honce, ⟨maps, hmaps, hfirst, hsecond, hmembers⟩, fun hall => ?_⟩
  have hmem := (hall n maps hmaps honce "PortChannel01" "Ethernet0").1 hfirst
  rw [hmembers] at hmem
  revert hmem
  decide

end LagMaps

end SwitchMib.Identity
