import SwitchMib.Proofs.Dict
import SwitchMib.Proofs.Mib.Loops

/-!
# Reading the entries of the forwarding table

The entries are resolved one after the other. One that resolves is a row, one that does not is
complained about, and neither hinges on the entries before it.

* `skipComplaints`, `skipsIn`: the complaints about an entry, and about all of them.
* `get?_readForwarding`: the rows.
* `told_readForwarding`: the complaints.
-/

namespace SwitchMib.Mib
set_option autoImplicit false

open Identity Snmp Store

variable (n : Namespaces) (maps : ForwardingMaps) (warned : Once String)

/-- The complaint about an entry that has no row. -/
def skipComplaints (key : String) : List (String × Event) :=
  match (resolve n maps key).value with
  | .ok _ => []
  | .error skip =>
    [(skip.complaintKey, .forwardingSkipped key skip.reason.text skip.subject)]

/-- The complaints about all entries, in the order of their keys. -/
def skipsIn : List (String × Event) :=
  (n.keys .asic (forwardingLead ++ "*")).value.flatMap (skipComplaints n maps)

theorem mem_skipsIn_iff {c : String × Event} :
    c ∈ skipsIn n maps ↔ ∃ key ∈ (n.keys .asic (forwardingLead ++ "*")).value, ∃ skip : Skip,
      (resolve n maps key).value = .error skip ∧
        c = (skip.complaintKey, .forwardingSkipped key skip.reason.text skip.subject) := by
  have hentry : ∀ key, c ∈ skipComplaints n maps key ↔ ∃ skip : Skip,
      (resolve n maps key).value = .error skip ∧
        c = (skip.complaintKey, .forwardingSkipped key skip.reason.text skip.subject) := by
    intro key
    rw [skipComplaints]
    cases (resolve n maps key).value <;> simp
  simp only [skipsIn, List.mem_flatMap, hentry]

theorem value_addForwarding (acc : ForwardingRows) (key : String) :
    (addForwarding n maps acc key).value =
      { rows := match (resolve n maps key).value.toOption with
          | some (sub, index) => acc.rows.insert sub index
          | none => acc.rows
        warned := (acc.warned.tellNew (skipComplaints n maps key)).value } := by
  rw [addForwarding, Logged.value_bind, skipComplaints]
  cases (resolve n maps key).value <;> rfl

theorem filter_addForwarding {passes : Event → Bool}
    (hpasses : ∀ e, passes e = true → e.kind = .remembered) (acc : ForwardingRows) (key : String) :
    (addForwarding n maps acc key).events.filter passes =
      ((acc.warned.news (skipComplaints n maps key)).map Prod.snd).filter passes := by
  have hquiet : (resolve n maps key).events.filter passes = [] := by
    refine List.filter_eq_nil_iff.2 fun e he hpass => ?_
    have hkind := tells_resolve (K := (· = .unread)) n rfl maps key e he
    rw [hpasses e hpass] at hkind
    cases hkind
  rw [addForwarding, Logged.events_bind, List.filter_append, hquiet, List.nil_append,
    skipComplaints, ← Once.events_tellNew]
  cases (resolve n maps key).value with
  | ok row => rfl
  | error skip => exact congrArg (List.filter passes) (List.append_nil _)

theorem get?_readForwarding (sub : SubId) :
    (readForwarding n maps warned).value.rows.get? sub =
      Bindings.last? sub ((n.keys .asic (forwardingLead ++ "*")).value.filterMap fun key =>
        (resolve n maps key).value.toOption) := by
  rw [readForwarding, Logged.value_bind, Logged.value_foldlM]
  refine (Dict.get?_foldl_insert ForwardingRows.rows
    (fun key => (resolve n maps key).value.toOption) (fun acc key => ?_) _ _ sub).trans
    Option.or_none
  rw [value_addForwarding]
  cases (resolve n maps key).value <;> rfl

/-- The rows do not depend on what was told before. -/
theorem rows_readForwarding : (readForwarding n maps warned).value.rows =
    (readForwarding n maps .fresh).value.rows :=
  Dict.ext_get? fun sub => (get?_readForwarding n maps warned sub).trans
    (get?_readForwarding n maps .fresh sub).symm

/-- Of the complaints those are told that are new, and all are remembered. -/
theorem told_readForwarding {passes : Event → Bool}
    (hpasses : ∀ e, passes e = true → e.kind = .remembered) :
    let read := readForwarding n maps warned
    read.value.warned = (warned.tellNew (skipsIn n maps)).value ∧
      read.events.filter passes =
        ((warned.news (skipsIn n maps)).map Prod.snd).filter passes := by
  intro read
  have hquiet : ((n.keys .asic (forwardingLead ++ "*")).serve
      Schema.forwardingEntryType).events.filter passes = [] := by
    refine List.filter_eq_nil_iff.2 fun e he hpass => ?_
    have hkind := Logged.tells_serve (K := (· = .unread)) rfl _ _ e he
    rw [hpasses e hpass] at hkind
    cases hkind
  have htold := Once.told_foldlM ForwardingRows.warned (skipComplaints n maps)
    (fun acc key => by rw [value_addForwarding]) (filter_addForwarding n maps hpasses)
    (n.keys .asic (forwardingLead ++ "*")).value ⟨.empty, warned⟩
  refine ⟨htold.1, ?_⟩
  show (readForwarding n maps warned).events.filter passes = _
  rw [readForwarding, Logged.events_bind, List.filter_append, hquiet, List.nil_append]
  exact htold.2

end SwitchMib.Mib
