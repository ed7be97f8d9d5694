import SwitchMib.Proofs.Identity.Merged
import SwitchMib.Proofs.Store.Glob
import SwitchMib.Store.Namespaces

/-!
# What reads answer

* `Namespace.hash`: the hash under a key. A read of it that goes through answers it.
* `Namespaces.Stores`, `Namespaces.field?`: what all members hold together, told without reading.
* `Namespaces.Healthy`: every member can be reached and lets no read fail. Then an aggregated scan
  finds the keys that are stored, and an aggregated hash has the fields of `field?`.
* `Namespaces.without`, `Namespaces.withoutField`: the namespaces after a key, or one field of the
  hashes under a key, has been deleted everywhere.
-/

namespace SwitchMib.Store
set_option autoImplicit false

/-! ## One namespace -/

namespace Namespace

def hash (ns : Namespace) (db : Database) (key : String) : Fields :=
  ((ns.tables db).get? key).getD Dict.empty

def Healthy (ns : Namespace) : Prop := ns.reachable = true ∧ ns.faults = []

instance (ns : Namespace) : Decidable ns.Healthy :=
  inferInstanceAs (Decidable (ns.reachable = true ∧ ns.faults = []))

section One

variable {ns : Namespace} {db : Database} {key : String}

theorem eq_hash_of_getAll {fields : Fields} (h : ns.getAll db key = .ok fields) :
    fields = ns.hash db key := by
  unfold getAll at h
  cases hgate : ns.gate .getAll db key with
  | error e =>
    rw [hgate] at h
    cases h
  | ok _ =>
    rw [hgate] at h
    exact (Except.ok.inj h).symm

theorem Healthy.gate (h : ns.Healthy) (kind : ReadKind) : ns.gate kind db key = .ok () := by
  obtain ⟨hreach, hfaults⟩ := h
  simp [Namespace.gate, hreach, hfaults]

theorem Healthy.keys (h : ns.Healthy) (pattern : String) :
    ns.keys db pattern =
      .ok ((ns.tables db).keys.filter fun key => globMatch pattern.toList key.toList) := by
  rw [Namespace.keys, h.gate]
  rfl

theorem Healthy.getAll (h : ns.Healthy) : ns.getAll db key = .ok (ns.hash db key) := by
  rw [Namespace.getAll, h.gate]
  rfl

theorem Healthy.has (h : ns.Healthy) : ns.has db key = .ok ((ns.tables db).contains key) := by
  rw [Namespace.has, h.gate]
  rfl

theorem Healthy.readHash (h : ns.Healthy) :
    Namespaces.readHash db key ns = .ok (ns.hash db key) := by
  rw [Namespaces.readHash, h.has]
  show (if (ns.tables db).contains key = true then ns.getAll db key else .ok Dict.empty) = _
  cases hbound : (ns.tables db).get? key with
  | some fields =>
    have hcontains : (ns.tables db).contains key = true := by simp [Dict.contains, hbound]
    rw [if_pos hcontains, h.getAll]
  | none =>
    have hcontains : ¬ (ns.tables db).contains key = true := by simp [Dict.contains, hbound]
    rw [if_neg hcontains, hash, hbound]
    rfl

end One

end Namespace

/-! ## All members -/

namespace Namespaces

/-- Every member can be reached and lets no read fail. The host matters only where it is a
member. -/
def Healthy (n : Namespaces) : Prop := ∀ ns ∈ n.members, ns.Healthy

/-- Some member has a hash under the key. A key with a line feed is not found by any scan. -/
def Stores (n : Namespaces) (db : Database) (key : String) : Prop :=
  '\n' ∉ key.toList ∧ ∃ ns ∈ n.members, key ∈ (ns.tables db).keys

/-- A field of the hashes under a key: that of the last member with the field. -/
def field? (n : Namespaces) (db : Database) (key field : String) : Option String :=
  n.members.reverse.findSome? fun ns => (ns.hash db key).get? field

theorem healthy_alone {host : Namespace} (h : host.Healthy) : Healthy ⟨host, []⟩ := by
  intro ns hns
  rw [List.mem_singleton.1 hns]
  exact h

section Gathered

variable {n : Namespaces} {db : Database}

theorem members_of_chips (h : n.chips ≠ []) : n.members = n.chips := by
  rw [members]
  cases hchips : n.chips with
  | nil => exact absurd hchips h
  | cons chip chips => rfl

theorem gather_value_of_ok {α β : Type} {read : Namespace → Except StoreError β}
    {answer : Namespace → β} (h : ∀ ns ∈ n.members, read ns = .ok (answer ns)) (start : α)
    (add : α → β → α) :
    (n.gather read start add).value = n.members.foldl (fun a ns => add a (answer ns)) start := by
  rw [gather]
  generalize n.members = members at h ⊢
  generalize ([] : List (String × StoreError)) = errors
  induction members generalizing start errors with
  | nil => rfl
  | cons ns members ih =>
    obtain ⟨hns, hrest⟩ := List.forall_mem_cons.1 h
    rw [List.foldl_cons, List.foldl_cons, hns]
    exact ih _ hrest _

theorem mem_keys_foldl_insertAll {found : Namespace → List String} (members : List Namespace)
    (start : Dict String Unit) (key : String) :
    key ∈ (members.foldl (fun d ns => d.insertAll ((found ns).map (·, ()))) start).keys ↔
      (∃ ns ∈ members, key ∈ found ns) ∨ key ∈ start.keys := by
  induction members generalizing start with
  | nil => simp
  | cons ns members ih =>
    have hkeys : ((found ns).map (·, ())).map Prod.fst = found ns := by
      rw [List.map_map]
      exact List.map_id _
    rw [List.foldl_cons, ih, Dict.mem_keys_insertAll, hkeys, List.exists_mem_cons_iff, or_assoc,
      or_left_comm]

theorem mem_keys_iff (h : n.Healthy) (pattern key : String) :
    key ∈ (n.keys db pattern).value ↔
      ∃ ns ∈ n.members, key ∈ (ns.tables db).keys ∧
        globMatch pattern.toList key.toList = true := by
  have hread : ∀ ns ∈ n.members, ns.keys db pattern =
      .ok ((ns.tables db).keys.filter fun key => globMatch pattern.toList key.toList) :=
    fun ns hns => (h ns hns).keys pattern
  rw [keys, gather_value_of_ok hread, mem_keys_foldl_insertAll]
  have hempty : key ∉ (Dict.empty : Dict String Unit).keys := List.not_mem_nil
  simp only [hempty, or_false, List.mem_filter]

theorem keys_ascending (n : Namespaces) (db : Database) (pattern : String) :
    Ascending (n.keys db pattern).value := Dict.keys_ascending _

/-- A scan for a lead finds every key with that lead that is stored. -/
theorem mem_keys_lead_iff (h : n.Healthy) {lead : String} (hlead : '\n' ∉ lead.toList)
    (rest : String) :
    lead ++ rest ∈ (n.keys db (lead ++ "*")).value ↔ n.Stores db (lead ++ rest) := by
  have hmatch : globMatch (lead ++ "*").toList (lead ++ rest).toList = true ↔
      '\n' ∉ (lead ++ rest).toList := by
    rw [String.toList_append, String.toList_append, List.mem_append, not_or]
    have hstar : globMatch (lead.toList ++ "*".toList) (lead.toList ++ rest.toList) = true ↔
        '\n' ∉ rest.toList := globMatch_lead_star_iff hlead
    exact ⟨fun hm => ⟨hlead, hstar.1 hm⟩, fun hm => hstar.2 hm.2⟩
  rw [mem_keys_iff h, Stores]
  constructor
  · rintro ⟨ns, hns, hkey, hfits⟩
    exact ⟨hmatch.1 hfits, ns, hns, hkey⟩
  · rintro ⟨hline, ns, hns, hkey⟩
    exact ⟨ns, hns, hkey, hmatch.2 hline⟩

theorem get?_getAll (h : n.Healthy) (key field : String) :
    (n.getAll db key).value.get? field = n.field? db key field := by
  have hmerged := @Dict.get?_foldl_merge _ _ _ Fields id Dict.merge (fun _ _ => rfl)
    (n.members.map fun ns => ns.hash db key) Dict.empty field
  rw [List.foldl_map, ← List.map_reverse, List.findSome?_map] at hmerged
  rw [getAll, gather_value_of_ok fun ns hns => (h ns hns).readHash]
  exact hmerged.trans (Option.or_none)

end Gathered

/-! ## One change everywhere -/

def everywhere (n : Namespaces) (f : Namespace → Namespace) : Namespaces where
  host := f n.host
  chips := n.chips.map f

theorem members_everywhere (n : Namespaces) (f : Namespace → Namespace) :
    (n.everywhere f).members = n.members.map f := by
  obtain ⟨host, chips⟩ := n
  cases chips <;> rfl

theorem Healthy.everywhere {n : Namespaces} (h : n.Healthy) {f : Namespace → Namespace}
    (hf : ∀ ns : Namespace, ns.Healthy → (f ns).Healthy) : (n.everywhere f).Healthy := by
  intro ns hns
  rw [members_everywhere] at hns
  obtain ⟨ns, hmem, rfl⟩ := List.mem_map.1 hns
  exact hf ns (h ns hmem)

/-! ## A key deleted everywhere -/

def without (n : Namespaces) (db : Database) (key : String) : Namespaces where
  host := n.host.delete db key
  chips := n.chips.map (·.delete db key)

section Without

variable {n : Namespaces} {db : Database} {key key' : String}

theorem members_without : (n.without db key).members = n.members.map (·.delete db key) :=
  members_everywhere n (·.delete db key)

theorem Healthy.without (h : n.Healthy) (db : Database) (key : String) :
    (n.without db key).Healthy :=
  h.everywhere fun _ hns => hns

theorem tables_delete (ns : Namespace) :
    (ns.delete db key).tables db = (ns.tables db).erase key := if_pos rfl

theorem stores_without_iff :
    (n.without db key).Stores db key' ↔ key' ≠ key ∧ n.Stores db key' := by
  simp only [Stores, members_without, List.mem_map, exists_exists_and_eq_and, tables_delete,
    Dict.mem_keys_erase]
  constructor
  · rintro ⟨hline, ns, hns, hne, hkey⟩
    exact ⟨hne, hline, ns, hns, hkey⟩
  · rintro ⟨hne, hline, ns, hns, hkey⟩
    exact ⟨hline, ns, hns, hne, hkey⟩

theorem field?_without (h : key' ≠ key) (field : String) :
    (n.without db key).field? db key' field = n.field? db key' field := by
  rw [field?, members_without, ← List.map_reverse, List.findSome?_map, field?]
  apply findSome?_congr
  intro ns _
  show ((((ns.delete db key).tables db).get? key').getD Dict.empty).get? field = _
  rw [tables_delete, Dict.get?_erase_ne _ h]
  rfl

end Without

end Namespaces

/-! ## A field deleted everywhere -/

/-- Deletes a field from the hash under a key, if there is one. -/
def Namespace.deleteField (ns : Namespace) (db : Database) (key field : String) : Namespace :=
  match (ns.tables db).get? key with
  | none => ns
  | some hash => ns.withTable db ((ns.tables db).insert key (hash.erase field))

namespace Namespaces

def withoutField (n : Namespaces) (db : Database) (key field : String) : Namespaces :=
  n.everywhere (·.deleteField db key field)

section WithoutField

variable {n : Namespaces} {db : Database} {key field : String}

theorem members_withoutField :
    (n.withoutField db key field).members = n.members.map (·.deleteField db key field) :=
  members_everywhere n (·.deleteField db key field)

theorem Healthy.withoutField (h : n.Healthy) (db : Database) (key field : String) :
    (n.withoutField db key field).Healthy := by
  refine h.everywhere fun ns hns => ?_
  rw [Namespace.deleteField]
  cases (ns.tables db).get? key <;> exact hns

theorem mem_keys_deleteField (ns : Namespace) {key' : String} :
    key' ∈ ((ns.deleteField db key field).tables db).keys ↔ key' ∈ (ns.tables db).keys := by
  rw [Namespace.deleteField]
  cases hhash : (ns.tables db).get? key with
  | none => rfl
  | some hash =>
    have hkey : key ∈ (ns.tables db).keys :=
      Dict.mem_keys_iff.2 (Option.isSome_of_eq_some hhash)
    simp only [Namespace.withTable, if_pos, Dict.mem_keys_insert, or_iff_right_iff_imp]
    rintro rfl
    exact hkey

theorem hash_deleteField (ns : Namespace) (db : Database) (key field key' : String) :
    (ns.deleteField db key field).hash db key' =
      if key' = key then (ns.hash db key).erase field else ns.hash db key' := by
  rw [Namespace.deleteField, Namespace.hash, Namespace.hash, Namespace.hash]
  cases hhash : (ns.tables db).get? key with
  | none =>
    by_cases hkey : key' = key
    · subst hkey
      simp only [if_pos, hhash]
      rfl
    · simp only [if_neg hkey]
  | some hash =>
    simp only [Namespace.withTable, if_pos, Dict.get?_insert, KeyOrder.same_iff]
    split <;> rfl

theorem field?_withoutField (key' field' : String) :
    (n.withoutField db key field).field? db key' field' =
      if key' = key ∧ field' = field then none else n.field? db key' field' := by
  rw [field?, members_withoutField, ← List.map_reverse, List.findSome?_map, field?]
  split
  · rename_i hboth
    obtain ⟨rfl, rfl⟩ := hboth
    rw [List.findSome?_eq_none_iff]
    intro ns _
    rw [Function.comp_apply, hash_deleteField, if_pos rfl, Dict.get?_erase_self]
  · rename_i hother
    apply findSome?_congr
    intro ns _
    rw [Function.comp_apply, hash_deleteField]
    split
    · rename_i hkey
      subst hkey
      exact Dict.get?_erase_ne _ fun hfield => hother ⟨rfl, hfield⟩
    · rfl

end WithoutField

end Namespaces

end SwitchMib.Store
