import SwitchMib.Proofs.Order.Successor

/-!
# Reading finite maps that were put together

* `Dict.ext_get?`: maps that answer alike are equal.
* `Bindings.last?`: what the last binding of a key in a list says.
* `Dict.get?_foldl_insert`: a map filled step by step, the last step that binds the key winning.
* `Dict.ofList_eq_insertAll`: bindings that are entered at once or one after the other.
* `Dict.get?_insertAll_const`: many keys bound to one value.
* `Dict.get?_merge`: two maps, the second winning.
* `Dict.get?_foldl_merge`: many maps, the last one that binds the key winning.
-/

namespace SwitchMib
set_option autoImplicit false

open KeyOrder

variable {κ ν : Type} [KeyOrder κ]

/-- What follows a key in an ascending list is what comes after the key in its order. -/
theorem Ascending.mem_later_iff {earlier later : List κ} {k j : κ}
    (h : Ascending (earlier ++ k :: later)) :
    j ∈ later ↔ j ∈ earlier ++ k :: later ∧ before k j = true := by
  obtain ⟨-, htail, hcross⟩ := List.pairwise_append.1 h
  obtain ⟨hlater, -⟩ := List.pairwise_cons.1 htail
  constructor
  · intro hmem
    exact ⟨by simp [hmem], hlater j hmem⟩
  · rintro ⟨hmem, hbefore⟩
    rcases List.mem_append.1 hmem with hearlier | htail
    · have hback := hcross j hearlier k List.mem_cons_self
      rw [KeyOrder.asymm hbefore] at hback
      cases hback
    · rcases List.mem_cons.1 htail with rfl | hlate
      · rw [KeyOrder.irrefl] at hbefore
        cases hbefore
      · exact hlate

namespace Bindings

theorem lookup_eq_none_of_before {k : κ} {l : List (κ × ν)} (h : ∀ p ∈ l, before k p.1 = true) :
    lookup k l = none := by
  rw [← Option.not_isSome_iff_eq_none, isSome_lookup]
  intro hmem
  obtain ⟨p, hp, hk⟩ := List.mem_map.1 hmem
  have hbefore := h p hp
  rw [hk, KeyOrder.irrefl] at hbefore
  cases hbefore

theorem not_before_of_lookup_eq {k k' : κ} {v v' : ν} {l l' : List (κ × ν)}
    (hl' : Sorted ((k', v') :: l'))
    (h : lookup k ((k, v) :: l) = lookup k ((k', v') :: l')) : before k k' = false := by
  have hself : lookup k ((k, v) :: l) = some v := by simp [lookup, same_self]
  cases hk : before k k' with
  | false => rfl
  | true =>
    have habsent : lookup k ((k', v') :: l') = none := by
      apply lookup_eq_none_of_before
      intro p hp
      rcases List.mem_cons.1 hp with rfl | hp
      · exact hk
      · exact KeyOrder.trans hk ((List.pairwise_cons.1 hl').1 p hp)
    rw [hself, habsent] at h
    cases h

theorem Sorted.ext_lookup {l l' : List (κ × ν)} (hl : Sorted l) (hl' : Sorted l')
    (h : ∀ k, lookup k l = lookup k l') : l = l' := by
  induction l generalizing l' with
  | nil =>
    cases l' with
    | nil => rfl
    | cons p l' =>
      have hp := h p.1
      simp [lookup, same_self] at hp
  | cons p l ih =>
    obtain ⟨k, v⟩ := p
    cases l' with
    | nil =>
      have hk := h k
      simp [lookup, same_self] at hk
    | cons p' l' =>
      obtain ⟨k', v'⟩ := p'
      have hkk : k = k' := KeyOrder.connex (not_before_of_lookup_eq hl' (h k))
        (not_before_of_lookup_eq hl (h k').symm)
      subst hkk
      have hv : v = v' := by simpa [lookup, same_self] using h k
      subst hv
      obtain ⟨hhead, htail⟩ := List.pairwise_cons.1 hl
      obtain ⟨hhead', htail'⟩ := List.pairwise_cons.1 hl'
      have hrest : ∀ j, lookup j l = lookup j l' := by
        intro j
        have hj := h j
        rw [lookup, lookup] at hj
        cases hsame : same j k with
        | false => simpa [hsame] using hj
        | true =>
          rw [same_iff.1 hsame, lookup_eq_none_of_before hhead, lookup_eq_none_of_before hhead']
      rw [ih htail htail' hrest]

theorem lookup_filter_ne {k j : κ} (hj : j ≠ k) (l : List (κ × ν)) :
    lookup j (l.filter fun p => !same k p.1) = lookup j l := by
  induction l with
  | nil => rfl
  | cons p l ih =>
    rw [List.filter_cons]
    cases hk : same k p.1 with
    | false => simp [lookup, ih]
    | true =>
      have hne : same j p.1 = false := by
        rw [same_eq_false_iff, ← same_iff.1 hk]
        exact hj
      simp [lookup, ih, hne]

/-- What the last binding of a key says. -/
def last? (k : κ) : List (κ × ν) → Option ν
  | [] => none
  | (k', v) :: rest => (last? k rest).or (if same k k' then some v else none)

theorem last?_append (k : κ) (l l' : List (κ × ν)) :
    last? k (l ++ l') = (last? k l').or (last? k l) := by
  induction l with
  | nil => simp [last?]
  | cons p l ih => rw [List.cons_append, last?, ih, last?, Option.or_assoc]

theorem last?_flatMap {α : Type} (k : κ) (f : α → List (κ × ν)) (l : List α) :
    last? k (l.flatMap f) = l.reverse.findSome? fun a => last? k (f a) := by
  induction l with
  | nil => rfl
  | cons a l ih =>
    rw [List.flatMap_cons, last?_append, ih, List.reverse_cons, List.findSome?_append]
    simp

theorem last?_eq_none_iff {k : κ} {l : List (κ × ν)} : last? k l = none ↔ k ∉ l.map Prod.fst := by
  induction l with
  | nil => simp [last?]
  | cons p l ih =>
    simp [last?, ih, and_comm]

theorem last?_eq_some_iff {k : κ} {v : ν} {l : List (κ × ν)} :
    last? k l = some v ↔
      ∃ earlier later, l = earlier ++ (k, v) :: later ∧ k ∉ later.map Prod.fst := by
  constructor
  · intro h
    induction l with
    | nil => cases h
    | cons p l ih =>
      rw [last?] at h
      cases hrest : last? k l with
      | some v' =>
        rw [hrest, Option.some_or] at h
        obtain ⟨earlier, later, rfl, hlater⟩ := ih (hrest.trans h)
        exact ⟨p :: earlier, later, rfl, hlater⟩
      | none =>
        rw [hrest, Option.none_or] at h
        split at h
        · rename_i hk
          obtain rfl := same_iff.1 hk
          obtain rfl := Option.some.inj h
          exact ⟨[], l, rfl, last?_eq_none_iff.1 hrest⟩
        · cases h
  · rintro ⟨earlier, later, rfl, hlater⟩
    rw [last?_append, last?, last?_eq_none_iff.2 hlater]
    simp [same_self]

theorem mem_of_last? {k : κ} {v : ν} {l : List (κ × ν)} (h : last? k l = some v) : (k, v) ∈ l := by
  obtain ⟨earlier, later, rfl, -⟩ := last?_eq_some_iff.1 h
  simp

/-- Where all bindings of a key agree, it does not matter which of them is the last. -/
theorem last?_eq_some_iff_mem {k : κ} {v : ν} {l : List (κ × ν)}
    (h : ∀ v v', (k, v) ∈ l → (k, v') ∈ l → v = v') : last? k l = some v ↔ (k, v) ∈ l := by
  refine ⟨mem_of_last?, fun hmem => ?_⟩
  cases hlast : last? k l with
  | none => exact absurd (List.mem_map_of_mem hmem) (last?_eq_none_iff.1 hlast)
  | some v' => rw [h v' v (mem_of_last? hlast) hmem]

/-- Of the bindings that a list gives, the last one counts. -/
theorem last?_filterMap_eq_some_iff_append {α : Type} {l : List α} {row? : α → Option (κ × ν)}
    {k : κ} {v : ν} :
    last? k (l.filterMap row?) = some v ↔
      ∃ earlier a later, l = earlier ++ a :: later ∧ row? a = some (k, v) ∧
        ∀ b ∈ later, ∀ v', row? b ≠ some (k, v') := by
  rw [last?_eq_some_iff]
  constructor
  · rintro ⟨earlier, later, hrows, hnone⟩
    obtain ⟨start, after, rfl, -, hafter⟩ := List.filterMap_eq_append_iff.1 hrows
    obtain ⟨skipped, a, rest, rfl, -, ha, rfl⟩ := List.filterMap_eq_cons_iff.1 hafter
    refine ⟨start ++ skipped, a, rest, (List.append_assoc start skipped (a :: rest)).symm, ha, ?_⟩
    intro b hb v' hv'
    exact hnone (List.mem_map.2 ⟨(k, v'), List.mem_filterMap.2 ⟨b, hb, hv'⟩, rfl⟩)
  · rintro ⟨earlier, a, later, rfl, ha, hlast⟩
    refine ⟨earlier.filterMap row?, later.filterMap row?, by simp [ha], fun hk => ?_⟩
    obtain ⟨⟨_, v'⟩, hrow, rfl⟩ := List.mem_map.1 hk
    obtain ⟨b, hb, hv'⟩ := List.mem_filterMap.1 hrow
    exact hlast b hb v' hv'

/-- Of the bindings that ascending keys give, that of the greatest key counts. -/
theorem last?_filterMap_eq_some_iff {ι : Type} [KeyOrder ι] {keys : List ι}
    (hkeys : Ascending keys) {row? : ι → Option (κ × ν)} {k : κ} {v : ν} :
    last? k (keys.filterMap row?) = some v ↔
      ∃ key ∈ keys, row? key = some (k, v) ∧
        ∀ later ∈ keys, before key later = true → ∀ v', row? later ≠ some (k, v') := by
  rw [last?_filterMap_eq_some_iff_append]
  constructor
  · rintro ⟨earlier, key, later, rfl, hkey, hlast⟩
    refine ⟨key, by simp, hkey, fun other hother hbefore => ?_⟩
    exact hlast other (hkeys.mem_later_iff.2 ⟨hother, hbefore⟩)
  · rintro ⟨key, hmem, hkey, hlast⟩
    obtain ⟨earlier, later, rfl⟩ := List.append_of_mem hmem
    refine ⟨earlier, key, later, rfl, hkey, fun other hother => ?_⟩
    obtain ⟨hlater, hbefore⟩ := hkeys.mem_later_iff.1 hother
    exact hlast other hlater hbefore

/-- Bindings that are left out for their keys do not matter to a key that is kept. -/
theorem last?_filter_map {ω : Type} (keep : κ → Bool) {k : κ} (hk : keep k = true) (f : ν → ω)
    (l : List (κ × ν)) :
    last? k ((l.filter fun p => keep p.1).map fun p => (p.1, f p.2)) = (last? k l).map f := by
  induction l with
  | nil => rfl
  | cons p l ih =>
    cases hsame : same k p.1 with
    | true =>
      have hkept : keep p.1 = true := same_iff.1 hsame ▸ hk
      rw [List.filter_cons, if_pos hkept, List.map_cons, last?, last?, ih, hsame]
      cases last? k l <;> rfl
    | false =>
      have hskip : last? k (p :: l) = last? k l := by simp [last?, hsame]
      rw [hskip, ← ih, List.filter_cons]
      cases keep p.1 <;> simp [last?, hsame]

theorem last?_of_sorted {l : List (κ × ν)} (hl : Sorted l) (k : κ) : last? k l = lookup k l := by
  induction l with
  | nil => rfl
  | cons p l ih =>
    obtain ⟨hhead, htail⟩ := List.pairwise_cons.1 hl
    rw [last?, lookup, ih htail]
    cases hk : same k p.1 with
    | false => simp
    | true =>
      have habsent : lookup k l = none := by
        rw [same_iff.1 hk]
        exact lookup_eq_none_of_before hhead
      simp [habsent]

end Bindings

namespace Dict

theorem ext_get? {a b : Dict κ ν} (h : ∀ k, a.get? k = b.get? k) : a = b :=
  ext (a.sorted.ext_lookup b.sorted h)

@[simp] theorem get?_empty (k : κ) : (empty : Dict κ ν).get? k = none := rfl

theorem mem_toList_iff {d : Dict κ ν} {k : κ} {v : ν} : (k, v) ∈ d.toList ↔ d.get? k = some v := by
  rw [get?, ← Bindings.last?_of_sorted d.sorted]
  refine ⟨fun h => ?_, Bindings.mem_of_last?⟩
  obtain ⟨earlier, later, hd⟩ := List.append_of_mem h
  have hlater : k ∉ later.map Prod.fst := by
    have hsorted := d.sorted
    rw [hd] at hsorted
    intro hk
    obtain ⟨p, hp, rfl⟩ := List.mem_map.1 hk
    have hbefore := (List.pairwise_cons.1 (List.pairwise_append.1 hsorted).2.1).1 p hp
    rw [KeyOrder.irrefl] at hbefore
    cases hbefore
  exact Bindings.last?_eq_some_iff.2 ⟨earlier, later, hd, hlater⟩

theorem mem_values_iff {d : Dict κ ν} {v : ν} : v ∈ d.values ↔ ∃ k, d.get? k = some v := by
  simp [values, ← mem_toList_iff]

theorem get?_erase_ne (d : Dict κ ν) {k j : κ} (hj : j ≠ k) : (d.erase k).get? j = d.get? j :=
  Bindings.lookup_filter_ne hj d.toList

theorem mem_keys_erase {d : Dict κ ν} {k j : κ} : j ∈ (d.erase k).keys ↔ j ≠ k ∧ j ∈ d.keys := by
  simp only [keys, erase, List.mem_map, List.mem_filter, Bool.not_eq_true', same_eq_false_iff]
  constructor
  · rintro ⟨p, ⟨hp, hne⟩, rfl⟩
    exact ⟨hne.symm, p, hp, rfl⟩
  · rintro ⟨hne, p, hp, rfl⟩
    exact ⟨p, ⟨hp, hne.symm⟩, rfl⟩

theorem get?_erase_self (d : Dict κ ν) (k : κ) : (d.erase k).get? k = none := by
  rw [← Option.not_isSome_iff_eq_none, ← mem_keys_iff, mem_keys_erase]
  exact fun h => h.1 rfl

theorem insertAll_cons (d : Dict κ ν) (p : κ × ν) (l : List (κ × ν)) :
    d.insertAll (p :: l) = (d.insert p.1 p.2).insertAll l := rfl

theorem foldl_insertAll {α : Type} (f : α → List (κ × ν)) (l : List α) (d : Dict κ ν) :
    l.foldl (fun d a => d.insertAll (f a)) d = d.insertAll (l.flatMap f) := by
  induction l generalizing d with
  | nil => rfl
  | cons a l ih =>
    rw [List.foldl_cons, ih, List.flatMap_cons, insertAll, insertAll, insertAll, List.foldl_append]

/-- A field of a record that is filled step by step. -/
theorem get?_foldl_insert {α ρ : Type} (field : ρ → Dict κ ν) (row? : α → Option (κ × ν))
    {step : ρ → α → ρ}
    (hstep : ∀ acc a, field (step acc a) = match row? a with
      | some (k, v) => (field acc).insert k v
      | none => field acc) (l : List α) (start : ρ) (k : κ) :
    (field (l.foldl step start)).get? k =
      (Bindings.last? k (l.filterMap row?)).or ((field start).get? k) := by
  induction l generalizing start with
  | nil => rfl
  | cons a l ih =>
    rw [List.foldl_cons, ih, hstep]
    cases hrow : row? a with
    | none => rw [List.filterMap_cons_none hrow]
    | some p =>
      rw [List.filterMap_cons_some hrow, Bindings.last?, Option.or_assoc, get?_insert]
      cases same k p.1 <;> rfl

theorem get?_insertAll (d : Dict κ ν) (l : List (κ × ν)) (k : κ) :
    (d.insertAll l).get? k = (Bindings.last? k l).or (d.get? k) := by
  have hall := get?_foldl_insert (ρ := Dict κ ν) id some (fun _ _ => rfl) l d k
  rw [List.filterMap_some] at hall
  exact hall

theorem get?_insertNew (d : Dict κ ν) (k j : κ) (v : ν) :
    (d.insertNew k v).get? j = (d.get? j).or (if same j k then some v else none) := by
  unfold insertNew contains
  split
  next hbound =>
    cases hj : same j k with
    | false => simp
    | true =>
      rw [same_iff.1 hj]
      obtain ⟨w, hw⟩ := Option.isSome_iff_exists.1 hbound
      simp [hw]
  next hfree =>
    rw [get?_insert]
    cases hj : same j k with
    | false => simp
    | true =>
      rw [same_iff.1 hj, Option.not_isSome_iff_eq_none.1 hfree]
      rfl

theorem get?_ofList (l : List (κ × ν)) (k : κ) : (ofList l).get? k = Bindings.last? k l := by
  induction l with
  | nil => rfl
  | cons p l ih => rw [ofList, get?_insertNew, ih, Bindings.last?]

/-- All bindings at once and one after the other. -/
theorem ofList_eq_insertAll (l : List (κ × ν)) : ofList l = empty.insertAll l := by
  refine ext_get? fun k => ?_
  rw [get?_ofList, get?_insertAll, get?_empty, Option.or_none]

theorem mem_keys_ofList_iff {l : List (κ × ν)} {k : κ} :
    k ∈ (ofList l).keys ↔ k ∈ l.map Prod.fst := by
  rw [ofList_eq_insertAll, mem_keys_insertAll]
  exact or_iff_left List.not_mem_nil

theorem get?_merge (a b : Dict κ ν) (k : κ) : (a.merge b).get? k = (b.get? k).or (a.get? k) := by
  rw [merge, get?_insertAll, Bindings.last?_of_sorted b.sorted]
  rfl

theorem get?_insertAll_const [DecidableEq κ] (d : Dict κ ν) (ks : List κ) (v : ν) (k : κ) :
    (d.insertAll (ks.map (·, v))).get? k = if k ∈ ks then some v else d.get? k := by
  induction ks generalizing d with
  | nil => simp [insertAll]
  | cons k' ks ih =>
    rw [List.map_cons, insertAll_cons, ih, get?_insert]
    by_cases hmem : k ∈ ks
    · simp [hmem]
    · by_cases hk : k = k'
      · simp [hk]
      · simp [hmem, hk, same_eq_false_iff.2 hk]

/-- A field of records that are merged one after the other. -/
theorem get?_foldl_merge {ρ : Type} {field : ρ → Dict κ ν} {merge : ρ → ρ → ρ}
    (hfield : ∀ a b, field (merge a b) = (field a).merge (field b)) (parts : List ρ) (start : ρ)
    (k : κ) :
    (field (parts.foldl merge start)).get? k =
      (parts.reverse.findSome? fun part => (field part).get? k).or ((field start).get? k) := by
  induction parts generalizing start with
  | nil => rfl
  | cons part parts ih =>
    rw [List.foldl_cons, ih, hfield, get?_merge, List.reverse_cons, List.findSome?_append,
      Option.or_assoc]
    simp

end Dict

end SwitchMib
