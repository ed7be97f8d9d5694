import SwitchMib.Dict

/-!
# The least key above a given one

Every walk of the agent asks for the least key that lies strictly above a given one and has some
property: being a row of a table, being an object with a value.

* `IsSuccessor P k r`: `r` is that key, or nothing where there is none.
* `IsSuccessor.unique`: there is only one answer. `IsSuccessor.eq_some_iff` and
  `IsSuccessor.eq_none_iff` tell which.
* `IsSuccessor.congr`, `IsSuccessor.of_start`: what the answer depends on.
* `IsSuccessor.or_left`, `IsSuccessor.or_right`: the answer over two blocks, one below the other.
* `IsSuccessor.map`: the answer below a root, or in a column.
* `Ascending.ext`: there is one ascending list of given keys.
* `InOrder`: ascending with repetitions. `isSuccessor_find?`: the first hit in such a list is the
  least one.
* `Dict.above?_isSuccessor`: so a finite map finds the least of its keys.
-/

namespace SwitchMib
set_option autoImplicit false

open KeyOrder

/-- `IsSuccessor P k r`: among the keys with `P`, `r` is the least one strictly above `k`; `r` is
nothing when no key with `P` lies above `k`. -/
def IsSuccessor {κ : Type} [KeyOrder κ] (P : κ → Prop) (k : κ) : Option κ → Prop
  | some r => P r ∧ before k r = true ∧ ∀ j, P j → before k j = true → before j r = false
  | none => ∀ j, P j → before k j = false

namespace IsSuccessor

variable {κ : Type} [KeyOrder κ] {P Q : κ → Prop} {k : κ}

theorem unique {r s : Option κ} (hr : IsSuccessor P k r) (hs : IsSuccessor P k s) : r = s := by
  cases r with
  | none =>
    cases s with
    | none => rfl
    | some y =>
      have h := hr y hs.1
      rw [hs.2.1] at h
      cases h
  | some x =>
    cases s with
    | none =>
      have h := hs x hr.1
      rw [hr.2.1] at h
      cases h
    | some y =>
      have hxy : before x y = false := hs.2.2 x hr.1 hr.2.1
      have hyx : before y x = false := hr.2.2 y hs.1 hs.2.1
      rw [KeyOrder.connex hxy hyx]

theorem eq_none_iff {r : Option κ} (h : IsSuccessor P k r) :
    r = none ↔ ∀ j, P j → before k j = false := by
  constructor
  · rintro rfl
    exact h
  · exact fun hnone => h.unique (s := none) hnone

theorem eq_some_iff {r : Option κ} (h : IsSuccessor P k r) {x : κ} :
    r = some x ↔ P x ∧ before k x = true ∧
      ∀ j, P j → before k j = true → j = x ∨ before x j = true := by
  constructor
  · rintro rfl
    obtain ⟨hx, hkx, hleast⟩ := h
    refine ⟨hx, hkx, fun j hj hkj => ?_⟩
    by_cases hxj : x = j
    · exact Or.inl hxj.symm
    · exact Or.inr (before_of_not_before_of_ne (hleast j hj hkj) hxj)
  · rintro ⟨hx, hkx, hleast⟩
    refine h.unique (s := some x) ⟨hx, hkx, fun j hj hkj => ?_⟩
    rcases hleast j hj hkj with rfl | hxj
    · exact KeyOrder.irrefl j
    · exact KeyOrder.asymm hxj

/-- Only the keys above `k` matter. -/
theorem congr {r : Option κ} (h : IsSuccessor P k r)
    (hPQ : ∀ j, before k j = true → (P j ↔ Q j)) : IsSuccessor Q k r := by
  cases r with
  | none =>
    intro j hj
    cases hkj : before k j with
    | false => rfl
    | true =>
      have := h j ((hPQ j hkj).2 hj)
      rw [hkj] at this
      cases this
  | some x =>
    obtain ⟨hx, hkx, hleast⟩ := h
    exact ⟨(hPQ x hkx).1 hx, hkx, fun j hj hkj => hleast j ((hPQ j hkj).2 hj) hkj⟩

theorem of_start {k' : κ} {r : Option κ} (h : IsSuccessor P k' r)
    (hk : ∀ j, P j → before k j = before k' j) : IsSuccessor P k r := by
  cases r with
  | none => exact fun j hj => (hk j hj).trans (h j hj)
  | some x =>
    obtain ⟨hx, hkx, hleast⟩ := h
    exact ⟨hx, (hk x hx).trans hkx, fun j hj hkj => hleast j hj ((hk j hj).symm.trans hkj)⟩

theorem none_of_forall (h : ∀ j, ¬ P j) : IsSuccessor P k none := fun j hj => (h j hj).elim

theorem or_left {x : κ} (h : IsSuccessor P k (some x))
    (hQ : ∀ j, Q j → before k j = true → before j x = false) :
    IsSuccessor (fun j => P j ∨ Q j) k (some x) := by
  refine ⟨Or.inl h.1, h.2.1, ?_⟩
  rintro j (hj | hj) hkj
  · exact h.2.2 j hj hkj
  · exact hQ j hj hkj

/-- Where no key with `P` is left, the search goes on among the keys with `Q`. -/
theorem or_right {r : Option κ} (h : IsSuccessor P k none) (hQ : IsSuccessor Q k r) :
    IsSuccessor (fun j => P j ∨ Q j) k r := by
  refine hQ.congr fun j hkj => ⟨Or.inr, ?_⟩
  rintro (hj | hj)
  · have := h j hj
    rw [hkj] at this
    cases this
  · exact hj

/-- An embedding that keeps the order keeps the answer. -/
theorem map {ι : Type} [KeyOrder ι] {f : κ → ι}
    (hf : ∀ a b, before (f a) (f b) = before a b) {r : Option κ} (h : IsSuccessor P k r) :
    IsSuccessor (fun y => ∃ x, P x ∧ y = f x) (f k) (r.map f) := by
  cases r with
  | none =>
    rintro y ⟨x, hx, rfl⟩
    rw [hf]
    exact h x hx
  | some z =>
    refine ⟨⟨z, h.1, rfl⟩, (hf k z).trans h.2.1, ?_⟩
    rintro y ⟨x, hx, rfl⟩ hkx
    rw [hf] at hkx ⊢
    exact h.2.2 x hx hkx

end IsSuccessor

/-! ## Ascending lists -/

section Ascending

variable {κ : Type} [KeyOrder κ]

def Ascending (l : List κ) : Prop := l.Pairwise fun a b => before a b = true

theorem Ascending.tail {a : κ} {l : List κ} (h : Ascending (a :: l)) : Ascending l :=
  (List.pairwise_cons.1 h).2

theorem Ascending.head_before {a : κ} {l : List κ} (h : Ascending (a :: l)) :
    ∀ b ∈ l, before a b = true := (List.pairwise_cons.1 h).1

/-- Ascending, except that a key may be repeated. -/
def InOrder (l : List κ) : Prop := l.Pairwise fun a b => before b a = false

theorem Ascending.inOrder {l : List κ} (h : Ascending l) : InOrder l := h.imp KeyOrder.asymm

theorem InOrder.tail {a : κ} {l : List κ} (h : InOrder (a :: l)) : InOrder l :=
  (List.pairwise_cons.1 h).2

theorem InOrder.not_before_head {a : κ} {l : List κ} (h : InOrder (a :: l)) :
    ∀ b ∈ a :: l, before b a = false :=
  List.forall_mem_cons.2 ⟨KeyOrder.irrefl a, (List.pairwise_cons.1 h).1⟩

theorem Ascending.nodup {l : List κ} (h : Ascending l) : l.Nodup :=
  h.imp KeyOrder.ne_of_before

/-- There is one ascending list of given keys. -/
theorem Ascending.eq_of_perm {l l' : List κ} (h : Ascending l)
    (h' : InOrder l') (hperm : l.Perm l') : l = l' :=
  List.Perm.eq_of_pairwise (fun _ _ _ _ hab hba => KeyOrder.connex hba hab) h.inOrder h' hperm

theorem Ascending.ext {l l' : List κ} (h : Ascending l) (h' : Ascending l')
    (hmem : ∀ k, k ∈ l ↔ k ∈ l') : l = l' :=
  h.eq_of_perm h'.inOrder ((List.perm_ext_iff_of_nodup h.nodup h'.nodup).2 hmem)

theorem isSuccessor_find? {l : List κ} (h : InOrder l) (k : κ) :
    IsSuccessor (· ∈ l) k (l.find? fun a => before k a) := by
  induction l with
  | nil => exact IsSuccessor.none_of_forall fun j => List.not_mem_nil
  | cons a l ih =>
    cases ha : before k a with
    | true =>
      rw [List.find?_cons_of_pos ha]
      exact ⟨List.mem_cons_self, ha, fun j hj _ => h.not_before_head j hj⟩
    | false =>
      rw [List.find?_cons_of_neg (by rw [ha]; exact Bool.false_ne_true)]
      refine (ih h.tail).congr fun j hkj => ?_
      rw [List.mem_cons]
      refine ⟨Or.inr, ?_⟩
      rintro (rfl | hj)
      · rw [ha] at hkj
        cases hkj
      · exact hj

/-- The keys of a list that lie above `k`. Their number bounds a walk from `k`. -/
def keysAbove (l : List κ) (k : κ) : List κ := l.filter fun a => before k a

theorem length_keysAbove_le (l : List κ) (k : κ) : (keysAbove l k).length ≤ l.length :=
  List.length_filter_le _ l

theorem length_keysAbove_lt {l : List κ} {k j : κ} (hj : j ∈ l) (hkj : before k j = true) :
    (keysAbove l j).length < (keysAbove l k).length := by
  have hsub : keysAbove l j = (keysAbove l k).filter fun a => before j a := by
    rw [keysAbove, keysAbove, List.filter_filter]
    refine List.filter_congr fun a _ => ?_
    cases hja : before j a with
    | false => rfl
    | true => rw [KeyOrder.trans hkj hja]; rfl
  rw [hsub, List.length_filter_lt_length_iff_exists]
  refine ⟨j, List.mem_filter.2 ⟨hj, hkj⟩, ?_⟩
  rw [KeyOrder.irrefl]
  exact Bool.false_ne_true

end Ascending

/-! ## Finite maps -/

namespace Bindings

variable {κ ν : Type} [KeyOrder κ]

theorem isSome_lookup {k : κ} : ∀ {l : List (κ × ν)}, (lookup k l).isSome ↔ k ∈ l.map (·.1)
  | [] => by simp [lookup]
  | (k', v) :: rest => by
    rw [lookup, List.map_cons, List.mem_cons]
    cases hk : same k k' with
    | true =>
      have hkk : k = k' := same_iff.1 hk
      simp [hkk]
    | false =>
      have hne : k ≠ k' := same_eq_false_iff.1 hk
      simp [hne, isSome_lookup (l := rest)]

theorem lookup_insert {k j : κ} {v : ν} :
    ∀ {l : List (κ × ν)}, lookup j (insert k v l) = if same j k then some v else lookup j l
  | [] => rfl
  | (k', v') :: rest => by
    simp only [insert]
    split
    · rfl
    · split
      · rename_i hk'
        have hne : k' ≠ k := ne_of_before hk'
        rw [lookup, lookup, lookup_insert (l := rest)]
        cases hj : same j k' with
        | true =>
          have hjk : same j k = false := by
            rw [same_iff.1 hj]
            exact same_eq_false_iff.2 hne
          simp [hjk]
        | false => simp
      · rename_i hk hk'
        have hkk : k = k' := KeyOrder.connex (by simpa using hk) (by simpa using hk')
        subst hkk
        rw [lookup, lookup]
        cases same j k <;> simp

end Bindings

namespace Dict

variable {κ ν : Type} [KeyOrder κ]

theorem keys_ascending (d : Dict κ ν) : Ascending d.keys := by
  rw [Dict.keys, Ascending, List.pairwise_map]
  exact d.sorted

theorem mem_keys_iff {d : Dict κ ν} {k : κ} : k ∈ d.keys ↔ (d.get? k).isSome :=
  Bindings.isSome_lookup.symm

theorem get?_insert (d : Dict κ ν) (k j : κ) (v : ν) :
    (d.insert k v).get? j = if same j k then some v else d.get? j := Bindings.lookup_insert

theorem mem_keys_insert {d : Dict κ ν} {k j : κ} {v : ν} :
    j ∈ (d.insert k v).keys ↔ j = k ∨ j ∈ d.keys := by
  rw [mem_keys_iff, mem_keys_iff, get?_insert]
  cases hj : same j k with
  | true => simp [same_iff.1 hj]
  | false => simp [same_eq_false_iff.1 hj]

theorem mem_keys_insertAll {l : List (κ × ν)} {d : Dict κ ν} {j : κ} :
    j ∈ (d.insertAll l).keys ↔ j ∈ l.map (·.1) ∨ j ∈ d.keys := by
  induction l generalizing d with
  | nil => simp [insertAll]
  | cons p l ih =>
    have hfold : d.insertAll (p :: l) = (d.insert p.1 p.2).insertAll l := rfl
    rw [hfold, ih, mem_keys_insert, List.map_cons, List.mem_cons]
    constructor
    · rintro (hl | hp | hd)
      · exact Or.inl (Or.inr hl)
      · exact Or.inl (Or.inl hp)
      · exact Or.inr hd
    · rintro ((hp | hl) | hd)
      · exact Or.inr (Or.inl hp)
      · exact Or.inl hl
      · exact Or.inr (Or.inr hd)

theorem above?_isSuccessor (d : Dict κ ν) (k : κ) : IsSuccessor (· ∈ d.keys) k (d.above? k) :=
  isSuccessor_find? d.keys_ascending.inOrder k

end Dict

end SwitchMib
