import Mathlib.Data.List.Basic
import SwitchMib.Bisect
import SwitchMib.Proofs.Order.Successor

/-!
# What binary search finds

The search is told for any comparison that rises along a list, and for keys in order after that.

* `Window`: what a search knows while it runs. `Window.left`, `Window.right`: one step of it.
* `Found`, `found_bisect`: what a search finds. `gap_partitionPoint`: the same for a property.
* `Gap.ascending_insertIdx`: a key that is put in where the search ends leaves the list in order.
-/

namespace SwitchMib
set_option autoImplicit false

open KeyOrder

/-! ## Any comparison -/

section Bisect

variable {α : Type} {f : α → Ordering} {l : List α} {base size : Nat}

/-- Along the list, elements that compare less come first and those that compare greater last. -/
def Rising (f : α → Ordering) (l : List α) : Prop :=
  l.Pairwise fun a b => (f b = .lt → f a = .lt) ∧ (f a = .gt → f b = .gt)

/-- What a search knows that is left with `size` elements from `base` on. -/
structure Window (f : α → Ordering) (l : List α) (base size : Nat) : Prop where
  bound : base + size ≤ l.length
  /-- The search moves on only to an element that it has compared. -/
  reached : ∀ hbase : base < l.length, 0 < base → f l[base] ≠ .gt
  above : ∀ (j : Nat) (hj : j < l.length), base + size ≤ j → f l[j] = .gt

theorem Window.whole : Window f l 0 l.length where
  bound := by omega
  reached _ hpos := absurd hpos (Nat.lt_irrefl 0)
  above j hj hend := by omega

theorem Window.left (h : Window f l base size) (hf : Rising f l)
    (hmid : base + size / 2 < l.length) (hgt : f l[base + size / 2] = .gt) :
    Window f l base (size - size / 2) where
  bound := by have := h.bound; omega
  reached := h.reached
  above j hj hend := by
    rcases Nat.lt_or_ge (base + size / 2) j with hlt | hle
    · exact (List.pairwise_iff_getElem.1 hf _ j hmid hj hlt).2 hgt
    · obtain rfl : j = base + size / 2 := by omega
      exact hgt

theorem Window.right (h : Window f l base size) (hmid : base + size / 2 < l.length)
    (hgt : f l[base + size / 2] ≠ .gt) : Window f l (base + size / 2) (size - size / 2) where
  bound := by have := h.bound; omega
  reached _ _ := hgt
  above j hj hend := h.above j hj (by omega)

theorem Window.narrow (h : Window f l base size) (hf : Rising f l)
    (hbound : base + size ≤ l.length) (hsize : 0 < size) :
    Window f l (narrow f l base size hbound hsize) 1 := by
  fun_induction SwitchMib.narrow f l base size hbound hsize with
  | case1 base size hbound hsize hmore hmid hgt ih => exact ih (h.left hf hmid hgt)
  | case2 base size hbound hsize hmore hmid hgt ih => exact ih (h.right hmid hgt)
  | case3 base size hbound hsize hmore =>
    obtain rfl : size = 1 := by omega
    exact h

/-- Everything before `i` compares less and everything from `i` on compares greater. -/
structure Gap (f : α → Ordering) (l : List α) (i : Nat) : Prop where
  bound : i ≤ l.length
  below : ∀ a ∈ l.take i, f a = .lt
  above : ∀ a ∈ l.drop i, f a = .gt

theorem Window.gap_after (h : Window f l base 1) (hf : Rising f l) (hbase : base < l.length)
    (hlt : f l[base] = .lt) : Gap f l (base + 1) where
  bound := hbase
  below a ha := by
    obtain ⟨j, hj, rfl⟩ := List.mem_take_iff_getElem.1 ha
    rcases Nat.lt_or_ge j base with hbefore | hle
    · exact (List.pairwise_iff_getElem.1 hf j base (by omega) hbase hbefore).1 hlt
    · obtain rfl : j = base := by omega
      exact hlt
  above a ha := by
    obtain ⟨j, hj, rfl⟩ := List.mem_drop_iff_getElem.1 ha
    exact h.above _ _ (by omega)

theorem Window.gap_before (h : Window f l base 1) (hbase : base < l.length)
    (hgt : f l[base] = .gt) : Gap f l base := by
  obtain rfl : base = 0 := Nat.eq_zero_of_not_pos fun hpos => h.reached hbase hpos hgt
  refine ⟨Nat.zero_le _, by simp, fun a ha => ?_⟩
  obtain ⟨j, hj, rfl⟩ := List.mem_iff_getElem.1 ha
  cases j with
  | zero => exact hgt
  | succ j => exact h.above _ _ (by omega)

/-- What the two outcomes of a search say. -/
def Found (f : α → Ordering) (l : List α) : Except Nat Nat → Prop
  | .ok i => ∃ hi : i < l.length, f l[i] = .eq
  | .error i => Gap f l i

theorem found_bisect (hf : Rising f l) : Found f l (bisect f l) := by
  unfold bisect
  split
  next hsize =>
    have hend := Window.whole.narrow hf (by omega) hsize
    dsimp only
    split
    next hlt => exact hend.gap_after hf (Fin.isLt _) hlt
    next heq => exact ⟨Fin.isLt _, heq⟩
    next hgt => exact hend.gap_before (Fin.isLt _) hgt
  next hsize =>
    obtain rfl : l = [] := List.eq_nil_of_length_eq_zero (by omega)
    exact ⟨Nat.le_refl 0, by simp, by simp⟩

theorem gap_partitionPoint {p : α → Bool} (hp : l.Pairwise fun a b => p b = true → p a = true) :
    Gap (fun a => if p a then .lt else .gt) l (partitionPoint p l) := by
  have hrising : Rising (fun a => if p a then .lt else .gt) l := by
    refine hp.imp fun {a b} hab => ?_
    dsimp only
    cases hb : p b with
    | true => simp [hab hb]
    | false => simp
  have hfound := found_bisect hrising
  unfold partitionPoint
  cases hi : bisect (fun a => if p a then .lt else .gt) l with
  | error i =>
    rw [hi] at hfound
    exact hfound
  | ok i =>
    -- A property never makes an element compare equal.
    rw [hi] at hfound
    obtain ⟨hlt, heq⟩ := hfound
    cases hpi : p l[i] <;> simp [hpi] at heq

/-- A search stays inside the list, whatever is compared. -/
theorem le_length_of_bisect {i : Nat} (h : bisect f l = .ok i ∨ bisect f l = .error i) :
    i ≤ l.length := by
  unfold bisect at h
  split at h
  next hsize =>
    have hend := (narrow f l 0 l.length (by omega) hsize).isLt
    rcases h with h | h <;> dsimp only at h <;> split at h <;> cases h <;> omega
  next hsize =>
    rcases h with h | h <;> cases h
    exact Nat.zero_le _

theorem partitionPoint_le_length (p : α → Bool) (l : List α) : partitionPoint p l ≤ l.length := by
  unfold partitionPoint
  split
  next h => exact le_length_of_bisect (.inl h)
  next h => exact le_length_of_bisect (.inr h)

theorem insertIdx_eq_append {a : α} {i : Nat} (h : i ≤ l.length) :
    l.insertIdx i a = l.take i ++ a :: l.drop i := by
  obtain ⟨earlier, later, hsplit, rfl, hinsert⟩ := List.exists_of_modifyTailIdx (List.cons a) h
  rw [List.insertIdx, hinsert, hsplit, List.take_left, List.drop_left]

theorem getElem?_partitionPoint {p : α → Bool}
    (hp : l.Pairwise fun a b => p b = true → p a = true) :
    l[partitionPoint p l]? = l.find? fun a => !p a := by
  have hgap := gap_partitionPoint hp
  generalize partitionPoint p l = i at hgap
  have hbelow : (l.take i).find? (fun a => !p a) = none :=
    List.find?_eq_none.2 fun a ha => by simpa using hgap.below a ha
  have habove : (l.drop i).find? (fun a => !p a) = (l.drop i).head? := by
    cases hdrop : l.drop i with
    | nil => rfl
    | cons a later =>
      have ha : p a = false := by simpa using hgap.above a (hdrop ▸ List.mem_cons_self)
      simp [ha]
  calc l[i]? = (l.drop i).head? := List.head?_drop.symm
    _ = (l.take i ++ l.drop i).find? fun a => !p a := by
      rw [List.find?_append, hbelow, habove, Option.none_or]
    _ = l.find? fun a => !p a := by rw [List.take_append_drop]

end Bisect

/-! ## Searching ascending keys -/

section Ascending

variable {κ : Type} [KeyOrder κ] {l : List κ} {k : κ}

theorem compare_eq_lt_iff {a b : κ} : KeyOrder.compare a b = .lt ↔ before a b = true := by
  unfold KeyOrder.compare
  split
  next h => simp [h]
  next h => split <;> simp [h]

theorem compare_eq_gt_iff {a b : κ} : KeyOrder.compare a b = .gt ↔ before b a = true := by
  unfold KeyOrder.compare
  split
  next h => simp [KeyOrder.asymm h]
  next h => split <;> simp [*]

theorem eq_of_compare {a b : κ} (h : KeyOrder.compare a b = .eq) : a = b := by
  unfold KeyOrder.compare at h
  split at h
  next => cases h
  next hab =>
    split at h
    next => cases h
    next hba => exact KeyOrder.connex (Bool.not_eq_true _ ▸ hab) (Bool.not_eq_true _ ▸ hba)

theorem not_before_trans {a b c : κ} (hab : before b a = false) (hbc : before c b = false) :
    before c a = false := by
  cases hca : before c a with
  | false => rfl
  | true =>
    have hne : a ≠ b := by
      rintro rfl
      rw [hca] at hbc
      cases hbc
    rw [KeyOrder.trans hca (KeyOrder.before_of_not_before_of_ne hab hne)] at hbc
    cases hbc

theorem Ascending.rising_compare (h : Ascending l) (k : κ) :
    Rising (fun a => KeyOrder.compare a k) l := by
  refine List.Pairwise.imp (fun {a b} hab => ?_) h
  rw [compare_eq_lt_iff, compare_eq_lt_iff, compare_eq_gt_iff, compare_eq_gt_iff]
  exact ⟨fun hb => KeyOrder.trans hab hb, fun ha => KeyOrder.trans ha hab⟩

theorem mem_of_bisect {i : Nat} (h : Ascending l)
    (hi : bisect (fun a => KeyOrder.compare a k) l = .ok i) : k ∈ l := by
  have hfound := found_bisect (h.rising_compare k)
  rw [hi] at hfound
  obtain ⟨hlt, heq⟩ := hfound
  rw [← eq_of_compare heq]
  exact List.getElem_mem hlt

theorem Gap.ascending_insertIdx {i : Nat} (h : Gap (fun a => KeyOrder.compare a k) l i)
    (hl : Ascending l) : Ascending (l.insertIdx i k) := by
  have hbelow : ∀ a ∈ l.take i, before a k = true := fun a ha => compare_eq_lt_iff.1 (h.below a ha)
  have habove : ∀ a ∈ l.drop i, before k a = true := fun a ha => compare_eq_gt_iff.1 (h.above a ha)
  rw [insertIdx_eq_append h.bound, Ascending, List.pairwise_append, List.pairwise_cons]
  refine ⟨hl.take, ⟨habove, hl.drop⟩, fun a ha b hb => ?_⟩
  rcases List.mem_cons.1 hb with rfl | hb
  · exact hbelow a ha
  · exact KeyOrder.trans (hbelow a ha) (habove b hb)

/-- What follows the keys up to `k` is the first key above `k`. -/
theorem InOrder.getElem?_partitionPoint (h : InOrder l) (k : κ) :
    l[partitionPoint (fun a => !before k a) l]? = l.find? fun a => before k a := by
  have hupTo : l.Pairwise fun a b => (!before k b) = true → (!before k a) = true := by
    refine List.Pairwise.imp (fun {a b} hab hb => ?_) h
    rw [Bool.not_eq_true'] at hb ⊢
    exact not_before_trans hab hb
  rw [SwitchMib.getElem?_partitionPoint hupTo]
  simp

end Ascending

end SwitchMib
