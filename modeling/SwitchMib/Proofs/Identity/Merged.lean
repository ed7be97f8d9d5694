import SwitchMib.Proofs.Dict
import SwitchMib.Proofs.Log

/-!
# Maps loaded from several places

What is loaded from several places is merged in their order, so of each key the last place that
binds it decides.

* `exists_last`: the last element of a list with a property.
* `findSome?_reverse_eq_some_iff`: what the last answer of a list is.
* `Load.get?_merged`: every field of a merged load is read at the last place that binds the key.
* `Load.exists_part_of_merged`: what is bound is bound at one of the places.
* `Load.get?_merged_of_sole`: where that is the only such place, it is as if there were no other.
-/

namespace SwitchMib
set_option autoImplicit false

variable {α β ε : Type}

theorem exists_last {P : α → Prop} {l : List α} (h : ∃ a ∈ l, P a) :
    ∃ earlier a later, l = earlier ++ a :: later ∧ P a ∧ ∀ x ∈ later, ¬ P x := by
  induction l with
  | nil =>
    obtain ⟨a, ha, -⟩ := h
    cases ha
  | cons a l ih =>
    by_cases hlater : ∃ x ∈ l, P x
    · obtain ⟨earlier, x, later, rfl, hx, hnone⟩ := ih hlater
      exact ⟨a :: earlier, x, later, rfl, hx, hnone⟩
    · obtain ⟨x, hx, hP⟩ := h
      have hnone : ∀ y ∈ l, ¬ P y := fun y hy hPy => hlater ⟨y, hy, hPy⟩
      rcases List.mem_cons.1 hx with rfl | hx
      · exact ⟨[], x, l, rfl, hP, hnone⟩
      · exact absurd hP (hnone x hx)

theorem findSome?_congr {l : List α} {f g : α → Option β} (h : ∀ a ∈ l, f a = g a) :
    l.findSome? f = l.findSome? g := by
  induction l with
  | nil => rfl
  | cons a l ih =>
    obtain ⟨ha, hl⟩ := List.forall_mem_cons.1 h
    rw [List.findSome?_cons, List.findSome?_cons, ha, ih hl]

theorem findSome?_reverse_eq_some_iff {l : List α} {f : α → Option β} {b : β} :
    l.reverse.findSome? f = some b ↔
      ∃ earlier a later, l = earlier ++ a :: later ∧ f a = some b ∧ ∀ x ∈ later, f x = none := by
  rw [List.findSome?_eq_some_iff]
  constructor
  · rintro ⟨later, a, earlier, hl, ha, hnone⟩
    refine ⟨earlier.reverse, a, later.reverse, ?_, ha, ?_⟩
    · rw [← List.reverse_reverse l, hl]
      simp
    · simpa using hnone
  · rintro ⟨earlier, a, later, rfl, ha, hnone⟩
    refine ⟨later.reverse, a, earlier.reverse, by simp, ha, ?_⟩
    simpa using hnone

/-- Where one element alone has an answer, it is the last one. -/
theorem findSome?_reverse_of_sole {l : List α} {f : α → Option β} {a : α} (ha : a ∈ l)
    (hothers : ∀ x ∈ l, x ≠ a → f x = none) : l.reverse.findSome? f = f a := by
  cases hfound : l.reverse.findSome? f with
  | none => exact (List.findSome?_eq_none_iff.1 hfound a (List.mem_reverse.2 ha)).symm
  | some b =>
    obtain ⟨x, hx, hb⟩ := List.exists_of_findSome?_eq_some hfound
    by_cases hsame : x = a
    · rw [← hb, hsame]
    · have hnone := hothers x (List.mem_reverse.1 hx) hsame
      rw [hnone] at hb
      cases hb

theorem Load.get?_merged {ρ κ ν : Type} [KeyOrder κ] {load : α → Load ε ρ} {merge : ρ → ρ → ρ}
    {l : List α} {start result : ρ}
    (h : (l.foldlM (fun acc a => do pure (merge acc (← load a))) start).outcome = .ok result)
    {field : ρ → Dict κ ν} (hfield : ∀ a b, field (merge a b) = (field a).merge (field b)) {k : κ}
    (hstart : (field start).get? k = none) {answer : α → Option ν}
    (hanswer : ∀ a part, (load a).outcome = .ok part → (field part).get? k = answer a) :
    (field result).get? k = l.reverse.findSome? answer := by
  obtain ⟨part, hpart, rfl⟩ := exists_merged_of_outcome h
  rw [Dict.get?_foldl_merge hfield, hstart, Option.or_none, ← List.map_reverse,
    List.findSome?_map]
  apply findSome?_congr
  intro a ha
  exact hanswer a (part a) (hpart a (List.mem_reverse.1 ha))

/-- What is bound in the merged load is bound at one of the places. -/
theorem Load.exists_part_of_merged {ρ κ ν : Type} [KeyOrder κ] {load : α → Load ε ρ}
    {merge : ρ → ρ → ρ} {l : List α} {start result : ρ}
    (h : (l.foldlM (fun acc a => do pure (merge acc (← load a))) start).outcome = .ok result)
    {field : ρ → Dict κ ν} (hfield : ∀ a b, field (merge a b) = (field a).merge (field b)) {k : κ}
    (hstart : (field start).get? k = none) {v : ν} (hget : (field result).get? k = some v) :
    ∃ a ∈ l, ∃ part, (load a).outcome = .ok part ∧ (field part).get? k = some v := by
  obtain ⟨part, hpart, rfl⟩ := exists_merged_of_outcome h
  rw [Dict.get?_foldl_merge hfield, hstart, Option.or_none, ← List.map_reverse,
    List.findSome?_map] at hget
  obtain ⟨a, ha, hv⟩ := List.exists_of_findSome?_eq_some hget
  have hmem : a ∈ l := List.mem_reverse.1 ha
  exact ⟨a, hmem, part a, hpart a hmem, hv⟩

/-- A key that one place alone binds is bound in the merged load as in the load of that place. -/
theorem Load.get?_merged_of_sole {ρ κ ν : Type} [KeyOrder κ] {load : α → Load ε ρ}
    {merge : ρ → ρ → ρ} {l : List α} {start result own : ρ} {a : α} (ha : a ∈ l)
    (h : (l.foldlM (fun acc a => do pure (merge acc (← load a))) start).outcome = .ok result)
    (hown : ([a].foldlM (fun acc a => do pure (merge acc (← load a))) start).outcome = .ok own)
    {field : ρ → Dict κ ν} (hfield : ∀ a b, field (merge a b) = (field a).merge (field b)) {k : κ}
    (hstart : (field start).get? k = none)
    (hothers : ∀ x ∈ l, x ≠ a → ∀ part, (load x).outcome = .ok part →
      ∀ v, (field part).get? k ≠ some v) : (field result).get? k = (field own).get? k := by
  let answer (x : α) : Option ν := (load x).outcome.toOption.bind fun part => (field part).get? k
  have hanswer : ∀ x part, (load x).outcome = .ok part → (field part).get? k = answer x := by
    intro x part hload
    simp [answer, hload, Except.toOption]
  have hsole : ∀ x ∈ l, x ≠ a → answer x = none := by
    intro x hx hne
    cases hload : (load x).outcome with
    | error e => simp [answer, hload, Except.toOption]
    | ok part =>
      rw [← hanswer x part hload]
      exact Option.eq_none_iff_forall_ne_some.2 (hothers x hx hne part hload)
  rw [get?_merged h hfield hstart hanswer, get?_merged hown hfield hstart hanswer,
    findSome?_reverse_of_sole ha hsole]
  exact (findSome?_reverse_of_sole List.mem_cons_self fun x hx hne =>
    absurd (List.mem_singleton.1 hx) hne).symm

end SwitchMib
