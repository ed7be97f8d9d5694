import Mathlib.Data.List.Nodup
import SwitchMib.Proofs.Log
import SwitchMib.Proofs.Text.Cuts

/-!
# Complaints made once

What a memory of complaints lets pass of a list of complaints is the first of each key that it does
not hold yet. Told piece by piece or at once, a list of complaints gives the same messages.

* `Once.news`, `Once.events_tellNew`: the complaints that a memory lets pass, which are those told.
* `Once.nodup_keys_news`, `Once.mem_keys_news_iff`: every new key once.
* `Once.news_append`: complaints told piece by piece.
* `Once.joined_inj_left`, `Once.joined_inj_right`: keys that are joined of two parts.
-/

namespace SwitchMib.Once
set_option autoImplicit false

/-! ## Joined keys -/

theorem toList_joined (sep : Char) (a b : String) :
    (joined sep a b).toList = a.toList ++ sep :: b.toList := by
  simp [joined]

/-- A joined key tells its parts where the separator is not in the first. -/
theorem joined_inj_left {sep : Char} {a b rest rest' : String}
    (h : joined sep a rest = joined sep b rest') (ha : sep ∉ a.toList) (hb : sep ∉ b.toList) :
    a = b ∧ rest = rest' := by
  have hchars := congrArg String.toList h
  rw [toList_joined, toList_joined] at hchars
  obtain ⟨hfirst, hrest⟩ := Text.append_cons_inj hchars ha hb
  exact ⟨String.toList_inj.1 hfirst, String.toList_inj.1 hrest⟩

/-- A joined key tells its parts where the separator is not in the second. -/
theorem joined_inj_right {sep : Char} {a b rest rest' : String}
    (h : joined sep a rest = joined sep b rest') (hrest : sep ∉ rest.toList)
    (hrest' : sep ∉ rest'.toList) : a = b ∧ rest = rest' := by
  have hchars := congrArg String.toList h
  rw [toList_joined, toList_joined] at hchars
  obtain ⟨hfirst, hsecond⟩ := Text.append_cons_inj_of_last hchars hrest hrest'
  exact ⟨String.toList_inj.1 hfirst, String.toList_inj.1 hsecond⟩

/-! ## What a memory lets pass -/

variable {κ : Type} [DecidableEq κ]

/-- The complaints of a list that a memory does not hold, the first of each key. -/
def news : Once κ → List (κ × Event) → List (κ × Event)
  | _, [] => []
  | m, c :: rest => if c.1 ∈ m.seen then news m rest else c :: news ⟨c.1 :: m.seen⟩ rest

@[simp] theorem news_nil (m : Once κ) : m.news [] = [] := rfl

theorem events_tellNew (m : Once κ) (l : List (κ × Event)) :
    (m.tellNew l).events = (m.news l).map Prod.snd := by
  induction l generalizing m with
  | nil => rfl
  | cons c rest ih =>
    rw [tellNew, news]
    split
    · exact ih m
    · exact congrArg (c.2 :: ·) (ih _)

theorem news_append (m : Once κ) (l later : List (κ × Event)) :
    m.news (l ++ later) = m.news l ++ (m.tellNew l).value.news later := by
  induction l generalizing m with
  | nil => rfl
  | cons c rest ih =>
    rw [List.cons_append, news, news, tellNew]
    split
    · exact ih m
    · exact congrArg (c :: ·) (ih _)

theorem mem_of_mem_news {m : Once κ} {l : List (κ × Event)} {c : κ × Event} (h : c ∈ m.news l) :
    c ∈ l ∧ c.1 ∉ m.seen := by
  induction l generalizing m with
  | nil => cases h
  | cons first rest ih =>
    rw [news] at h
    split at h
    · obtain ⟨hmem, hseen⟩ := ih h
      exact ⟨List.mem_cons_of_mem _ hmem, hseen⟩
    · rename_i hfirst
      rcases List.mem_cons.1 h with rfl | h
      · exact ⟨List.mem_cons_self, hfirst⟩
      · obtain ⟨hmem, hseen⟩ := ih h
        exact ⟨List.mem_cons_of_mem _ hmem, fun hold => hseen (List.mem_cons_of_mem _ hold)⟩

theorem mem_keys_news_iff {m : Once κ} {l : List (κ × Event)} {k : κ} :
    k ∈ (m.news l).map Prod.fst ↔ k ∈ l.map Prod.fst ∧ k ∉ m.seen := by
  induction l generalizing m with
  | nil => simp
  | cons first rest ih =>
    rw [news]
    split
    · rename_i hfirst
      rw [ih, List.map_cons, List.mem_cons]
      constructor
      · exact fun h => ⟨Or.inr h.1, h.2⟩
      · rintro ⟨rfl | hmem, hseen⟩
        · exact absurd hfirst hseen
        · exact ⟨hmem, hseen⟩
    · rename_i hfirst
      rw [List.map_cons, List.mem_cons, ih, List.map_cons, List.mem_cons, List.mem_cons]
      by_cases hk : k = first.1
      · simp [hk, hfirst]
      · simp [hk]

theorem nodup_keys_news (m : Once κ) (l : List (κ × Event)) :
    ((m.news l).map Prod.fst).Nodup := by
  induction l generalizing m with
  | nil => exact List.nodup_nil
  | cons first rest ih =>
    rw [news]
    split
    · exact ih m
    · refine List.nodup_cons.2 ⟨fun hmem => ?_, ih _⟩
      exact (mem_keys_news_iff.1 hmem).2 List.mem_cons_self

end SwitchMib.Once
