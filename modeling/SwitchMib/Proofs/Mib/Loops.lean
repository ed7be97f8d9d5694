import SwitchMib.Proofs.Kinds
import SwitchMib.Proofs.Once

/-!
# Loops up to the first failure

An operation that is made for every element of a list stops at the first that fails. Where what an
element comes to does not hinge on what was before it, the elements alone decide how far the loop
gets, and it is a plain loop over those that it reaches.

* `Attempt.reached`: the elements that a loop reaches.
* `Attempt.outcome_each_eq_ok_iff`, `Attempt.outcome_each_eq_error_iff`: what a loop comes to.
* `Attempt.after_each`: a loop is a plain one over the elements that it reaches.
* `Logged.Agree`: results that are the same but for messages that nobody asks about, and
  `Attempt.agree_each_flatMap`: a loop of loops is one loop.
* `Once.told_foldlM`: what a loop tells that remembers its complaints.
-/

namespace SwitchMib
set_option autoImplicit false

/-! ## Results but for some messages -/

namespace Logged

variable {α β : Type} {passes : Event → Bool}

/-- The results are the same, and so are the messages that pass. -/
structure Agree (passes : Event → Bool) (x y : Logged α) : Prop where
  value : x.value = y.value
  events : x.events.filter passes = y.events.filter passes

theorem Agree.refl (x : Logged α) : x.Agree passes x := ⟨rfl, rfl⟩

theorem Agree.bind {x y : Logged α} {f g : α → Logged β} (hxy : x.Agree passes y)
    (hfg : ∀ a, (f a).Agree passes (g a)) : (x >>= f).Agree passes (y >>= g) where
  value := by
    rw [value_bind, value_bind, hxy.value]
    exact (hfg y.value).value
  events := by
    rw [events_bind, events_bind, List.filter_append, List.filter_append, hxy.events, hxy.value,
      (hfg y.value).events]

/-- What follows a result depends on its value. -/
theorem bind_congr_value {x : Logged α} {f g : α → Logged β} (h : f x.value = g x.value) :
    x >>= f = x >>= g := by
  show (⟨(f x.value).value, x.events ++ (f x.value).events⟩ : Logged β) = _
  rw [h]
  rfl

/-- What tells nothing that passes can be left out. -/
theorem Agree.of_silent {x : Logged α} {f : α → Logged β} {y : Logged β}
    (hx : x.events.filter passes = []) (hf : (f x.value).Agree passes y) :
    (x >>= f).Agree passes y where
  value := hf.value
  events := by rw [events_bind, List.filter_append, hx, List.nil_append, hf.events]

end Logged

namespace Mib.Attempt

variable {α β υ ε : Type}

/-- The elements up to the first that fails, and that one. -/
def reached (out : α → Except ε Unit) : List α → List α
  | [] => []
  | a :: rest => a :: match out a with
    | .ok _ => reached out rest
    | .error _ => []

theorem mem_reached_iff {out : α → Except ε Unit} {l : List α} {a : α} :
    a ∈ reached out l ↔
      ∃ earlier later, l = earlier ++ a :: later ∧ ∀ b ∈ earlier, out b = .ok () := by
  induction l with
  | nil => simp [reached]
  | cons first rest ih =>
    rw [reached]
    cases hfirst : out first with
    | ok _ =>
      rw [List.mem_cons, ih]
      constructor
      · rintro (rfl | ⟨earlier, later, rfl, hearlier⟩)
        · exact ⟨[], rest, rfl, List.forall_mem_nil _⟩
        · exact ⟨first :: earlier, later, rfl, List.forall_mem_cons.2 ⟨hfirst, hearlier⟩⟩
      · rintro ⟨_ | ⟨b, earlier⟩, later, hl, hearlier⟩
        · exact .inl (List.cons.inj hl).1.symm
        · obtain ⟨rfl, rfl⟩ := List.cons.inj hl
          exact .inr ⟨earlier, later, rfl, (List.forall_mem_cons.1 hearlier).2⟩
    | error e =>
      rw [List.mem_singleton]
      constructor
      · rintro rfl
        exact ⟨[], rest, rfl, List.forall_mem_nil _⟩
      · rintro ⟨_ | ⟨b, earlier⟩, later, hl, hearlier⟩
        · exact (List.cons.inj hl).1.symm
        · obtain ⟨rfl, rfl⟩ := List.cons.inj hl
          rw [(List.forall_mem_cons.1 hearlier).1] at hfirst
          cases hfirst

theorem reached_of_ok {out : α → Except ε Unit} {l : List α} (h : ∀ a ∈ l, out a = .ok ()) :
    reached out l = l := by
  induction l with
  | nil => rfl
  | cons a l ih =>
    obtain ⟨ha, hl⟩ := List.forall_mem_cons.1 h
    rw [reached, ha]
    exact congrArg (a :: ·) (ih hl)

/-! ## What a loop comes to -/

section Each

variable {op op' : α → υ → Logged (Attempt υ ε)} {out : α → Except ε Unit}

theorem outcome_each_cons (a : α) (l : List α) (u : υ) :
    (each op (a :: l) u).value.outcome = (op a u).value.outcome >>= fun _ =>
      (each op l (op a u).value.after).value.outcome := by
  rw [each, Logged.value_bind]
  cases h : (op a u).value.outcome with
  | ok _ => rfl
  | error e => exact h

theorem outcome_each_eq_ok_iff (hout : ∀ a u, (op a u).value.outcome = out a) {l : List α} {u : υ} :
    (each op l u).value.outcome = .ok () ↔ ∀ a ∈ l, out a = .ok () := by
  induction l generalizing u with
  | nil => simp [each, done]
  | cons a l ih =>
    rw [outcome_each_cons, hout, List.forall_mem_cons]
    cases out a with
    | ok _ => exact ih.trans (and_iff_right rfl).symm
    | error e => exact iff_of_false nofun fun h => nomatch h.1

/-- A loop fails with the error of the first element that fails. -/
theorem outcome_each_eq_error_iff (hout : ∀ a u, (op a u).value.outcome = out a) {l : List α}
    {u : υ} {e : ε} :
    (each op l u).value.outcome = .error e ↔ ∃ a ∈ reached out l, out a = .error e := by
  induction l generalizing u with
  | nil => simp [each, done, reached]
  | cons a l ih =>
    rw [outcome_each_cons, hout, reached, List.exists_mem_cons_iff]
    cases ha : out a with
    | ok _ => exact ih.trans (or_iff_right nofun).symm
    | error e' =>
      show (Except.error e' : Except ε Unit) = .error e ↔ _
      simp

/-- A loop leaves what a plain loop over the elements leaves that it reaches, and tells as much. -/
theorem after_each (hout : ∀ a u, (op a u).value.outcome = out a) (l : List α) (u : υ) :
    after <$> each op l u =
      (reached out l).foldlM (fun u a => after <$> op a u) u := by
  induction l generalizing u with
  | nil => rfl
  | cons a l ih =>
    rw [each, reached, List.foldlM_cons, map_bind, bind_map_left]
    refine Logged.bind_congr_value ?_
    rw [hout]
    cases out a with
    | ok _ => exact ih _
    | error e => rfl

theorem each_map (f : β → α) (l : List β) (u : υ) :
    each op (l.map f) u = each (fun b => op (f b)) l u := by
  induction l generalizing u with
  | nil => rfl
  | cons b l ih =>
    rw [List.map_cons, each, each]
    simp only [ih]

theorem value_each_congr (h : ∀ a u, (op a u).value = (op' a u).value) (l : List α) (u : υ) :
    (each op l u).value = (each op' l u).value := by
  induction l generalizing u with
  | nil => rfl
  | cons a l ih =>
    rw [each, each, Logged.value_bind, Logged.value_bind, h]
    cases (op' a u).value.outcome with
    | ok _ => exact ih _
    | error e => rfl

theorem each_congr {l : List α} (h : ∀ a ∈ l, ∀ u, op a u = op' a u) (u : υ) :
    each op l u = each op' l u := by
  induction l generalizing u with
  | nil => rfl
  | cons a l ih =>
    obtain ⟨ha, hl⟩ := List.forall_mem_cons.1 h
    rw [each, each, ha]
    simp only [ih hl]

theorem agree_each_append {passes : Event → Bool} (l later : List α) (u : υ) :
    (each op (l ++ later) u).Agree passes (each op l u >>= fun a => match a.outcome with
      | .ok _ => each op later a.after
      | .error _ => pure a) := by
  induction l generalizing u with
  | nil =>
    rw [each, pure_bind]
    exact .refl _
  | cons a l ih =>
    rw [List.cons_append, each, each, bind_assoc]
    refine (Logged.Agree.refl _).bind fun first => ?_
    cases h : first.outcome with
    | ok _ => exact ih first.after
    | error e =>
      rw [pure_bind, h]
      exact .refl _

/-- A loop of loops is one loop. -/
theorem agree_each_flatMap {passes : Event → Bool} {op' : β → υ → Logged (Attempt υ ε)}
    {parts : β → List α} (h : ∀ b u, (op' b u).Agree passes (each op (parts b) u)) (l : List β)
    (u : υ) : (each op' l u).Agree passes (each op (l.flatMap parts) u) := by
  induction l generalizing u with
  | nil => exact .refl _
  | cons b l ih =>
    have hparts : (each op (parts b ++ l.flatMap parts) u).Agree passes _ :=
      agree_each_append (parts b) (l.flatMap parts) u
    have hloop : (each op' (b :: l) u).Agree passes (each op (parts b) u >>= fun a =>
        match a.outcome with
        | .ok _ => each op (l.flatMap parts) a.after
        | .error _ => pure a) := by
      rw [each]
      refine (h b u).bind fun first => ?_
      cases first.outcome with
      | ok _ => exact ih first.after
      | error e => exact .refl _
    exact ⟨hloop.value.trans hparts.value.symm, hloop.events.trans hparts.events.symm⟩

end Each

end Mib.Attempt

/-! ## Loops that remember their complaints -/

namespace Once

variable {α υ κ : Type} [DecidableEq κ]

theorem tellNew_append (m : Once κ) (l later : List (κ × Event)) :
    (m.tellNew (l ++ later)).value = ((m.tellNew l).value.tellNew later).value := by
  induction l generalizing m with
  | nil => rfl
  | cons c rest ih =>
    rw [List.cons_append, tellNew, tellNew]
    split
    · exact ih m
    · exact ih _

/-- Where every step remembers its complaints and tells the new ones, so does the loop. -/
theorem told_foldlM {op : υ → α → Logged υ} (memory : υ → Once κ)
    (complaints : α → List (κ × Event)) {passes : Event → Bool}
    (hmemory : ∀ u a, memory (op u a).value = ((memory u).tellNew (complaints a)).value)
    (hevents : ∀ u a, (op u a).events.filter passes =
      (((memory u).news (complaints a)).map Prod.snd).filter passes) (l : List α) (u : υ) :
    memory (l.foldlM op u).value = ((memory u).tellNew (l.flatMap complaints)).value ∧
      (l.foldlM op u).events.filter passes =
        (((memory u).news (l.flatMap complaints)).map Prod.snd).filter passes := by
  induction l generalizing u with
  | nil => exact ⟨rfl, rfl⟩
  | cons a l ih =>
    obtain ⟨hvalue, htold⟩ := ih (op u a).value
    rw [List.foldlM_cons, Logged.value_bind, Logged.events_bind, List.flatMap_cons,
      tellNew_append, news_append, List.map_append, List.filter_append, List.filter_append, hevents,
      htold, hvalue, hmemory]
    exact ⟨rfl, rfl⟩

end Once

end SwitchMib
