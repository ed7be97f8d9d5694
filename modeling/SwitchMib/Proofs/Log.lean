import SwitchMib.Mib.Attempt

/-!
# Results without their messages

What is told on the way never decides what is computed. A logged loop has the value of the same
loop without messages, and a load has an outcome of its own.

* `Logged.value_foldlM`, `Logged.value_mapM`: the values of logged loops.
* `Logged.foldlM_induction`, `Load.foldlM_induction`: what every step of a loop keeps, the loop
  keeps.
* `Load.outcome_return`: the outcome of a load with its result changed.
* `Load.outcome_foldlM_eq_error_iff`: a loop of loads fails with the error of its first step that
  fails.
* `Load.outcome_foldlM_filter`: steps that do nothing can be left out of a loop of loads.
* `Load.eq_foldl_of_outcome`, `Load.exists_merged_of_outcome`: what a loop of loads has put together
  when it is through.
* `Attempt.table_eq_ok_iff`: a table is there after a success only.
-/

namespace SwitchMib
set_option autoImplicit false

variable {α β ε : Type}

namespace Logged

@[simp] theorem value_map (f : α → β) (x : Logged α) : (f <$> x).value = f x.value := rfl

@[simp] theorem events_map (f : α → β) (x : Logged α) : (f <$> x).events = x.events :=
  List.append_nil x.events

@[simp] theorem value_foldlM (f : β → α → Logged β) (b : β) (l : List α) :
    (l.foldlM f b).value = l.foldl (fun b a => (f b a).value) b := by
  induction l generalizing b with
  | nil => rfl
  | cons a l ih =>
    rw [List.foldlM_cons, value_bind, List.foldl_cons]
    exact ih _

@[simp] theorem value_mapM (f : α → Logged β) (l : List α) :
    (l.mapM f).value = l.map fun a => (f a).value := by
  induction l with
  | nil => rfl
  | cons a l ih =>
    rw [List.mapM_cons, value_bind, value_bind, value_pure, ih, List.map_cons]

/-- What every step of a loop keeps, the loop keeps. -/
theorem foldlM_induction {P : β → Prop} {f : β → α → Logged β} {l : List α} {b : β} (hb : P b)
    (hf : ∀ b, P b → ∀ a ∈ l, P (f b a).value) : P (l.foldlM f b).value := by
  rw [value_foldlM]
  exact List.foldlRecOn l _ hb hf

end Logged

theorem toOption_eq_some_iff {x : Except ε α} {a : α} :
    x.toOption = some a ↔ x = .ok a := by
  cases x <;> simp [Except.toOption]

theorem exists_eq_ok_of_isOk {x : Except ε α} (h : x.isOk = true) :
    ∃ a, x = .ok a := by
  cases x with
  | error e => cases h
  | ok a => exact ⟨a, rfl⟩

theorem exists_eq_ok_of_map {x : Except ε α} {f : α → β} {b : β}
    (h : x.map f = .ok b) : ∃ a, x = .ok a ∧ f a = b := by
  cases x with
  | error e => cases h
  | ok a => exact ⟨a, rfl, Except.ok.inj h⟩

theorem exists_map_eq_ok_iff {x : Except ε α} {f : α → β} :
    (∃ b, x.map f = .ok b) ↔ ∃ a, x = .ok a := by
  cases x <;> simp [Except.map]

theorem eq_error_of_map {x : Except ε α} {f : α → β} {e : ε}
    (h : x.map f = .error e) : x = .error e := by
  cases x with
  | error e' => rw [Except.error.inj h]
  | ok a => cases h

theorem map_eq_error_iff {x : Except ε α} {f : α → β} {e : ε} :
    x.map f = .error e ↔ x = .error e :=
  ⟨eq_error_of_map, fun h => h ▸ rfl⟩

theorem mapError_eq_ok_iff {ω : Type} {x : Except ε α} {f : ε → ω} {a : α} :
    x.mapError f = .ok a ↔ x = .ok a := by
  cases x with
  | error e => exact iff_of_false nofun nofun
  | ok a' =>
    constructor
    · exact fun h => congrArg Except.ok (Except.ok.inj h)
    · exact fun h => congrArg Except.ok (Except.ok.inj h)

theorem mapError_eq_error_iff {ω : Type} {x : Except ε α} {f : ε → ω} {e : ω} :
    x.mapError f = .error e ↔ ∃ cause, x = .error cause ∧ f cause = e := by
  constructor
  · intro h
    cases x with
    | error cause => exact ⟨cause, rfl, Except.error.inj h⟩
    | ok a => cases h
  · rintro ⟨cause, rfl, rfl⟩
    rfl

theorem map_mapError {ω : Type} (x : Except ε α) (f : ε → ω) (g : α → β) :
    (x.mapError f).map g = (x.map g).mapError f := by
  cases x <;> rfl

namespace Load

theorem outcome_return (x : Load ε α) (f : α → β) :
    (do return f (← x) : Load ε β).outcome = x.outcome.map f := by
  rw [outcome_bind]
  cases x.outcome <;> rfl

theorem outcome_lift_eq_ok_iff {x : Load AgentError α} {a : α} :
    x.lift.outcome = .ok a ↔ x.outcome = .ok a := mapError_eq_ok_iff

theorem outcome_bind_eq_ok_iff {x : Load ε α} {f : α → Load ε β} {b : β} :
    (x >>= f).outcome = .ok b ↔ ∃ a, x.outcome = .ok a ∧ (f a).outcome = .ok b := by
  rw [outcome_bind]
  cases x.outcome with
  | error e =>
    constructor
    · intro h
      cases h
    · rintro ⟨_, ha, -⟩
      cases ha
  | ok a =>
    constructor
    · exact fun h => ⟨a, rfl, h⟩
    · rintro ⟨_, ha, h⟩
      cases ha
      exact h

theorem outcome_bind_eq_error_iff {x : Load ε α} {f : α → Load ε β} {e : ε} :
    (x >>= f).outcome = .error e ↔
      x.outcome = .error e ∨ ∃ a, x.outcome = .ok a ∧ (f a).outcome = .error e := by
  rw [outcome_bind]
  cases x.outcome with
  | error e' =>
    show (Except.error e' : Except ε β) = .error e ↔ _
    simp
  | ok a =>
    show (f a).outcome = .error e ↔ _
    simp

theorem outcome_foldlM_eq_error_iff {f : β → α → Load ε β} {l : List α} {b : β} {e : ε} :
    (l.foldlM f b).outcome = .error e ↔
      ∃ earlier a later c, l = earlier ++ a :: later ∧ (earlier.foldlM f b).outcome = .ok c ∧
        (f c a).outcome = .error e := by
  induction l generalizing b with
  | nil => simp
  | cons a l ih =>
    rw [List.foldlM_cons, outcome_bind_eq_error_iff]
    constructor
    · rintro (ha | ⟨d, hd, hrest⟩)
      · exact ⟨[], a, l, b, rfl, rfl, ha⟩
      · obtain ⟨earlier, x, later, c, rfl, hc, hx⟩ := ih.1 hrest
        refine ⟨a :: earlier, x, later, c, rfl, ?_, hx⟩
        rw [List.foldlM_cons]
        exact outcome_bind_eq_ok_iff.2 ⟨d, hd, hc⟩
    · rintro ⟨_ | ⟨y, earlier⟩, x, later, c, hl, hc, hx⟩
      · obtain ⟨rfl, -⟩ := List.cons.inj hl
        obtain rfl : b = c := Except.ok.inj hc
        exact .inl hx
      · obtain ⟨rfl, rfl⟩ := List.cons.inj hl
        rw [List.foldlM_cons] at hc
        obtain ⟨d, hd, hc⟩ := outcome_bind_eq_ok_iff.1 hc
        exact .inr ⟨d, hd, ih.2 ⟨earlier, x, later, c, rfl, hc, hx⟩⟩

/-- Steps that do nothing can be left out of a loop. -/
theorem outcome_foldlM_filter {f : β → α → Load ε β} {keep : α → Bool} {l : List α}
    (h : ∀ a ∈ l, keep a = false → ∀ b, (f b a).outcome = .ok b) (b : β) :
    ((l.filter keep).foldlM f b).outcome = (l.foldlM f b).outcome := by
  induction l generalizing b with
  | nil => rfl
  | cons a l ih =>
    obtain ⟨ha, hl⟩ := List.forall_mem_cons.1 h
    rw [List.foldlM_cons, outcome_bind]
    cases hkeep : keep a with
    | true =>
      rw [List.filter_cons_of_pos hkeep, List.foldlM_cons, outcome_bind]
      exact congrArg ((f b a).outcome >>= ·) (funext fun c => ih hl c)
    | false =>
      rw [List.filter_cons_of_neg (by simp [hkeep]), ha hkeep b]
      exact ih hl b

theorem outcome_ofRead_eq_ok_iff {x : Except Store.StoreError α} {a : α} :
    (ofRead x).outcome = .ok a ↔ x = .ok a := by
  rw [ofRead, outcome_ofExcept]
  cases x with
  | error e =>
    show (Except.error (.store e) : Except AgentError α) = .ok a ↔ _
    simp
  | ok b =>
    show (Except.ok b : Except AgentError α) = .ok a ↔ _
    simp

theorem eq_foldl_of_outcome {f : β → α → Load ε β} {g : β → α → β}
    (hstep : ∀ b a c, (f b a).outcome = .ok c → c = g b a) {l : List α} {b c : β}
    (h : (l.foldlM f b).outcome = .ok c) : c = l.foldl g b := by
  induction l generalizing b with
  | nil =>
    rw [List.foldlM_nil, outcome_pure] at h
    exact (Except.ok.inj h).symm
  | cons a l ih =>
    rw [List.foldlM_cons, outcome_bind_eq_ok_iff] at h
    obtain ⟨d, hd, hrest⟩ := h
    rw [List.foldl_cons, ← hstep b a d hd]
    exact ih hrest

/-- What every step of a loop keeps, the loop keeps. -/
theorem foldlM_induction {P : β → Prop} {f : β → α → Load ε β} {l : List α} {b c : β} (hb : P b)
    (hf : ∀ b, P b → ∀ a ∈ l, ∀ c, (f b a).outcome = .ok c → P c)
    (h : (l.foldlM f b).outcome = .ok c) : P c := by
  induction l generalizing b with
  | nil =>
    rw [List.foldlM_nil, outcome_pure] at h
    exact Except.ok.inj h ▸ hb
  | cons a l ih =>
    rw [List.foldlM_cons, outcome_bind_eq_ok_iff] at h
    obtain ⟨d, hd, hrest⟩ := h
    have hkept := hf b hb a List.mem_cons_self d hd
    exact ih hkept (fun b hb a ha => hf b hb a (List.mem_cons_of_mem _ ha)) hrest

/-- A loop that merges what it loads has loaded every part when it is through. -/
theorem exists_merged_of_outcome {load : α → Load ε β} {merge : β → β → β} {l : List α}
    {start result : β}
    (h : (l.foldlM (fun acc a => do pure (merge acc (← load a))) start).outcome = .ok result) :
    ∃ part : α → β, (∀ a ∈ l, (load a).outcome = .ok (part a)) ∧
      result = (l.map part).foldl merge start := by
  obtain ⟨part, hpart⟩ : ∃ part : α → β, ∀ a b, (load a).outcome = .ok b → part a = b := by
    refine ⟨fun a => (load a).outcome.toOption.getD result, ?_⟩
    intro a b hb
    simp [hb, Except.toOption]
  refine ⟨part, ?_⟩
  induction l generalizing start with
  | nil =>
    rw [List.foldlM_nil, outcome_pure] at h
    exact ⟨fun a ha => absurd ha List.not_mem_nil, (Except.ok.inj h).symm⟩
  | cons a l ih =>
    rw [List.foldlM_cons, outcome_bind_eq_ok_iff] at h
    obtain ⟨merged, hmerged, hrest⟩ := h
    rw [outcome_bind_eq_ok_iff] at hmerged
    obtain ⟨b, hb, hmerge⟩ := hmerged
    obtain rfl : merge start b = merged := Except.ok.inj hmerge
    obtain ⟨hall, hresult⟩ := ih hrest
    obtain rfl := hpart a b hb
    exact ⟨List.forall_mem_cons.2 ⟨hb, hall⟩, hresult⟩

end Load

namespace Mib.Attempt

variable {υ ω : Type}

@[simp] theorem table_done (u : υ) : (done u : Attempt υ ε).table = .ok u := rfl

@[simp] theorem table_map (f : υ → ω) (a : Attempt υ ε) : (a.map f).table = a.table.map f := by
  cases a with
  | mk outcome after => cases outcome <;> rfl

@[simp] theorem table_lift (a : Attempt υ) : a.lift.table = a.table.mapError .error := by
  cases a with
  | mk outcome after => cases outcome <;> rfl

theorem table_eq_ok_iff {a : Attempt υ ε} {u : υ} :
    a.table = .ok u ↔ a.outcome = .ok () ∧ a.after = u := by
  cases a with
  | mk outcome after => cases outcome <;> simp [table, Except.map]

end Mib.Attempt

end SwitchMib
