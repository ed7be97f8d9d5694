/-!
# Orders on keys

Every table of the agent is walked in the order of its keys, so the order is part of the meaning
of a key type.

* `KeyOrder`: a strict total order, given by the test `before`.
* `lexBefore`: the order on lists that compares element by element, a proper initial segment
  coming first. Sub-identifiers and texts are ordered by it.
* `KeyOrder.compare`: the three-way form of the same order.
-/

namespace SwitchMib
set_option autoImplicit false

/-- A strict total order on keys, given by a test. -/
class KeyOrder (κ : Type) where
  /-- `before a b` says that `a` comes strictly before `b`. -/
  before : κ → κ → Bool
  irrefl : ∀ a : κ, before a a = false
  trans : ∀ {a b c : κ}, before a b = true → before b c = true → before a c = true
  connex : ∀ {a b : κ}, before a b = false → before b a = false → a = b

namespace KeyOrder

variable {κ : Type} [KeyOrder κ]

/-- Two keys are the same when neither comes before the other. -/
def same (a b : κ) : Bool := !before a b && !before b a

def compare (a b : κ) : Ordering :=
  if before a b then .lt else if before b a then .gt else .eq

theorem asymm {a b : κ} (h : before a b = true) : before b a = false := by
  cases hb : before b a with
  | false => rfl
  | true => exact absurd (trans h hb) (by simp [irrefl])

@[simp] theorem same_iff {a b : κ} : same a b = true ↔ a = b := by
  constructor
  · intro h
    simp only [same, Bool.and_eq_true, Bool.not_eq_true'] at h
    exact connex h.1 h.2
  · rintro rfl
    simp [same, irrefl]

theorem same_self (a : κ) : same a a = true := same_iff.2 rfl

theorem same_eq_false_iff {a b : κ} : same a b = false ↔ a ≠ b := by
  rw [← Bool.not_eq_true, same_iff]

theorem ne_of_before {a b : κ} (h : before a b = true) : a ≠ b := by
  rintro rfl
  simp [irrefl] at h

theorem before_of_not_before_of_ne {a b : κ} (h : before b a = false) (hne : a ≠ b) :
    before a b = true := by
  cases hab : before a b with
  | true => rfl
  | false => exact absurd (connex hab h) hne

end KeyOrder

/-! ## Orders on the key types in use -/

/-- Any type that maps injectively into the natural numbers is ordered by its image. -/
@[reducible] def KeyOrder.ofNat {α : Type} (f : α → Nat) (inj : ∀ {a b : α}, f a = f b → a = b) :
    KeyOrder α where
  before a b := decide (f a < f b)
  irrefl a := by simp
  trans h1 h2 := by simp only [decide_eq_true_eq] at *; omega
  connex h1 h2 := by simp only [decide_eq_false_iff_not] at *; exact inj (by omega)

instance : KeyOrder Nat := KeyOrder.ofNat id fun h => h

instance : KeyOrder UInt8 := KeyOrder.ofNat UInt8.toNat fun h => UInt8.toNat_inj.1 h

instance : KeyOrder UInt16 := KeyOrder.ofNat UInt16.toNat fun h => UInt16.toNat_inj.1 h

instance : KeyOrder UInt32 := KeyOrder.ofNat UInt32.toNat fun h => UInt32.toNat_inj.1 h

instance : KeyOrder Char := KeyOrder.ofNat Char.toNat fun h => Char.toNat_inj.1 h

/-- Element by element; a proper initial segment comes first. -/
def lexBefore {α : Type} [KeyOrder α] : List α → List α → Bool
  | _, [] => false
  | [], _ :: _ => true
  | a :: as, b :: bs =>
    KeyOrder.before a b || (!KeyOrder.before b a && lexBefore as bs)

section Lex

variable {α : Type} [KeyOrder α]

@[simp] theorem lexBefore_nil_right (as : List α) : lexBefore as [] = false := by
  cases as <;> rfl

@[simp] theorem lexBefore_nil_cons (b : α) (bs : List α) : lexBefore [] (b :: bs) = true := rfl

theorem lexBefore_cons_cons (a b : α) (as bs : List α) :
    lexBefore (a :: as) (b :: bs) =
      (KeyOrder.before a b || (!KeyOrder.before b a && lexBefore as bs)) := rfl

@[simp] theorem lexBefore_cons_self (a : α) (as bs : List α) :
    lexBefore (a :: as) (a :: bs) = lexBefore as bs := by
  simp [lexBefore_cons_cons, KeyOrder.irrefl]

theorem lexBefore_cons_iff {a b : α} {as bs : List α} :
    lexBefore (a :: as) (b :: bs) = true ↔
      KeyOrder.before a b = true ∨ (a = b ∧ lexBefore as bs = true) := by
  rw [lexBefore_cons_cons, Bool.or_eq_true, Bool.and_eq_true, Bool.not_eq_true']
  constructor
  · rintro (h | ⟨h, hs⟩)
    · exact Or.inl h
    · cases hab : KeyOrder.before a b with
      | true => exact Or.inl rfl
      | false => exact Or.inr ⟨KeyOrder.connex hab h, hs⟩
  · rintro (h | ⟨rfl, hs⟩)
    · exact Or.inl h
    · exact Or.inr ⟨KeyOrder.irrefl a, hs⟩

theorem lexBefore_irrefl (as : List α) : lexBefore as as = false := by
  induction as with
  | nil => rfl
  | cons a as ih => simpa using ih

theorem lexBefore_trans : ∀ {as bs cs : List α},
    lexBefore as bs = true → lexBefore bs cs = true → lexBefore as cs = true
  | _, _, [], _, h => by simp at h
  | _, [], _ :: _, h, _ => by simp at h
  | [], _ :: _, _ :: _, _, _ => rfl
  | a :: as, b :: bs, c :: cs, h1, h2 => by
    rw [lexBefore_cons_iff] at h1 h2 ⊢
    rcases h1 with h1 | ⟨rfl, h1⟩
    · rcases h2 with h2 | ⟨rfl, _⟩
      · exact Or.inl (KeyOrder.trans h1 h2)
      · exact Or.inl h1
    · rcases h2 with h2 | ⟨rfl, h2⟩
      · exact Or.inl h2
      · exact Or.inr ⟨rfl, lexBefore_trans h1 h2⟩

theorem lexBefore_connex : ∀ {as bs : List α},
    lexBefore as bs = false → lexBefore bs as = false → as = bs
  | [], [], _, _ => rfl
  | [], _ :: _, h, _ => by simp at h
  | _ :: _, [], _, h => by simp at h
  | a :: as, b :: bs, h1, h2 => by
    rw [lexBefore_cons_cons, Bool.or_eq_false_iff] at h1 h2
    have hab : a = b := KeyOrder.connex h1.1 h2.1
    subst hab
    simp only [KeyOrder.irrefl, Bool.not_false, Bool.true_and, true_and] at h1 h2
    rw [lexBefore_connex h1 h2]

instance : KeyOrder (List α) where
  before := lexBefore
  irrefl := lexBefore_irrefl
  trans := lexBefore_trans
  connex := lexBefore_connex

theorem before_list_eq (as bs : List α) : KeyOrder.before as bs = lexBefore as bs := rfl

end Lex

instance : KeyOrder String where
  before s t := lexBefore s.toList t.toList
  irrefl s := lexBefore_irrefl s.toList
  trans := lexBefore_trans
  connex h1 h2 := String.toList_inj.1 (lexBefore_connex h1 h2)

end SwitchMib
