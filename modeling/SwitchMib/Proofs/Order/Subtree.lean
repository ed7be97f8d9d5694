import Mathlib.Data.List.Basic
import SwitchMib.Proofs.Order.Successor
import SwitchMib.Snmp.Cell

/-!
# Subtrees in walk order

The identifiers below one root are contiguous: whatever is not below the root comes either before
all of them or after all of them. A walk may therefore enter a subtree at its start when it comes
from before the root, and leave it out when it has passed the root.

* `before_append`, `before_append_of_before`, `append_before_of_not_before`: lists of arcs and
  their extensions.
* `Oid.below?_eq_some_iff`: taking a root off undoes putting it on.
* `nextBelow_isSuccessor`: the successor in a part of a table that lies below leading arcs.
* `nextCell_isSuccessor`: the successor in a table of columns over the same rows.
-/

namespace SwitchMib
set_option autoImplicit false

open KeyOrder

/-! ## Lists and their extensions -/

section Lists

variable {α : Type} [KeyOrder α]

theorem before_cons_iff {a b : α} {as bs : List α} :
    before (a :: as) (b :: bs) = true ↔ before a b = true ∨ (a = b ∧ before as bs = true) :=
  lexBefore_cons_iff

@[simp] theorem before_cons_self (a : α) (as bs : List α) :
    before (a :: as) (a :: bs) = before as bs := lexBefore_cons_self a as bs

@[simp] theorem before_append (p a b : List α) : before (p ++ a) (p ++ b) = before a b := by
  induction p with
  | nil => rfl
  | cons x p ih =>
    rw [List.cons_append, List.cons_append, before_cons_self]
    exact ih

@[simp] theorem before_nil_right (s : List α) : before s [] = false := lexBefore_nil_right s

theorem before_nil_left {s : List α} : before [] s = true ↔ s ≠ [] := by
  cases s with
  | nil => simp
  | cons a s => simp [before_list_eq]

theorem before_append_of_before {s p : List α} (h : before s p = true) (a : List α) :
    before s (p ++ a) = true := by
  induction p generalizing s with
  | nil => simp at h
  | cons x p ih =>
    cases s with
    | nil => rfl
    | cons y s =>
      rw [List.cons_append, before_cons_iff]
      rcases before_cons_iff.1 h with hyx | ⟨rfl, hs⟩
      · exact Or.inl hyx
      · exact Or.inr ⟨rfl, ih hs⟩

/-- What neither extends `p` nor comes before it comes after every extension of `p`. -/
theorem append_before_of_not_before {p s : List α} (hp : ∀ a, p ++ a ≠ s)
    (hs : before s p = false) (a : List α) : before (p ++ a) s = true := by
  induction p generalizing s with
  | nil => exact absurd rfl (hp s)
  | cons x p ih =>
    cases s with
    | nil => simp [before_list_eq] at hs
    | cons y s =>
      rw [List.cons_append, before_cons_iff]
      rw [before_list_eq, lexBefore_cons_cons, Bool.or_eq_false_iff] at hs
      by_cases hxy : x = y
      · subst hxy
        simp only [KeyOrder.irrefl, Bool.not_false, Bool.true_and] at hs
        have hp' : ∀ a, p ++ a ≠ s := fun a he => hp a (congrArg (x :: ·) he)
        exact Or.inr ⟨rfl, ih hp' hs.2⟩
      · exact Or.inl (before_of_not_before_of_ne hs.1 hxy)

end Lists

theorem append_ne_of_isPrefixOf?_eq_none {α : Type} [BEq α] [LawfulBEq α] {p s : List α}
    (h : p.isPrefixOf? s = none) (a : List α) : p ++ a ≠ s := by
  intro he
  rw [List.isPrefixOf?_eq_some_iff_append_eq.2 he] at h
  cases h

namespace Snmp

/-! ## Identifiers below a root -/

namespace Oid

theorem below?_eq_some_iff {oid top : Oid} {sub : SubId} :
    oid.below? top = some sub ↔ oid = top.append sub := by
  cases oid
  cases top
  rw [below?, List.isPrefixOf?_eq_some_iff_append_eq, append, Oid.mk.injEq, eq_comm]

@[simp] theorem below?_append (top : Oid) (sub : SubId) : (top.append sub).below? top = some sub :=
  below?_eq_some_iff.2 rfl

@[simp] theorem before_append_append (top : Oid) (a b : SubId) :
    before (top.append a) (top.append b) = before a b := before_append top.arcs a b

theorem before_append_of_before {oid top : Oid} (h : before oid top = true) (sub : SubId) :
    before oid (top.append sub) = true := SwitchMib.before_append_of_before h sub

theorem append_before_of_not_before {oid top : Oid} (hb : oid.below? top = none)
    (h : before oid top = false) (sub : SubId) : before (top.append sub) oid = true :=
  SwitchMib.append_before_of_not_before (append_ne_of_isPrefixOf?_eq_none hb) h sub

end Oid

/-! ## Cells below leading arcs -/

/-- A walk of a part below `lead` answers for the whole part, wherever it starts. -/
theorem nextBelow_isSuccessor {P : SubId → Prop} {inner : SubId → Option SubId}
    (lead : List UInt32) (hnil : ¬ P []) (hinner : ∀ sub, IsSuccessor P sub (inner sub))
    (sub : SubId) :
    IsSuccessor (fun s => ∃ t, P t ∧ s = lead ++ t) sub (nextBelow lead sub inner) := by
  rw [nextBelow]
  cases hp : lead.isPrefixOf? sub with
  | some rest =>
    rw [List.isPrefixOf?_eq_some_iff_append_eq] at hp
    subst hp
    exact (hinner rest).map (before_append lead)
  | none =>
    cases hs : before sub lead with
    | true =>
      -- all of the part lies ahead, so the walk may as well come from just before its start
      have hstart := (hinner []).map (f := (lead ++ ·)) (before_append lead)
      refine hstart.of_start ?_
      rintro s ⟨t, ht, rfl⟩
      have ht' : before [] t = true := before_nil_left.2 fun e => hnil (e ▸ ht)
      rw [before_append_of_before hs t, before_append, ht']
    | false =>
      simp only [Bool.false_eq_true, if_false]
      rintro s ⟨t, _, rfl⟩
      exact KeyOrder.asymm (append_before_of_not_before (append_ne_of_isPrefixOf?_eq_none hp) hs t)

/-! ## Columns over the same rows -/

theorem mem_cells_iff {columns : List UInt32} {rows : List SubId} {s : SubId} :
    s ∈ cells columns rows ↔ ∃ c ∈ columns, ∃ r ∈ rows, s = c :: r := by
  simp only [cells, List.mem_flatMap, List.mem_map, eq_comm]

theorem mem_cells_cons {c : UInt32} {columns : List UInt32} {rows : List SubId} {s : SubId} :
    s ∈ cells (c :: columns) rows ↔ (∃ r, r ∈ rows ∧ s = c :: r) ∨ s ∈ cells columns rows := by
  simp only [mem_cells_iff, List.mem_cons, exists_eq_or_imp]

theorem rowAbove?_isSuccessor {rows : List SubId} (hrows : InOrder rows) (column : UInt32)
    (rest : SubId) :
    IsSuccessor (fun s => ∃ r, r ∈ rows ∧ s = column :: r) (column :: rest)
      ((rowAbove? rows rest).map (column :: ·)) :=
  (isSuccessor_find? hrows rest).map (f := (column :: ·)) (before_cons_self column)

theorem not_before_first_cell {c : UInt32} {columns : List UInt32} {first : SubId}
    {rows : List SubId} (hc : InOrder (c :: columns)) (hr : InOrder (first :: rows))
    {s : SubId} (hs : s ∈ cells (c :: columns) (first :: rows)) :
    before s (c :: first) = false := by
  obtain ⟨d, hd, r, hrow, rfl⟩ := mem_cells_iff.1 hs
  refine Bool.eq_false_iff.2 fun hbefore => ?_
  rcases before_cons_iff.1 hbefore with hdc | ⟨-, hfirst⟩
  · rw [hc.not_before_head d hd] at hdc
    cases hdc
  · rw [hr.not_before_head r hrow] at hfirst
    cases hfirst

/-- The cell after a sub-identifier is the least one above it. -/
theorem nextCell_isSuccessor {columns : List UInt32} {rows : List SubId}
    (hcolumns : InOrder columns) (hrows : InOrder rows) (sub : SubId) :
    IsSuccessor (· ∈ cells columns rows) sub (nextCell columns rows sub) := by
  cases rows with
  | nil =>
    refine IsSuccessor.none_of_forall fun s hs => ?_
    obtain ⟨_, _, _, hr, _⟩ := mem_cells_iff.1 hs
    exact List.not_mem_nil hr
  | cons first rows =>
    cases sub with
    | nil =>
      cases columns with
      | nil => exact IsSuccessor.none_of_forall fun s hs => by simp [cells] at hs
      | cons c columns =>
        refine ⟨mem_cells_iff.2 ⟨c, by simp, first, by simp, rfl⟩, rfl, fun s hs _ => ?_⟩
        exact not_before_first_cell hcolumns hrows hs
    | cons current rest =>
      rw [nextCell]
      -- each column is above, at or below the arc that the walk has reached
      induction columns with
      | nil => exact IsSuccessor.none_of_forall fun s hs => by simp [cells] at hs
      | cons c columns ih =>
        rw [List.findSome?_cons]
        have hlater := ih hcolumns.tail
        cases hcc : before current c with
        | true =>
          simp only [if_true]
          refine ⟨mem_cells_iff.2 ⟨c, by simp, first, by simp, rfl⟩,
            before_cons_iff.2 (Or.inl hcc), fun s hs _ => ?_⟩
          exact not_before_first_cell hcolumns hrows hs
        | false =>
          simp only [Bool.false_eq_true, if_false]
          by_cases hce : c = current
          · subst hce
            rw [if_pos rfl]
            have hhere := rowAbove?_isSuccessor hrows c rest
            cases hrow : (rowAbove? (first :: rows) rest).map (c :: ·) with
            | some s =>
              rw [hrow] at hhere
              refine (hhere.or_left (Q := (· ∈ cells columns (first :: rows))) ?_).congr
                fun j _ => mem_cells_cons.symm
              intro j hj habove
              obtain ⟨d, hd, r, hr, rfl⟩ := mem_cells_iff.1 hj
              by_cases hdc : d = c
              · -- the column is repeated
                exact hhere.2.2 (d :: r) ⟨r, hr, by rw [hdc]⟩ habove
              · obtain ⟨r', _, rfl⟩ := hhere.1
                have hnot := hcolumns.not_before_head d (List.mem_cons_of_mem c hd)
                have hcd := before_of_not_before_of_ne hnot (Ne.symm hdc)
                exact KeyOrder.asymm (before_cons_iff.2 (Or.inl hcd))
            | none =>
              rw [hrow] at hhere
              exact (hhere.or_right hlater).congr fun j _ => mem_cells_cons.symm
          · rw [if_neg hce]
            have hpassed : IsSuccessor (fun s => ∃ r, r ∈ first :: rows ∧ s = c :: r)
                (current :: rest) none := by
              rintro s ⟨r, _, rfl⟩
              exact KeyOrder.asymm (before_cons_iff.2 (Or.inl (before_of_not_before_of_ne hcc hce)))
            exact (hpassed.or_right hlater).congr fun j _ => mem_cells_cons.symm

end Snmp

end SwitchMib
