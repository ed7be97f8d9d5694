import SwitchMib.Proofs.Snmp.RowIndex
import SwitchMib.Proofs.Snmp.Walk

/-!
# Subtrees and columns in walk order

A walk that comes from outside a subtree has to decide whether to enter it at its start or to leave
it out. It may do so without looking at the cells, as all of them lie on one side of the walk.
Inside a table the walk goes down the columns, and the same holds of each column.

* `Oid.startsWith_eq_false_iff`, `Oid.forall_before_append_iff`: what is not below a root.
* `nextBelow_eq`: a part of a table is entered where the tree enters a table.
* `contiguous_below_root`: the identifiers below one root are contiguous.
* `nextBelow_nextCell_least`: the next cell of a table of columns over the same rows.
-/

namespace SwitchMib.Snmp
set_option autoImplicit false

open KeyOrder

/-! ## Below a root -/

namespace Oid

variable {oid top : Oid}

theorem startsWith_eq_false_iff : oid.startsWith top = false ↔ oid.below? top = none := by
  rw [← Bool.not_eq_true, startsWith_iff, ← Option.not_isSome_iff_eq_none,
    Option.isSome_iff_exists]
  simp only [below?_eq_some_iff]

/-- The root itself is the first identifier below it, so it decides for all of them. -/
theorem forall_before_append_iff :
    (∀ sub, before oid (top.append sub) = true) ↔ before oid top = true := by
  constructor
  · intro h
    have hroot := h []
    rwa [append, List.append_nil] at hroot
  · exact before_append_of_before

end Oid

/-- A part of a table is entered where the tree enters a table with that root. -/
theorem nextBelow_eq {υ : Type} [Mib υ] (u : υ) (oid : Oid) (inner : SubId → Option SubId) :
    nextBelow (Mib.top u).arcs oid.arcs inner =
      (MibTree.startIn oid u).bind fun start => (inner start).map ((Mib.top u).arcs ++ ·) := by
  unfold nextBelow MibTree.startIn Oid.below?
  cases (Mib.top u).arcs.isPrefixOf? oid.arcs with
  | some rest => rfl
  | none =>
    show (if before oid (Mib.top u) = true then _ else _) = _
    cases before oid (Mib.top u) <;> rfl

/-- What lies ahead below the root of a table is what lies ahead of the place where it is
entered. -/
theorem before_append_iff_startIn {υ : Type} [Mib υ] {u : υ} {oid : Oid} {sub : SubId}
    (hsub : sub ≠ []) :
    before oid ((Mib.top u).append sub) = true ↔
      ∃ start, MibTree.startIn oid u = some start ∧ before start sub = true := by
  cases hstart : MibTree.startIn oid u with
  | none => simp [MibTree.not_before_of_passed hstart sub]
  | some start => simp [MibTree.before_append_of_startIn hstart hsub]

/-- Taking a root off undoes putting it on, and does not change the order. What is not below a root
lies before everything below it, and that just when it lies before the root, or else after
everything below it. So a search that enters a table at its start when it comes from before the
root, and leaves the table out when it has passed the root, has the same cells ahead of it, and a
part of a table is searched in the same way. -/
theorem contiguous_below_root (top oid : Oid) :
    (∀ sub, oid.below? top = some sub ↔ oid = top.append sub) ∧
    (∀ a b, before (top.append a) (top.append b) = true ↔ before a b = true) ∧
    (oid.startsWith top = false →
      ((∀ sub, before oid (top.append sub) = true) ∨ ∀ sub, before (top.append sub) oid = true) ∧
      ((∀ sub, before oid (top.append sub) = true) ↔ before oid top = true)) ∧
    ∀ (υ : Type) [Mib υ] (u : υ), Mib.top u = top →
      (∀ sub ≠ [], before oid (top.append sub) = true ↔
        ∃ start, MibTree.startIn oid u = some start ∧ before start sub = true) ∧
      ∀ inner, nextBelow top.arcs oid.arcs inner =
        (MibTree.startIn oid u).bind fun start => (inner start).map (top.arcs ++ ·) := by
  refine ⟨fun sub => Oid.below?_eq_some_iff, fun a b => by rw [Oid.before_append_append],
    fun houtside => ⟨?_, Oid.forall_before_append_iff⟩, ?_⟩
  · have hbelow := Oid.startsWith_eq_false_iff.1 houtside
    cases hbefore : before oid top with
    | true => exact .inl (Oid.before_append_of_before hbefore)
    | false => exact .inr (Oid.append_before_of_not_before hbelow hbefore)
  · rintro υ _ u rfl
    exact ⟨fun sub hsub => before_append_iff_startIn hsub, nextBelow_eq u oid⟩

/-- The parent of a root lies before everything below it, and the next root after everything. -/
theorem contiguous_below_routes :
    let top := Mib.Routes.top
    let parent : Oid := ⟨[1, 3, 6, 1, 2, 1, 4, 24]⟩
    let beyond : Oid := ⟨[1, 3, 6, 1, 2, 1, 4, 24, 5]⟩
    let table : Mib.Updater := .routes MibTree.routesOfOne
    parent.startsWith top = false ∧ beyond.startsWith top = false ∧ Mib.top table = top ∧
      (∀ sub, before parent (top.append sub) = true) ∧
      (∀ sub, before (top.append sub) beyond = true) ∧
      (∃ start, MibTree.startIn parent table = some start ∧ before start [1] = true) ∧
      MibTree.startIn beyond table = none := by
  intro top parent beyond table
  have hparent : parent.startsWith top = false := by decide
  have hbeyond : beyond.startsWith top = false := by decide
  obtain ⟨-, -, hsides, hstart⟩ := contiguous_below_root top parent
  obtain ⟨-, -, hsides', -⟩ := contiguous_below_root top beyond
  have hahead : ∀ sub, before parent (top.append sub) = true := (hsides hparent).2.2 (by decide)
  have hbehind : ¬ ∀ sub, before beyond (top.append sub) = true :=
    fun hall => absurd ((hsides' hbeyond).2.1 hall) (by decide)
  have hone : ([1] : SubId) ≠ [] := List.cons_ne_nil _ _
  exact ⟨hparent, hbeyond, rfl, hahead, (hsides' hbeyond).1.resolve_left hbehind,
    ((hstart Mib.Updater table rfl).1 [1] hone).1 (hahead [1]), by decide⟩

/-! ## Down the columns -/

/-- The least cell strictly above any sub-identifier, whether that is inside the part below the
leading arcs, before it or past it, is the one that a walk goes to, and a walk ends just when there
is none. Columns and rows are in order, and rows may be of any lengths. Searching the rows by halving
finds the same row. -/
theorem nextBelow_nextCell_least (lead : List UInt32) {columns : List UInt32} {rows : List SubId}
    (hcolumns : InOrder columns) (hrows : InOrder rows) (sub : SubId) :
    let IsCell (s : SubId) : Prop := ∃ c ∈ columns, ∃ r ∈ rows, s = lead ++ [c] ++ r
    (∀ s, nextBelow lead sub (nextCell columns rows) = some s ↔
      IsCell s ∧ before sub s = true ∧
        ∀ other, IsCell other → before sub other = true → other = s ∨ before s other = true) ∧
    (nextBelow lead sub (nextCell columns rows) = none ↔
      ∀ s, IsCell s → before sub s = false) ∧
    nextBelow [] sub (nextCell columns rows) = nextCell columns rows sub ∧
    ∀ rest, rowAbove? rows rest = rows[partitionPoint (fun row => !before rest row) rows]? := by
  intro IsCell
  have hcell : ∀ s, (∃ t, t ∈ cells columns rows ∧ s = lead ++ t) ↔ IsCell s := by
    intro s
    simp only [mem_cells_iff, IsCell, List.append_assoc, List.singleton_append]
    constructor
    · rintro ⟨_, ⟨c, hc, r, hr, rfl⟩, rfl⟩
      exact ⟨c, hc, r, hr, rfl⟩
    · rintro ⟨c, hc, r, hr, rfl⟩
      exact ⟨_, ⟨c, hc, r, hr, rfl⟩, rfl⟩
  have hnil : [] ∉ cells columns rows := by
    intro hmem
    obtain ⟨_, _, _, _, hcons⟩ := mem_cells_iff.1 hmem
    cases hcons
  have hleast : IsSuccessor IsCell sub (nextBelow lead sub (nextCell columns rows)) :=
    (nextBelow_isSuccessor lead hnil (nextCell_isSuccessor hcolumns hrows) sub).congr
      fun s _ => hcell s
  refine ⟨fun s => hleast.eq_some_iff, hleast.eq_none_iff, ?_,
    fun rest => (hrows.getElem?_partitionPoint rest).symm⟩
  show (nextCell columns rows sub).map ([] ++ ·) = _
  simp

/-- Two columns over rows of three lengths, below two arcs: the walk enters the part from before
it, goes down a column, passes from the last row of a column to the next column, and ends. -/
theorem nextBelow_nextCell_least_of_three_rows :
    let columns : List UInt32 := [1, 7]
    let rows : List SubId := [[], [1], [1, 4]]
    let next (sub : SubId) : Option SubId := nextBelow [2, 1] sub (nextCell columns rows)
    InOrder columns ∧ InOrder rows ∧ next [] = some [2, 1, 1] ∧ next [2] = some [2, 1, 1] ∧
      next [2, 1, 1, 1] = some [2, 1, 1, 1, 4] ∧ next [2, 1, 1, 9] = some [2, 1, 7] ∧
      next [2, 1, 7, 1, 4] = none ∧ next [2, 2] = none ∧
      ∀ c ∈ columns, ∀ r ∈ rows, before [2, 2] ([2, 1] ++ [c] ++ r) = false := by
  intro columns rows next
  have hcolumns : InOrder columns := by unfold InOrder; decide
  have hrows : InOrder rows := by unfold InOrder; decide
  have hpast : next [2, 2] = none := by decide
  obtain ⟨-, hnone, -, -⟩ := nextBelow_nextCell_least [2, 1] hcolumns hrows [2, 2]
  exact ⟨hcolumns, hrows, by decide, by decide, by decide, by decide, by decide, hpast,
    fun c hc r hr => hnone.1 hpast _ ⟨c, hc, r, hr, rfl⟩⟩

end SwitchMib.Snmp
