import SwitchMib.Proofs.Mib.ProperRows
import SwitchMib.Proofs.Snmp.Walk

/-!
# The cells of every table

Each table finds the next cell in a way of its own: by an ordered index, column by column, column
by column below leading arcs and after a single cell, or by counting. All of them go to the least
of their cells above the given sub-identifier, whatever that is, and no cell outside them has a
value.

* `InterfaceSnapshot.next_isSuccessor`, `Sensors.next_isSuccessor`, `Power.next_isSuccessor`: the
  three tables without an index.
* `Updater.HasCell`: the cells of a table, told without their order.
* `Updater.serves_of_wellKept`: a tree can rely on every table that is well kept.
* `Session.next_hasCell_run`: so it can at every moment of the life of a table.
-/

namespace SwitchMib.Mib
set_option autoImplicit false

open KeyOrder Snmp

/-! ## Words that count from one -/

/-- The words from 1 up to a number. -/
def wordsTo (n : Nat) : List UInt32 := (List.range' 1 n).map UInt32.ofNat

theorem mem_wordsTo_iff {n : Nat} (hn : n < UInt32.size) {c : UInt32} :
    c ∈ wordsTo n ↔ 1 ≤ c.toNat ∧ c.toNat ≤ n := by
  simp only [wordsTo, List.mem_map, List.mem_range'_1]
  constructor
  · rintro ⟨i, hi, rfl⟩
    have hround : (UInt32.ofNat i).toNat = i := UInt32.toNat_ofNat_of_lt' (by omega)
    omega
  · intro hc
    exact ⟨c.toNat, by omega, UInt32.ofNat_toNat⟩

theorem before_word_iff {a b : UInt32} : before a b = true ↔ a.toNat < b.toNat :=
  decide_eq_true_iff

theorem wordsTo_ascending {n : Nat} (hn : n < UInt32.size) : Ascending (wordsTo n) := by
  rw [Ascending, wordsTo, List.pairwise_map]
  refine (List.pairwise_lt_range' (s := 1) (n := n)).imp_of_mem ?_
  intro a b ha hb hab
  rw [List.mem_range'_1] at ha hb
  have hae : (UInt32.ofNat a).toNat = a := UInt32.toNat_ofNat_of_lt' (by omega)
  have hbe : (UInt32.ofNat b).toNat = b := UInt32.toNat_ofNat_of_lt' (by omega)
  rw [before_word_iff, hae, hbe]
  exact hab

/-! ## Rows with a single arc -/

theorem before_singleton (a b : UInt32) : before [a] [b] = before a b := by
  rw [Bool.eq_iff_iff, before_cons_iff, before_nil_right]
  simp

theorem ascending_rows {ν : Type} (rows : Dict UInt32 ν) :
    Ascending (rows.keys.map fun index => [index]) := by
  rw [Ascending, List.pairwise_map]
  refine rows.keys_ascending.imp fun {a b} hab => ?_
  rw [before_singleton]
  exact hab

theorem mem_rows_iff {ν : Type} {rows : Dict UInt32 ν} {sub : SubId} :
    sub ∈ rows.keys.map (fun index => [index]) ↔
      ∃ index, sub = [index] ∧ (rows.get? index).isSome := by
  simp only [List.mem_map, Dict.mem_keys_iff, eq_comm (a := sub), and_comm]

/-! ## The interface table -/

namespace InterfaceSnapshot

theorem columns_eq : columns = wordsTo 22 := by decide

theorem columns_ascending : Ascending columns := by
  rw [columns_eq]
  exact wordsTo_ascending (by decide)

theorem mem_columns_iff {c : UInt32} : c ∈ columns ↔ 1 ≤ c.toNat ∧ c.toNat ≤ 22 := by
  rw [columns_eq]
  exact mem_wordsTo_iff (by decide)

variable (snap : InterfaceSnapshot)

/-- Every column with a value is numbered. -/
theorem mem_columns_of_rowColumn {column index : UInt32} {row : InterfaceRow} {v : Value}
    (h : snap.rowColumn column.toNat index row = some v) : column ∈ columns := by
  rw [mem_columns_iff]
  generalize column.toNat = c at h
  unfold rowColumn at h
  split at h
  -- all columns but those of counters are told apart by their numbers
  case h_11 =>
    obtain ⟨counter, hcounter, -⟩ := Option.bind_eq_some_iff.1 h
    obtain ⟨l₁, l₂, hl, -⟩ := List.lookup_eq_some_iff.1 hcounter
    have hmem : (c, counter) ∈ counterOfColumn := by
      rw [hl]
      simp
    have hall : ∀ p ∈ counterOfColumn, 1 ≤ p.1 ∧ p.1 ≤ 22 := by decide
    exact hall _ hmem
  all_goals omega

theorem mem_cells_iff {sub : SubId} :
    sub ∈ snap.cells ↔ sub = [1, 0] ∨ ∃ column index, sub = [2, 1, column, index] ∧
      1 ≤ column.toNat ∧ column.toNat ≤ 22 ∧ (snap.rows.get? index).isSome := by
  rw [cells, List.mem_cons]
  refine or_congr Iff.rfl ?_
  rw [List.mem_map]
  constructor
  · rintro ⟨cell, hcell, rfl⟩
    obtain ⟨column, hcolumn, row, hrow, rfl⟩ := Snmp.mem_cells_iff.1 hcell
    obtain ⟨index, rfl, hindex⟩ := mem_rows_iff.1 hrow
    obtain ⟨hlow, hhigh⟩ := mem_columns_iff.1 hcolumn
    exact ⟨column, index, rfl, hlow, hhigh, hindex⟩
  · rintro ⟨column, index, rfl, hlow, hhigh, hindex⟩
    refine ⟨[column, index], ?_, rfl⟩
    exact Snmp.mem_cells_iff.2
      ⟨column, mem_columns_iff.2 ⟨hlow, hhigh⟩, [index], mem_rows_iff.2 ⟨index, rfl, hindex⟩, rfl⟩

theorem next_isSuccessor (sub : SubId) : IsSuccessor (· ∈ snap.cells) sub (snap.next sub) := by
  have hbelow : IsSuccessor (· ∈ (Snmp.cells columns snap.rowIds).map (entryLead ++ ·)) sub
      (nextBelow entryLead sub (nextCell columns snap.rowIds)) := by
    refine (nextBelow_isSuccessor entryLead ?_
      (nextCell_isSuccessor columns_ascending.inOrder (ascending_rows snap.rows).inOrder)
      sub).congr ?_
    · intro hnil
      obtain ⟨_, _, _, _, he⟩ := Snmp.mem_cells_iff.1 hnil
      cases he
    · intro j _
      simp only [List.mem_map, eq_comm]
      rfl
  have hsplit : ∀ j, (j = countCell ∨ j ∈ (Snmp.cells columns snap.rowIds).map (entryLead ++ ·)) ↔
      j ∈ snap.cells := fun j => List.mem_cons.symm
  rw [next]
  -- the single cell lies before everything below the lead
  cases hcount : before sub countCell with
  | true =>
    have hhere : IsSuccessor (· = countCell) sub (some countCell) := by
      refine ⟨rfl, hcount, ?_⟩
      rintro j rfl _
      exact KeyOrder.irrefl _
    refine (hhere.or_left ?_).congr fun j _ => hsplit j
    intro j hj _
    obtain ⟨cell, -, rfl⟩ := List.mem_map.1 hj
    rfl
  | false =>
    have hpassed : IsSuccessor (· = countCell) sub none := by
      rintro j rfl
      exact hcount
    exact (hpassed.or_right hbelow).congr fun j _ => hsplit j

theorem mem_cells_of_value {sub : SubId} {v : Value} (h : snap.valueAt sub = some v) :
    sub ∈ snap.cells := by
  rw [mem_cells_iff]
  rw [valueAt] at h
  split at h
  · exact Or.inl ‹_›
  · split at h
    · rename_i column index hlead
      obtain rfl := List.isPrefixOf?_eq_some_iff_append_eq.1 hlead
      obtain ⟨row, hrow, hvalue⟩ := Option.bind_eq_some_iff.1 h
      obtain ⟨hlow, hhigh⟩ := mem_columns_iff.1 (snap.mem_columns_of_rowColumn hvalue)
      exact Or.inr ⟨column, index, rfl, hlow, hhigh, Option.isSome_of_eq_some hrow⟩
    · cases h

end InterfaceSnapshot

/-! ## The sensor table -/

namespace Sensors

theorem columns_eq : columns = wordsTo 5 := by decide

theorem columns_ascending : Ascending columns := by
  rw [columns_eq]
  exact wordsTo_ascending (by decide)

theorem mem_columns_iff {c : UInt32} : c ∈ columns ↔ 1 ≤ c.toNat ∧ c.toNat ≤ 5 := by
  rw [columns_eq]
  exact mem_wordsTo_iff (by decide)

theorem mem_columns_of_column {reading : Reading} {c : UInt32} {n : Int32}
    (h : column reading c.toNat = some n) : c ∈ columns := by
  rw [mem_columns_iff]
  generalize c.toNat = i at h
  unfold column at h
  split at h
  case h_6 => cases h
  all_goals omega

variable (t : Sensors)

theorem mem_cells_iff {sub : SubId} :
    sub ∈ t.cells ↔ ∃ column id, sub = [column, id] ∧
      1 ≤ column.toNat ∧ column.toNat ≤ 5 ∧ (t.cell.current.get? id).isSome := by
  rw [cells, Snmp.mem_cells_iff]
  constructor
  · rintro ⟨column, hcolumn, row, hrow, rfl⟩
    obtain ⟨id, rfl, hid⟩ := mem_rows_iff.1 hrow
    obtain ⟨hlow, hhigh⟩ := mem_columns_iff.1 hcolumn
    exact ⟨column, id, rfl, hlow, hhigh, hid⟩
  · rintro ⟨column, id, rfl, hlow, hhigh, hid⟩
    have hcolumn : column ∈ columns := mem_columns_iff.2 ⟨hlow, hhigh⟩
    exact ⟨column, hcolumn, [id], mem_rows_iff.2 ⟨id, rfl, hid⟩, rfl⟩

theorem next_isSuccessor (sub : SubId) : IsSuccessor (· ∈ t.cells) sub (t.next sub) :=
  nextCell_isSuccessor columns_ascending.inOrder (ascending_rows t.cell.current).inOrder sub

theorem mem_cells_of_value {sub : SubId} {v : Value} (h : t.valueAt sub = some v) :
    sub ∈ t.cells := by
  unfold valueAt at h
  split at h
  · rename_i column id
    obtain ⟨n, hn, -⟩ := Option.map_eq_some_iff.1 h
    obtain ⟨reading, hreading, hcolumn⟩ := Option.bind_eq_some_iff.1 hn
    obtain ⟨hlow, hhigh⟩ := mem_columns_iff.1 (mem_columns_of_column hcolumn)
    rw [mem_cells_iff]
    exact ⟨column, id, rfl, hlow, hhigh, Option.isSome_of_eq_some hreading⟩
  · cases h

end Sensors

/-! ## The power supply table -/

namespace Power

/-- The first number whose cell lies above a sub-identifier. -/
def numberAfter : SubId → Nat
  | [] => 1
  | first :: _ => first.toNat + 1

theorem nextNumber_eq (count : Nat) (sub : SubId) :
    nextNumber count sub =
      if numberAfter sub ≤ count ∧ numberAfter sub < UInt32.size then
        some [UInt32.ofNat (numberAfter sub)]
      else none := by
  cases sub <;> rfl

theorem before_number_iff {sub : SubId} {i : UInt32} (hi : 1 ≤ i.toNat) :
    before sub [i] = true ↔ numberAfter sub ≤ i.toNat := by
  cases sub with
  | nil => exact iff_of_true rfl hi
  | cons first rest =>
    rw [before_cons_iff, before_nil_right, before_word_iff, numberAfter]
    constructor
    · rintro (hlt | ⟨-, hnil⟩)
      · exact hlt
      · cases hnil
    · exact fun hlt => Or.inl hlt

variable (t : Power)

theorem mem_cells_iff (ht : t.cell.current.length < UInt32.size) {sub : SubId} :
    sub ∈ t.cells ↔ ∃ i : UInt32, sub = [i] ∧ 1 ≤ i.toNat ∧ i.toNat ≤ t.cell.current.length := by
  have hcells : t.cells = (wordsTo t.cell.current.length).map fun i => [i] := by
    rw [wordsTo, List.map_map]
    rfl
  rw [hcells, List.mem_map]
  constructor
  · rintro ⟨i, hi, rfl⟩
    exact ⟨i, rfl, (mem_wordsTo_iff ht).1 hi⟩
  · rintro ⟨i, rfl, hi⟩
    exact ⟨i, (mem_wordsTo_iff ht).2 hi, rfl⟩

theorem next_isSuccessor (ht : t.cell.current.length < UInt32.size) (sub : SubId) :
    IsSuccessor (· ∈ t.cells) sub (t.next sub) := by
  have hone : 1 ≤ numberAfter sub := by
    cases sub with
    | nil => exact Nat.le_refl 1
    | cons first rest => exact Nat.le_add_left 1 first.toNat
  rw [next, nextNumber_eq]
  by_cases hcount : numberAfter sub ≤ t.cell.current.length
  · have hword : (UInt32.ofNat (numberAfter sub)).toNat = numberAfter sub :=
      UInt32.toNat_ofNat_of_lt' (by omega)
    rw [if_pos ⟨hcount, by omega⟩]
    refine ⟨(t.mem_cells_iff ht).2 ⟨_, rfl, by omega, by omega⟩, ?_, ?_⟩
    · exact (before_number_iff (by omega)).2 (Nat.le_of_eq hword.symm)
    · intro j hj hbefore
      obtain ⟨i, rfl, hlow, -⟩ := (t.mem_cells_iff ht).1 hj
      rw [before_number_iff hlow] at hbefore
      rw [← Bool.not_eq_true, before_singleton, before_word_iff]
      omega
  · rw [if_neg fun h => hcount h.1]
    intro j hj
    obtain ⟨i, rfl, hlow, hhigh⟩ := (t.mem_cells_iff ht).1 hj
    rw [← Bool.not_eq_true, before_number_iff hlow]
    omega

theorem mem_cells_of_value (ht : t.cell.current.length < UInt32.size) {sub : SubId} {v : Value}
    (h : t.valueAt sub = some v) : sub ∈ t.cells := by
  unfold valueAt at h
  split at h
  · rename_i i
    obtain ⟨status, hstatus, -⟩ := Option.map_eq_some_iff.1 h
    refine (t.mem_cells_iff ht).2 ⟨i, rfl, ?_⟩
    cases hi : i.toNat with
    | zero =>
      rw [hi] at hstatus
      cases hstatus
    | succ k =>
      rw [hi, statusOf, Option.join_eq_some_iff] at hstatus
      obtain ⟨hk, -⟩ := List.getElem?_eq_some_iff.1 hstatus
      omega
  · cases h

end Power

/-! ## All tables -/

namespace Updater

/-- The cells of a table, told without their order: the number of interfaces and 22 columns of
their rows, 5 columns of sensors, the supplies by number, and otherwise the rows as they are. -/
def HasCell : Updater → SubId → Prop
  | .interfaces t, sub => sub = [1, 0] ∨ ∃ column index, sub = [2, 1, column, index] ∧
      1 ≤ column.toNat ∧ column.toNat ≤ 22 ∧ (t.cell.current.rows.get? index).isSome
  | .neighbours t, sub => (t.cell.current.get? sub).isSome
  | .forwarding t, sub => (t.cell.current.get? sub).isSome
  | .routes t, sub => (t.cell.current.get? sub).isSome
  | .sensors t, sub => ∃ column id, sub = [column, id] ∧
      1 ≤ column.toNat ∧ column.toNat ≤ 5 ∧ (t.cell.current.get? id).isSome
  | .queueStats t, sub => (t.cell.current.get? sub).isSome
  | .power t, sub =>
      ∃ i : UInt32, sub = [i] ∧ 1 ≤ i.toNat ∧ i.toNat ≤ t.cell.current.length
  | .overlay t, sub => (t.cell.current.get? sub).isSome

theorem mem_cells_iff {u : Updater} (hu : WellKept u) {sub : SubId} :
    sub ∈ Mib.cells u ↔ u.HasCell sub := by
  cases u with
  | interfaces t => exact t.cell.current.mem_cells_iff
  | sensors t => exact t.mem_cells_iff
  | power t => exact t.mem_cells_iff hu
  | _ => exact Dict.mem_keys_iff

/-- A tree can rely on a table that is well kept. -/
theorem serves_of_wellKept {u : Updater} (hu : WellKept u) : Serves u := by
  cases u with
  | interfaces t =>
    refine ⟨?_, t.cell.current.next_isSuccessor, fun _ _ => t.cell.current.mem_cells_of_value⟩
    intro hnil
    obtain h | ⟨_, _, h, _⟩ := t.cell.current.mem_cells_iff.1 hnil <;> cases h
  | neighbours t =>
    refine Serves.of_index t.cell.current hu rfl (fun _ => rfl) fun sub v hv => ?_
    obtain ⟨mac, hmac, -⟩ := Option.map_eq_some_iff.1 hv
    exact Option.isSome_of_eq_some hmac
  | forwarding t =>
    refine Serves.of_index t.cell.current hu rfl (fun _ => rfl) fun sub v hv => ?_
    obtain ⟨index, hindex, -⟩ := Option.bind_eq_some_iff.1 hv
    exact Option.isSome_of_eq_some hindex
  | routes t =>
    refine Serves.of_index t.cell.current hu rfl (fun _ => rfl) fun sub v hv => ?_
    obtain ⟨hop, hhop, -⟩ := Option.map_eq_some_iff.1 hv
    exact Option.isSome_of_eq_some hhop
  | sensors t =>
    refine ⟨?_, t.next_isSuccessor, fun _ _ => t.mem_cells_of_value⟩
    intro hnil
    obtain ⟨_, _, h, _⟩ := t.mem_cells_iff.1 hnil
    cases h
  | queueStats t =>
    refine Serves.of_index t.cell.current hu rfl (fun _ => rfl) fun sub v hv => ?_
    obtain ⟨count, hcount, -⟩ := Option.map_eq_some_iff.1 hv
    exact Option.isSome_of_eq_some hcount
  | power t =>
    refine ⟨?_, t.next_isSuccessor hu, fun _ _ => t.mem_cells_of_value hu⟩
    intro hnil
    obtain ⟨_, h, _⟩ := (t.mem_cells_iff hu).1 hnil
    cases h
  | overlay t =>
    refine Serves.of_index t.cell.current hu rfl (fun _ => rfl) fun sub v hv => ?_
    exact Option.isSome_of_eq_some hv

end Updater

namespace Session

/-- At every moment of the life of a table its cells are a finite set without the empty
sub-identifier, the next cell after any sub-identifier is the least one above it, only cells have
values, and every cell with a value is come to from the start of the table. -/
theorem next_hasCell_run {s : Session} {b : Blueprint} (hs : s.Opened b) (turns : List Turn) :
    let u := (s.run turns).table
    (∀ sub, sub ∈ u.cells ↔ u.HasCell sub) ∧ ¬ u.HasCell [] ∧
      (∀ sub, IsSuccessor u.HasCell sub (u.next sub)) ∧
      (∀ sub v, u.valueAt sub = some v → u.HasCell sub) ∧
      ∀ sub v, u.valueAt sub = some v →
        Relation.TransGen (fun a b => u.next a = some b) [] sub := by
  intro u
  have hkept : WellKept u := wellKept_run hs turns
  have hserves : Serves u := Updater.serves_of_wellKept hkept
  have hcells : ∀ sub, sub ∈ u.cells ↔ u.HasCell sub := fun _ => Updater.mem_cells_iff hkept
  refine ⟨hcells, fun hnil => hserves.nil_not_mem ((hcells []).2 hnil), ?_, ?_, ?_⟩
  · exact fun sub => (hserves.next_isSuccessor sub).congr fun j _ => hcells j
  · exact fun sub v hv => (hcells sub).1 (hserves.mem_of_value sub v hv)
  · intro sub v hv
    have hmem := hserves.mem_of_value sub v hv
    refine hserves.reached hmem (before_nil_left.2 ?_)
    rintro rfl
    exact hserves.nil_not_mem hmem

/-- The interface table of one port steps from the count of interfaces into the first column, from
a column that is named too long into the next, and has nothing after the last column. -/
theorem next_hasCell_of_one_port :
    let s := start .interfaces (worldOfPort "Ethernet0")
    let u := (s.run [.reinit, .query [2, 1, 10, 1], .refresh]).table
    s.Opened .interfaces ∧ u.next [1, 0, 7] = some [2, 1, 1, 1] ∧
      u.next [2, 1, 3, 1, 4294967295] = some [2, 1, 4, 1] ∧ u.next [2, 1, 22, 1] = none ∧
      (∀ sub, IsSuccessor u.HasCell sub (u.next sub)) ∧
      ∀ sub v, u.valueAt sub = some v →
        Relation.TransGen (fun a b => u.next a = some b) [] sub := by
  intro s u
  have hs : s.Opened .interfaces := opened_start (by decide +kernel)
  have hall := next_hasCell_run hs [.reinit, .query [2, 1, 10, 1], .refresh]
  exact ⟨hs, by decide +kernel, by decide +kernel, by decide +kernel, hall.2.2.1, hall.2.2.2.2⟩

end Session

end SwitchMib.Mib
