import Mathlib.Data.List.Basic
import SwitchMib.Net.IfName
import SwitchMib.Proofs.Text.Numeral

/-!
# Which interfaces share an index

An index is the number of a name added to a base of its family, and the bases are fixed. Numbers
are not bounded by the distance to the next base, so a large number of one family runs into the
indexes of another.

* `IfFamily.Names`: the names of a family and their numbers.
* `IfName.classify_eq_some_iff`: a name is accepted just when it is such a name and its index has
  32 bits.
* `IfName.index?_eq_iff_of_classify`: when two accepted names share an index.
* `IfName.index?_not_injective`: some do.
-/

namespace SwitchMib.Net
set_option autoImplicit false

open Text

namespace IfFamily

/-- `family.Names n name`: the name is the stem of the family and then digits that write `n`. -/
def Names (family : IfFamily) (n : Nat) (name : String) : Prop :=
  ∃ digits, name.toList = family.stem.toList ++ digits ∧ Denotes digits n

/-- The numbers below this one keep the indexes of a family under the next base. There is none
above that of management ports. -/
def room : IfFamily → Nat
  | .ethernet => 999
  | .backplane => 1000
  | .portChannel => 1000
  | .vlan => 7000
  | .management => UInt32.size

theorem isPrefixOf?_stem_iff {family : IfFamily} {name : String} {digits : List Char} :
    family.stem.toList.isPrefixOf? name.toList = some digits ↔
      name.toList = family.stem.toList ++ digits := by
  rw [List.isPrefixOf?_eq_some_iff_append_eq, eq_comm]

theorem names_iff_denotes {family : IfFamily} {name : String} {digits : List Char}
    (hname : name.toList = family.stem.toList ++ digits) (n : Nat) :
    family.Names n name ↔ Denotes digits n := by
  constructor
  · rintro ⟨digits', hname', hden⟩
    rw [hname, List.append_cancel_left_eq] at hname'
    rwa [hname']
  · exact fun hden => ⟨digits, hname, hden⟩

theorem index?_eq_some_iff {family : IfFamily} {name : String} {i : UInt32} :
    family.index? name = some i ↔
      ∃ n, family.Names n name ∧ n + family.base < UInt32.size ∧
        i = UInt32.ofNat (n + family.base) := by
  unfold index?
  cases hstem : family.stem.toList.isPrefixOf? name.toList with
  | none =>
    simp only [reduceCtorEq, false_iff]
    rintro ⟨n, ⟨digits, hname, -⟩, -⟩
    rw [← isPrefixOf?_stem_iff, hstem] at hname
    cases hname
  | some digits =>
    simp only [names_iff_denotes (isPrefixOf?_stem_iff.1 hstem)]
    cases digits with
    | nil =>
      simp only [reduceCtorEq, false_iff]
      rintro ⟨n, hden, -⟩
      exact hden.1 rfl
    | cons c cs =>
      have hread : ∀ n, readDigits 10 (UInt32.size - 1) 0 (c :: cs) = .ok n ↔
          Denotes (c :: cs) n ∧ n ≤ UInt32.size - 1 :=
        fun n => readDigits_zero_eq_ok_iff (List.cons_ne_nil c cs)
      simp only
      cases hnumber : readDigits 10 (UInt32.size - 1) 0 (c :: cs) with
      | error fault =>
        -- the number alone is too large already
        simp only [reduceCtorEq, false_iff]
        rintro ⟨n, hden, hlt, -⟩
        have hok := (hread n).2 ⟨hden, by omega⟩
        rw [hnumber] at hok
        cases hok
      | ok n =>
        obtain ⟨hden, -⟩ := (hread n).1 hnumber
        have hsame : ∀ m, Denotes (c :: cs) m ↔ n = m := fun m =>
          ⟨hden.unique, fun h => h ▸ hden⟩
        by_cases hlt : n + family.base < UInt32.size
        · simp [hsame, hlt, eq_comm]
        · simp [hsame, hlt]

theorem add_base_ne {f g : IfFamily} {n m : Nat} (hfg : f ≠ g) (hn : n < f.room)
    (hm : m < g.room) : n + f.base ≠ m + g.base := by
  cases f <;> cases g <;> simp only [base, room, ne_eq, not_true_eq_false] at * <;> omega

/-! ## One family for a name -/

theorem stem_append_inj {f g : IfFamily} {ds es : List Char} (hds : ∀ c ∈ ds, isDigit c = true)
    (hes : ∀ c ∈ es, isDigit c = true) (h : f.stem.toList ++ ds = g.stem.toList ++ es) :
    f = g ∧ ds = es := by
  -- of two stems neither is the beginning of the other but that of front-panel ports, after which
  -- the other one has a dash and no digit
  have hdash : ∀ {l : List Char}, (∀ c ∈ l, isDigit c = true) → '-' ∉ l := by
    intro l hl hmem
    have := hl '-' hmem
    revert this
    decide
  have hd := hdash hds
  have he := hdash hes
  cases f <;> cases g <;> simp [stem] at h
  case ethernet.backplane => exact absurd (h ▸ List.mem_cons_self) hd
  case backplane.ethernet => exact absurd (h ▸ List.mem_cons_self) he
  all_goals exact ⟨rfl, h⟩

theorem Names.unique {f g : IfFamily} {n m : Nat} {name : String} (hf : f.Names n name)
    (hg : g.Names m name) : f = g ∧ n = m := by
  obtain ⟨ds, hds, -, hdigits, rfl⟩ := hf
  obtain ⟨es, hes, -, hdigits', rfl⟩ := hg
  obtain ⟨hfg, rfl⟩ := stem_append_inj hdigits hdigits' (hds.symm.trans hes)
  exact ⟨hfg, rfl⟩

end IfFamily

namespace IfName

theorem classify_eq_some_iff {name : String} {family : IfFamily} {i : UInt32} :
    classify name = some (family, i) ↔
      ∃ n, family.Names n name ∧ n + family.base < UInt32.size ∧
        i = UInt32.ofNat (n + family.base) := by
  rw [← IfFamily.index?_eq_some_iff]
  have hsound : ∀ {g j}, classify name = some (g, j) → g.index? name = some j := by
    intro g j h
    obtain ⟨g', -, hg⟩ := List.exists_of_findSome?_eq_some h
    obtain ⟨j', hj, hpair⟩ := Option.map_eq_some_iff.1 hg
    cases hpair
    exact hj
  refine ⟨hsound, fun h => ?_⟩
  cases hfound : classify name with
  | none =>
    have hall : family ∈ IfFamily.all := by cases family <;> decide
    have hnone := List.findSome?_eq_none_iff.1 hfound family hall
    rw [h] at hnone
    cases hnone
  | some found =>
    obtain ⟨g, j⟩ := found
    -- no other family has the name
    have hj := hsound hfound
    obtain ⟨n, hn, -, -⟩ := IfFamily.index?_eq_some_iff.1 h
    obtain ⟨m, hm, -, -⟩ := IfFamily.index?_eq_some_iff.1 hj
    obtain ⟨rfl, -⟩ := hm.unique hn
    rw [hj] at h
    cases h
    rfl

/-! ## Shared indexes -/

theorem index?_of_classify {name : String} {family : IfFamily} {i : UInt32} {n : Nat}
    (h : classify name = some (family, i)) (hn : family.Names n name) :
    ∃ j, index? name = some j ∧ j.toNat = n + family.base := by
  obtain ⟨m, hm, hlt, rfl⟩ := classify_eq_some_iff.1 h
  obtain ⟨-, rfl⟩ := hm.unique hn
  refine ⟨UInt32.ofNat (m + family.base), ?_, UInt32.toNat_ofNat_of_lt' hlt⟩
  rw [index?, h]
  rfl

/-- Two accepted names of different family or number share an index just when the families differ
and number and base add up to the same. They never do while the numbers stay below the room of
their families. -/
theorem index?_eq_iff_of_classify {a b : String} {f g : IfFamily} {i j : UInt32} {n m : Nat}
    (ha : classify a = some (f, i)) (hb : classify b = some (g, j)) (hn : f.Names n a)
    (hm : g.Names m b) (hne : (f, n) ≠ (g, m)) :
    (index? a = index? b ↔ f ≠ g ∧ n + f.base = m + g.base) ∧
      (n < f.room → m < g.room → index? a ≠ index? b) := by
  obtain ⟨x, hx, hxn⟩ := index?_of_classify ha hn
  obtain ⟨y, hy, hym⟩ := index?_of_classify hb hm
  have hsum : index? a = index? b ↔ n + f.base = m + g.base := by
    rw [hx, hy, Option.some_inj, ← UInt32.toNat_inj, hxn, hym]
  have hfamily : n + f.base = m + g.base → f ≠ g := by
    rintro h rfl
    exact hne (by rw [Nat.add_right_cancel h])
  constructor
  · rw [hsum]
    exact ⟨fun h => ⟨hfamily h, h⟩, fun h => h.2⟩
  · intro hf hg hshared
    have h := hsum.1 hshared
    exact IfFamily.add_base_ne (hfamily h) hf hg h

/-- A group and a VLAN interface with small numbers. -/
theorem index?_ne_of_group_of_vlan :
    classify "PortChannel01" = some (.portChannel, 1001) ∧
      classify "Vlan0100" = some (.vlan, 2100) ∧
      IfFamily.portChannel.Names 1 "PortChannel01" ∧ IfFamily.vlan.Names 100 "Vlan0100" ∧
      (IfFamily.portChannel, 1) ≠ (IfFamily.vlan, 100) ∧
      index? "PortChannel01" ≠ index? "Vlan0100" := by
  have ha : classify "PortChannel01" = some (.portChannel, 1001) := by decide
  have hb : classify "Vlan0100" = some (.vlan, 2100) := by decide
  have hn : IfFamily.portChannel.Names 1 "PortChannel01" := ⟨['0', '1'], by decide⟩
  have hm : IfFamily.vlan.Names 100 "Vlan0100" := ⟨['0', '1', '0', '0'], by decide⟩
  have hne : (IfFamily.portChannel, 1) ≠ (IfFamily.vlan, 100) := by decide
  exact ⟨ha, hb, hn, hm, hne,
    (index?_eq_iff_of_classify ha hb hn hm hne).2 (by decide) (by decide)⟩

/-- Numbers beyond the room of their family: a front-panel port has the index of a backplane port,
and every family but the last runs into the next one. -/
theorem index?_not_injective :
    index? "Ethernet8999" = some 9000 ∧ index? "Ethernet-BP0" = some 9000 ∧
      index? "Ethernet999" = index? "PortChannel0" ∧ index? "PortChannel1001" = index? "Vlan1" ∧
      index? "Vlan7000" = index? "Ethernet-BP0" ∧ index? "Ethernet-BP1000" = index? "eth0" ∧
      ¬ ∀ (a b : String) (f g : IfFamily) (i j : UInt32) (n m : Nat),
        classify a = some (f, i) → classify b = some (g, j) → f.Names n a → g.Names m b →
          (f, n) ≠ (g, m) → index? a ≠ index? b := by
  refine ⟨by decide, by decide, by decide, by decide, by decide, by decide, fun hall => ?_⟩
  have hport : IfFamily.ethernet.Names 8999 "Ethernet8999" := ⟨['8', '9', '9', '9'], by decide⟩
  have hback : IfFamily.backplane.Names 0 "Ethernet-BP0" := ⟨['0'], by decide⟩
  exact hall "Ethernet8999" "Ethernet-BP0" .ethernet .backplane 9000 9000 8999 0 (by decide)
    (by decide) hport hback (by decide) (by decide)

end IfName

end SwitchMib.Net
