import SwitchMib.Proofs.Text.Cuts
import SwitchMib.Proofs.Text.Numeral
import SwitchMib.Snmp.Oid

/-!
# Which texts are read as object identifiers

An identifier is written as its arcs in decimal digits with a point between each two, and maybe one
before the first. Arcs are read as numerals, though, and these may have a plus sign, so that more is
read than is written.

* `Oid.ArcDigits`, `Oid.ArcNumeral`: an arc in digits, and one that may have a sign.
* `Oid.Dotted`: arcs in dotted notation.
* `Oid.parse_eq_ok_iff`: what is read are dotted numerals.
* `Oid.dotted_digits_iff`: those without a plus sign are dotted digits.
* `Oid.parse_exact_iff`: on which texts just dotted digits are read.
-/

namespace SwitchMib.Snmp.Oid
set_option autoImplicit false

open Text

/-! ## Notations -/

/-- One or more digits that write the number of an arc, which has 32 bits. -/
def ArcDigits (cs : List Char) (arc : UInt32) : Prop := Denotes cs arc.toNat

/-- The digits of an arc, with or without a plus sign before them. -/
def ArcNumeral (cs : List Char) (arc : UInt32) : Prop :=
  ∃ ds, (cs = ds ∨ cs = '+' :: ds) ∧ ArcDigits ds arc

/-- The characters of the arcs' numerals. -/
def isArcChar (c : Char) : Bool := isDigit c || c == '+'

/-- The parts with a point between each two, and maybe one more before them. -/
def Pointed (cs : List Char) (parts : List (List Char)) : Prop :=
  cs = ['.'].intercalate parts ∨ cs = '.' :: ['.'].intercalate parts

/-- One or more arcs in dotted notation. -/
def Dotted (Arc : List Char → UInt32 → Prop) (s : String) (arcs : List UInt32) : Prop :=
  arcs ≠ [] ∧ ∃ parts, List.Forall₂ Arc parts arcs ∧ Pointed s.toList parts

theorem isArcChar_of_arcNumeral {cs : List Char} {arc : UInt32} (h : ArcNumeral cs arc) :
    ∀ c ∈ cs, isArcChar c = true := by
  have hdigits : ∀ ds, ArcDigits ds arc → ∀ c ∈ ds, isArcChar c = true := fun ds hds c hc => by
    rw [isArcChar, hds.2.1 c hc, Bool.true_or]
  obtain ⟨ds, rfl | rfl, hds⟩ := h
  · exact hdigits cs hds
  · exact List.forall_mem_cons.2 ⟨rfl, hdigits ds hds⟩

theorem ne_nil_of_arcNumeral {cs : List Char} {arc : UInt32} (h : ArcNumeral cs arc) : cs ≠ [] := by
  obtain ⟨ds, rfl | rfl, hne, -⟩ := h
  · exact hne
  · exact List.cons_ne_nil _ _

theorem forall_of_arcNumerals {parts : List (List Char)} {arcs : List UInt32}
    (h : List.Forall₂ ArcNumeral parts arcs) :
    ∀ part ∈ parts, part ≠ [] ∧ ∀ c ∈ part, isArcChar c = true :=
  ((List.forall₂_and_left parts arcs).1 (h.imp fun _ _ hpart =>
    ⟨⟨ne_nil_of_arcNumeral hpart, isArcChar_of_arcNumeral hpart⟩, hpart⟩)).1

theorem mem_pointed_iff {cs : List Char} {parts : List (List Char)} (h : Pointed cs parts)
    {c : Char} (hc : c ≠ '.') : c ∈ cs ↔ ∃ part ∈ parts, c ∈ part := by
  rcases h with rfl | rfl
  · exact mem_intercalate_iff hc parts
  · simp [hc, mem_intercalate_iff]

theorem not_mem_of_dotted {s : String} {arcs : List UInt32} (h : Dotted ArcNumeral s arcs) {c : Char}
    (hc : c ≠ '.') (harc : isArcChar c = false) : c ∉ s.toList := by
  obtain ⟨-, parts, harcs, hs⟩ := h
  rw [mem_pointed_iff hs hc]
  rintro ⟨part, hpart, hmem⟩
  rw [(forall_of_arcNumerals harcs part hpart).2 c hmem] at harc
  cases harc

theorem arcDigits_iff {cs : List Char} {arc : UInt32} :
    ArcDigits cs arc ↔ '+' ∉ cs ∧ ArcNumeral cs arc := by
  constructor
  · intro h
    refine ⟨fun hplus => ?_, cs, Or.inl rfl, h⟩
    have hdigit := h.2.1 '+' hplus
    revert hdigit
    decide
  · rintro ⟨hplus, ds, rfl | rfl, hds⟩
    · exact hds
    · exact absurd List.mem_cons_self hplus

theorem dotted_digits_iff {s : String} {arcs : List UInt32} :
    Dotted ArcDigits s arcs ↔ '+' ∉ s.toList ∧ Dotted ArcNumeral s arcs := by
  have hdigits : ArcDigits = fun cs arc => '+' ∉ cs ∧ ArcNumeral cs arc := by
    funext cs arc
    exact propext arcDigits_iff
  have hparts : ∀ parts, Pointed s.toList parts → (List.Forall₂ ArcDigits parts arcs ↔
      '+' ∉ s.toList ∧ List.Forall₂ ArcNumeral parts arcs) := by
    intro parts hs
    rw [hdigits, List.forall₂_and_left, mem_pointed_iff hs (by decide)]
    simp only [not_exists, not_and]
  constructor
  · rintro ⟨hne, parts, harcs, hs⟩
    obtain ⟨hplus, harcs⟩ := (hparts parts hs).1 harcs
    exact ⟨hplus, hne, parts, harcs, hs⟩
  · rintro ⟨hplus, hne, parts, harcs, hs⟩
    exact ⟨hne, parts, (hparts parts hs).2 ⟨hplus, harcs⟩, hs⟩

/-! ## Reading -/

theorem arcNumeral_iff {cs : List Char} {arc : UInt32} :
    ArcNumeral cs arc ↔ readNatIn 10 (UInt32.size - 1) cs = .ok arc.toNat := by
  have hle : arc.toNat ≤ UInt32.size - 1 := Nat.le_pred_of_lt arc.toNat_lt
  simp only [readNatIn_eq_ok_iff, ArcNumeral, ArcDigits, hle, and_true]

theorem readArc_eq_some_iff {cs : List Char} {arc : UInt32} :
    readArc cs = some arc ↔ ArcNumeral cs arc := by
  rw [readArc, arcNumeral_iff]
  cases hread : readNatIn 10 (UInt32.size - 1) cs with
  | error fault => simp
  | ok n =>
    obtain ⟨ds, -, -, hle⟩ := readNatIn_eq_ok_iff.1 hread
    have hnat : (UInt32.ofNat n).toNat = n :=
      UInt32.toNat_ofNat_of_lt' (Nat.lt_of_le_of_lt hle (by decide))
    simp only [Option.some.injEq, Except.ok.injEq]
    constructor
    · rintro rfl
      exact hnat.symm
    · intro harc
      rw [harc, UInt32.ofNat_toNat]

/-- What is left of a text without the point that may lead it. -/
theorem toList_dropLead_point (s : String) :
    s.toList = '.' :: (dropLead "." s).toList ∨
      s.toList = (dropLead "." s).toList ∧ s.toList.head? ≠ some '.' := by
  rw [dropLead]
  cases hafter : after? "." s with
  | some rest =>
    obtain rfl := after?_eq_some_iff.1 hafter
    exact Or.inl (by simp)
  | none =>
    refine Or.inr ⟨rfl, fun hhead => ?_⟩
    obtain ⟨rest, hrest⟩ := List.head?_eq_some_iff.1 hhead
    have hlead : after? "." s = some (String.ofList rest) := by
      rw [after?_eq_some_iff, ← String.toList_inj, hrest]
      simp
    rw [hafter] at hlead
    cases hlead

theorem parse_eq_ok_iff_mapM {s : String} {x : Oid} :
    parse s = .ok x ↔ (pieces '.' (dropLead "." s).toList).mapM readArc = some x.arcs := by
  simp only [parse]
  cases hbody : (dropLead "." s).toList with
  | nil =>
    -- nothing is one part, which is no arc
    have hnone : (pieces '.' []).mapM readArc = none := by decide
    simp [hnone]
  | cons c cs =>
    rw [if_neg (by simp)]
    cases (pieces '.' (c :: cs)).mapM readArc with
    | none => simp
    | some arcs =>
      obtain ⟨arcs'⟩ := x
      simp

/-- The point between parts is not at their start where none is empty. -/
theorem head?_intercalate_ne {parts : List (List Char)}
    (h : ∀ part ∈ parts, part ≠ [] ∧ '.' ∉ part) : (['.'].intercalate parts).head? ≠ some '.' := by
  cases parts with
  | nil => simp [List.intercalate]
  | cons part later =>
    obtain ⟨hne, hpoint⟩ := h part List.mem_cons_self
    obtain ⟨c, cs, rfl⟩ := List.exists_cons_of_ne_nil hne
    have hhead : (['.'].intercalate ((c :: cs) :: later)).head? = some c := by
      cases later with
      | nil => simp [List.intercalate]
      | cons next later =>
        rw [List.intercalate_cons_cons]
        rfl
    rw [hhead]
    rintro ⟨⟩
    exact hpoint List.mem_cons_self

theorem pieces_dropLead_eq_iff {s : String} {parts : List (List Char)}
    (h : ∀ part ∈ parts, part ≠ [] ∧ '.' ∉ part) :
    pieces '.' (dropLead "." s).toList = parts ↔ parts ≠ [] ∧ Pointed s.toList parts := by
  rw [pieces_eq_iff, Pointed, and_iff_right fun part hpart => (h part hpart).2]
  refine and_congr_right fun _ => ?_
  rcases toList_dropLead_point s with hlead | ⟨hwhole, hnone⟩
  · constructor
    · intro hrest
      exact Or.inr (by rw [hlead, hrest])
    · rintro (hs | hs)
      · refine absurd ?_ (head?_intercalate_ne h)
        rw [← hs, hlead, List.head?_cons]
      · exact (List.cons.inj (hlead.symm.trans hs)).2
  · rw [hwhole] at hnone ⊢
    constructor
    · exact Or.inl
    · rintro (hs | hs)
      · exact hs
      · refine absurd ?_ hnone
        rw [hs, List.head?_cons]

/-- A text is read just where it is dotted numerals, and as the arcs that they write. -/
theorem parse_eq_ok_iff {s : String} {x : Oid} : parse s = .ok x ↔ Dotted ArcNumeral s x.arcs := by
  have hparts : ∀ parts, List.Forall₂ ArcNumeral parts x.arcs →
      ∀ part ∈ parts, part ≠ [] ∧ '.' ∉ part := by
    intro parts harcs part hpart
    obtain ⟨hne, hchars⟩ := forall_of_arcNumerals harcs part hpart
    exact ⟨hne, fun hmem => Bool.false_ne_true (hchars '.' hmem)⟩
  rw [parse_eq_ok_iff_mapM, mapM_eq_some_iff_forall₂]
  simp only [readArc_eq_some_iff]
  constructor
  · intro harcs
    obtain ⟨hne, hs⟩ := (pieces_dropLead_eq_iff (hparts _ harcs)).1 rfl
    refine ⟨fun hnil => hne ?_, _, harcs, hs⟩
    exact List.forall₂_nil_right_iff.1 (hnil ▸ harcs)
  · rintro ⟨hne, parts, harcs, hs⟩
    have hcut : parts ≠ [] := by
      rintro rfl
      exact hne (List.forall₂_nil_left_iff.1 harcs)
    rw [(pieces_dropLead_eq_iff (hparts parts harcs)).2 ⟨hcut, hs⟩]
    exact harcs

theorem newline_not_mem_of_parse {s : String} {x : Oid} (h : parse s = .ok x) :
    '\n' ∉ s.toList :=
  not_mem_of_dotted (parse_eq_ok_iff.1 h) (by decide) rfl

theorem text_of_parse_eq_error {s : String} {e : ParseError} (h : parse s = .error e) :
    e = ⟨s⟩ := by
  simp only [parse] at h
  split at h
  · exact (Except.error.inj h).symm
  · split at h
    · cases h
    · exact (Except.error.inj h).symm

/-- Whatever is read are dotted numerals, and anything else is an error that names the text. Just
dotted digits are read, unless there is a plus sign before the digits of some arc. -/
theorem parse_exact_iff (s : String) :
    (∀ x, parse s = .ok x ↔ Dotted ArcNumeral s x.arcs) ∧
      (∀ e, parse s = .error e ↔ e = ⟨s⟩ ∧ ∀ arcs, ¬ Dotted ArcNumeral s arcs) ∧
      ((∀ x, parse s = .ok x ↔ Dotted ArcDigits s x.arcs) ↔
        ('+' ∈ s.toList → ∀ arcs, ¬ Dotted ArcNumeral s arcs)) := by
  have hok : ∀ x, parse s = .ok x ↔ Dotted ArcNumeral s x.arcs := fun _ => parse_eq_ok_iff
  have hnone : (∀ arcs, ¬ Dotted ArcNumeral s arcs) ↔ ∀ x : Oid, ¬ Dotted ArcNumeral s x.arcs :=
    ⟨fun h x => h x.arcs, fun h arcs => h ⟨arcs⟩⟩
  rw [hnone]
  exact ⟨hok, eq_error_iff_of_eq_ok_iff hok fun _ => text_of_parse_eq_error,
    eq_ok_iff_stricter_iff hok fun _ => dotted_digits_iff⟩

theorem not_exact_of_plus :
    parse "1.+3" = .ok ⟨[1, 3]⟩ ∧ ¬ Dotted ArcDigits "1.+3" [1, 3] ∧
      ¬ ∀ s x, (parse s = .ok x ↔ Dotted ArcDigits s x.arcs) := by
  have hread : parse "1.+3" = .ok ⟨[1, 3]⟩ := by decide
  have hnot : ¬ Dotted ArcDigits "1.+3" [1, 3] := fun h =>
    (dotted_digits_iff.1 h).1 (by decide)
  exact ⟨hread, hnot, fun hexact => hnot ((hexact "1.+3" ⟨[1, 3]⟩).1 hread)⟩

end SwitchMib.Snmp.Oid
