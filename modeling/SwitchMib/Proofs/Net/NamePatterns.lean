import SwitchMib.Proofs.Net.IfName

/-!
# Which names are those of interfaces

A family has a pattern for its names: its stem, and then digits up to the end. The patterns are tried
in order, and where one fits but its digits have no number, or the number no index, the next is
tried. A pattern language may count digits of other scripts among the digits. The numeral that they
make up is not read then, so it does not matter which ones.

* `DigitClass`: what a pattern takes for digits.
* `IfFamily.captured?`: the digits that the pattern of a family finds in a name.
* `IfName.classifyBy_eq`: the classification by patterns is `IfName.classify`.
* `IfName.classify_eq_of_names`: names of one family and number are classified alike.
* `IfName.classify_eq_none_of_not_digit`: no character but a digit can follow a stem.
* `IfName.classify_exact`: all of that.
-/

namespace SwitchMib.Net
set_option autoImplicit false

open Text

/-- The characters that a pattern takes for digits. Those of ASCII are among them, and a plus sign
is not. -/
structure DigitClass where
  holds : Char → Bool
  ascii : ∀ c, isDigit c = true → holds c = true
  plus : holds '+' = false

namespace IfFamily

/-- The digits after the stem, where the rest of the name is one or more of them. -/
def captured? (digits : DigitClass) (family : IfFamily) (name : String) : Option (List Char) :=
  (family.stem.toList.isPrefixOf? name.toList).filter fun run =>
    !run.isEmpty && run.all digits.holds

/-- The index of a name whose digits the pattern finds, if they have a number and it an index. -/
def indexBy? (digits : DigitClass) (family : IfFamily) (name : String) : Option UInt32 :=
  match family.captured? digits name with
  | none => none
  | some run =>
    match readNatIn 10 (UInt32.size - 1) run with
    | .ok n => if n + family.base < UInt32.size then some (UInt32.ofNat (n + family.base)) else none
    | .error _ => none

theorem indexBy?_eq (digits : DigitClass) (family : IfFamily) (name : String) :
    family.indexBy? digits name = family.index? name := by
  rw [indexBy?, captured?, index?]
  cases family.stem.toList.isPrefixOf? name.toList with
  | none => rfl
  | some run =>
    cases run with
    | nil => rfl
    | cons c cs =>
      cases hall : (c :: cs).all digits.holds with
      | true =>
        have hc : c ≠ '+' := by
          rintro rfl
          have hplus := List.all_eq_true.1 hall '+' List.mem_cons_self
          rw [digits.plus] at hplus
          cases hplus
        cases hread : readDigits 10 (UInt32.size - 1) 0 (c :: cs) with
        | ok n =>
          simp only [Option.filter_some, List.isEmpty_cons, Bool.not_false, Bool.true_and, hall,
            if_true, readNatIn_eq_readDigits hc, hread]
        | error fault =>
          simp only [Option.filter_some, List.isEmpty_cons, Bool.not_false, Bool.true_and, hall,
            if_true, readNatIn_eq_readDigits hc, hread]
      | false =>
        -- what the pattern does not take for a digit is no ASCII digit either
        obtain ⟨d, hd, hother⟩ := List.all_eq_false.1 hall
        have hno : isDigit d = false :=
          Bool.eq_false_iff.2 fun hdigit => hother (digits.ascii d hdigit)
        obtain ⟨fault, hfault⟩ := exists_readDigits_eq_error (UInt32.size - 1) hd hno
        simp only [Option.filter_some, List.isEmpty_cons, Bool.not_false, Bool.true_and, hall,
          Bool.false_eq_true, if_false, hfault]

end IfFamily

namespace IfName

/-- The first family whose pattern finds digits that have an index. -/
def classifyBy (digits : DigitClass) (name : String) : Option (IfFamily × UInt32) :=
  IfFamily.all.findSome? fun family => (family.indexBy? digits name).map (family, ·)

theorem classifyBy_eq (digits : DigitClass) (name : String) :
    classifyBy digits name = classify name := by
  simp only [classifyBy, classify, IfFamily.indexBy?_eq]

theorem classify_eq_of_names {family : IfFamily} {n : Nat} {name name' : String}
    (h : family.Names n name) (h' : family.Names n name') : classify name' = classify name := by
  have hnames : ∀ g m, IfFamily.Names g m name' ↔ IfFamily.Names g m name := by
    intro g m
    constructor
    · intro hg
      obtain ⟨rfl, rfl⟩ := h'.unique hg
      exact h
    · intro hg
      obtain ⟨rfl, rfl⟩ := h.unique hg
      exact h'
  refine Option.ext fun found => ?_
  obtain ⟨g, i⟩ := found
  simp only [classify_eq_some_iff, hnames]

/-- The stem of front-panel ports begins that of backplane ports, which goes on with a dash. -/
theorem classify_eq_none_of_not_digit {family : IfFamily} {name : String} {rest : List Char}
    {c : Char} (hname : name.toList = family.stem.toList ++ rest) (hmem : c ∈ rest)
    (hc : isDigit c = false) (hback : family = .ethernet → ¬ ['-', 'B', 'P'] <+: rest) :
    classify name = none := by
  cases hfound : classify name with
  | none => rfl
  | some found =>
    obtain ⟨g, i⟩ := found
    obtain ⟨n, ⟨run, hrun, -, hdigits, -⟩, -⟩ := classify_eq_some_iff.1 hfound
    rw [hname] at hrun
    have hdash : '-' ∉ run := by
      intro hin
      have hdigit := hdigits '-' hin
      revert hdigit
      decide
    have hne : rest ≠ run := by
      rintro rfl
      rw [hdigits c hmem] at hc
      cases hc
    cases family <;> cases g <;> simp [IfFamily.stem] at hrun
    case ethernet.backplane => exact absurd ⟨run, hrun.symm⟩ (hback rfl)
    case backplane.ethernet => exact absurd (hrun ▸ List.mem_cons_self) hdash
    all_goals exact absurd hrun hne

theorem names_zeros {family : IfFamily} {n : Nat} {run : List Char} (h : Denotes run n)
    (zeros : Nat) :
    family.Names n (String.ofList (family.stem.toList ++ (List.replicate zeros '0' ++ run))) :=
  ⟨_, String.toList_ofList, h.zeros zeros⟩

/-- The patterns accept a name, whatever they take for digits, just where it is the stem of a family
and one or more digits of ASCII whose number has 32 bits, with the base of the family too, and give
that sum. No name is one of two families or numbers, more zeros before the digits make no
difference, and neither a sign nor a blank, a line end, a digit of another script or anything else
but digits can follow a stem, unless it makes it that of backplane ports. -/
theorem classify_exact (digits : DigitClass) (name : String) :
    classifyBy digits name = classify name ∧
      (∀ family i, classify name = some (family, i) ↔
        ∃ run n, name.toList = family.stem.toList ++ run ∧ run ≠ [] ∧
          (∀ c ∈ run, isDigit c = true) ∧ Nat.ofDigitChars 10 run 0 = n ∧ n < UInt32.size ∧
          n + family.base < UInt32.size ∧ i.toNat = n + family.base) ∧
      (∀ f g n m, IfFamily.Names f n name → IfFamily.Names g m name → f = g ∧ n = m) ∧
      (∀ (family : IfFamily) n run zeros, name.toList = family.stem.toList ++ run →
        Denotes run n →
          classify (String.ofList (family.stem.toList ++ (List.replicate zeros '0' ++ run))) =
            classify name) ∧
      ∀ (family : IfFamily) rest c, name.toList = family.stem.toList ++ rest → c ∈ rest →
        isDigit c = false → (family = .ethernet → ¬ ['-', 'B', 'P'] <+: rest) →
          classify name = none := by
  refine ⟨classifyBy_eq digits name, fun family i => ?_, fun f g n m hf hg => hf.unique hg, ?_, ?_⟩
  · rw [classify_eq_some_iff]
    constructor
    · rintro ⟨n, ⟨run, hname, hne, hdigits, hvalue⟩, hlt, rfl⟩
      exact ⟨run, n, hname, hne, hdigits, hvalue, by omega, hlt, UInt32.toNat_ofNat_of_lt' hlt⟩
    · rintro ⟨run, n, hname, hne, hdigits, hvalue, -, hlt, hi⟩
      exact ⟨n, ⟨run, hname, hne, hdigits, hvalue⟩, hlt, by rw [← hi, UInt32.ofNat_toNat]⟩
  · intro family n run zeros hname hden
    exact classify_eq_of_names ⟨run, hname, hden⟩ (names_zeros hden zeros)
  · exact fun family rest c => classify_eq_none_of_not_digit

/-- The digits of ASCII and those of one other script. -/
def digitsOfTwo : DigitClass where
  holds c := isDigit c || (0x660 ≤ c.toNat && c.toNat ≤ 0x669)
  ascii c h := by rw [h, Bool.true_or]
  plus := by decide

/-- A pattern finds digits of the other script, which are not read. Seven has as many zeros as one
likes, and no point after it. -/
theorem classify_exact_of_two_scripts :
    IfFamily.ethernet.captured? digitsOfTwo "Ethernet\u0667" = some ['\u0667'] ∧
      classifyBy digitsOfTwo "Ethernet\u0667" = none ∧
      classifyBy digitsOfTwo "Ethernet7" = some (.ethernet, 8) ∧
      classify "Ethernet0007" = classify "Ethernet7" ∧ classify "Ethernet7.10" = none := by
  obtain ⟨hforeign, -, -, -, hother⟩ := classify_exact digitsOfTwo "Ethernet\u0667"
  obtain ⟨hby, hexact, -, hzeros, -⟩ := classify_exact digitsOfTwo "Ethernet7"
  obtain ⟨-, -, -, -, hpoint⟩ := classify_exact digitsOfTwo "Ethernet7.10"
  refine ⟨by decide, ?_, ?_, ?_, ?_⟩
  · rw [hforeign]
    exact hother .ethernet ['\u0667'] '\u0667' (by decide) (by decide) (by decide) (by decide)
  · obtain ⟨hne, hdigits, hvalue⟩ : Denotes ['7'] 7 := by decide
    rw [hby]
    exact (hexact .ethernet 8).2 ⟨['7'], 7, by decide, hne, hdigits, hvalue, by decide⟩
  · exact hzeros .ethernet 7 ['7'] 3 (by decide) (by decide)
  · exact hpoint .ethernet ['7', '.', '1', '0'] '.' (by decide) (by decide) (by decide) (by decide)

end IfName

end SwitchMib.Net
