import SwitchMib.Proofs.Net.Addresses

/-!
# Which texts are read as MAC addresses

An address is written as six groups of hexadecimal digits, with a colon between each two or a hyphen
between each two. A group is read as a numeral, though, and of the two characters that it may have
the first may be a plus sign, so that more is read than is written.

* `Mac.HexDigit`, `Mac.GroupDigits`, `Mac.GroupNumeral`: a digit, a group in digits, and one that may
  have a sign.
* `Mac.Grouped`: six groups with blanks around them.
* `Mac.parse_eq_ok_iff`: what is read are six groups of numerals.
* `Mac.grouped_digits_iff`: those without a plus sign are groups of digits.
* `Mac.parse_grouped_iff`: on which texts just groups of digits are read.
-/

namespace SwitchMib.Net.Mac
set_option autoImplicit false

open Text

/-! ## Notations -/

/-- The hexadecimal digit with a value, in lower or upper case. -/
def HexDigit (c : Char) (v : Nat) : Prop :=
  "0123456789abcdef".toList[v]? = some c ∨ "0123456789ABCDEF".toList[v]? = some c

instance (c : Char) (v : Nat) : Decidable (HexDigit c v) := inferInstanceAs (Decidable (_ ∨ _))

/-- One or two hexadecimal digits that write an octet. -/
inductive GroupDigits : List Char → UInt8 → Prop
  | one {c : Char} {o : UInt8} (hc : HexDigit c o.toNat) : GroupDigits [c] o
  | two {c d : Char} {high low : Nat} {o : UInt8} (hc : HexDigit c high) (hd : HexDigit d low)
      (ho : o.toNat = 16 * high + low) : GroupDigits [c, d] o

/-- The digits of a group, or one digit with a plus sign before it. -/
inductive GroupNumeral : List Char → UInt8 → Prop
  | digits {cs : List Char} {o : UInt8} (h : GroupDigits cs o) : GroupNumeral cs o
  | signed {c : Char} {o : UInt8} (hc : HexDigit c o.toNat) : GroupNumeral ['+', c] o

/-- The octets in groups, with colons or with hyphens between them and any blanks around them. -/
def Grouped (Group : List Char → UInt8 → Prop) (s : String) (m : Mac) : Prop :=
  ∃ sep groups, (sep = ':' ∨ sep = '-') ∧ List.Forall₂ Group groups m.octets ∧
    Padded ([sep].intercalate groups) s.toList

/-! ## Digits -/

section Digit
variable {c : Char} {v : Nat}

theorem HexDigit.lt (h : HexDigit c v) : v < 16 := by
  have hlength : "0123456789abcdef".toList.length = 16 ∧
      "0123456789ABCDEF".toList.length = 16 := by decide
  rcases h with h | h
  · rw [← hlength.1]
    exact (List.getElem?_eq_some_iff.1 h).1
  · rw [← hlength.2]
    exact (List.getElem?_eq_some_iff.1 h).1

/-- What is true of each of the twenty-two characters is true of a digit. -/
theorem HexDigit.forall {p : Char → Bool}
    (hall : "0123456789abcdefABCDEF".toList.all p = true) (h : HexDigit c v) : p c = true := by
  have hlisted : ("0123456789abcdef".toList ++ "0123456789ABCDEF".toList).all
      "0123456789abcdefABCDEF".toList.contains = true := by decide
  have hmem : c ∈ "0123456789abcdef".toList ++ "0123456789ABCDEF".toList :=
    List.mem_append.2 (h.imp List.mem_of_getElem? List.mem_of_getElem?)
  exact List.all_eq_true.1 hall c (List.contains_iff_mem.1 (List.all_eq_true.1 hlisted c hmem))

theorem digitValue?_of_hexDigit (h : HexDigit c v) : digitValue? 16 c = some v := by
  have hlower : ∀ v < 16,
      "0123456789abcdef".toList[v]?.all (fun d => digitValue? 16 d = some v) = true := by decide
  have hupper : ∀ v < 16,
      "0123456789ABCDEF".toList[v]?.all (fun d => digitValue? 16 d = some v) = true := by decide
  rcases h with hc | hc
  · have hread := hlower v (HexDigit.lt (Or.inl hc))
    rw [hc] at hread
    exact of_decide_eq_true hread
  · have hread := hupper v (HexDigit.lt (Or.inr hc))
    rw [hc] at hread
    exact of_decide_eq_true hread

theorem hexDigit_of_digitValue? (h : digitValue? 16 c = some v) : HexDigit c v := by
  have hdecimal : ∀ d < 10, "0123456789abcdef".toList[d]? = some (Char.ofNat (48 + d)) := by decide
  have hlower : ∀ d < 6, "0123456789abcdef".toList[10 + d]? = some (Char.ofNat (97 + d)) := by
    decide
  have hupper : ∀ d < 6, "0123456789ABCDEF".toList[10 + d]? = some (Char.ofNat (65 + d)) := by
    decide
  have hchar : ∀ {n : Nat}, n = c.toNat → some (Char.ofNat n) = some c := by
    rintro n rfl
    rw [Char.ofNat_toNat]
  unfold digitValue? at h
  obtain ⟨hv, -⟩ := Option.filter_eq_some_iff.1 h
  split at hv
  · obtain rfl := Option.some.inj hv
    exact Or.inl ((hdecimal _ (by omega)).trans (hchar (by omega)))
  · split at hv
    · have hvalue : v = 10 + (c.toNat - 97) := by
        have := Option.some.inj hv
        omega
      rw [hvalue]
      exact Or.inl ((hlower _ (by omega)).trans (hchar (by omega)))
    · split at hv
      · have hvalue : v = 10 + (c.toNat - 65) := by
          have := Option.some.inj hv
          omega
        rw [hvalue]
        exact Or.inr ((hupper _ (by omega)).trans (hchar (by omega)))
      · cases hv

theorem digitValue?_eq_some_iff : digitValue? 16 c = some v ↔ HexDigit c v :=
  ⟨hexDigit_of_digitValue?, digitValue?_of_hexDigit⟩

end Digit

/-! ## Groups -/

theorem readDigits_cons_eq_ok_iff {limit v n : Nat} {c : Char} {cs : List Char} :
    readDigits 16 limit v (c :: cs) = .ok n ↔
      ∃ d, HexDigit c d ∧ v * 16 + d ≤ limit ∧ readDigits 16 limit (v * 16 + d) cs = .ok n := by
  simp only [readDigits, ← digitValue?_eq_some_iff]
  cases digitValue? 16 c with
  | none => simp
  | some d =>
    by_cases hle : v * 16 + d ≤ limit
    · simp [hle]
    · simp [hle]

theorem readDigits_one_eq_ok_iff {c : Char} {o : UInt8} :
    readDigits 16 255 0 [c] = .ok o.toNat ↔ GroupDigits [c] o := by
  rw [readDigits_cons_eq_ok_iff]
  constructor
  · rintro ⟨d, hd, -, hvalue⟩
    have hsum : 0 * 16 + d = o.toNat := Except.ok.inj hvalue
    obtain rfl : d = o.toNat := by omega
    exact .one hd
  · rintro ⟨hc⟩
    have hlt := o.toNat_lt
    have hsum : 0 * 16 + o.toNat = o.toNat := by omega
    exact ⟨_, hc, by omega, congrArg Except.ok hsum⟩

theorem readDigits_two_eq_ok_iff {c d : Char} {o : UInt8} :
    readDigits 16 255 0 [c, d] = .ok o.toNat ↔ GroupDigits [c, d] o := by
  simp only [readDigits_cons_eq_ok_iff]
  constructor
  · rintro ⟨high, hc, -, low, hd, -, hvalue⟩
    have hsum : (0 * 16 + high) * 16 + low = o.toNat := Except.ok.inj hvalue
    exact .two hc hd (by omega)
  · intro h
    cases h with
    | @two _ _ high low _ hc hd ho =>
      have hlt := o.toNat_lt
      have hsum : (0 * 16 + high) * 16 + low = o.toNat := by omega
      exact ⟨high, hc, by omega, low, hd, by omega, congrArg Except.ok hsum⟩

/-- A group of one or two characters is read by its digits, unless a plus sign leads it. -/
theorem readNatIn_eq_ok_iff_groupNumeral {cs : List Char} {o : UInt8} (hlength : cs.length ≤ 2) :
    readNatIn 16 255 cs = .ok o.toNat ↔ GroupNumeral cs o := by
  match cs with
  | [] =>
    constructor
    · intro h
      cases h
    · rintro ⟨⟨⟩⟩
  | [c] =>
    by_cases hplus : c = '+'
    · subst hplus
      constructor
      · intro h
        cases h
      · rintro ⟨⟨hc⟩⟩
        exact absurd (hc.forall (p := fun d => d != '+') (by decide)) (by decide)
    · rw [readNatIn_eq_readDigits hplus, readDigits_one_eq_ok_iff]
      refine ⟨.digits, ?_⟩
      rintro ⟨h⟩
      exact h
  | [c, d] =>
    by_cases hplus : c = '+'
    · subst hplus
      have hread : readNatIn 16 255 ['+', d] = readDigits 16 255 0 [d] := rfl
      rw [hread, readDigits_one_eq_ok_iff]
      constructor
      · rintro ⟨hd⟩
        exact .signed hd
      · intro h
        cases h with
        | digits h =>
          cases h with
          | two hc hd ho => exact absurd (hc.forall (p := fun e => e != '+') (by decide)) (by decide)
        | signed hd => exact .one hd
    · rw [readNatIn_eq_readDigits hplus, readDigits_two_eq_ok_iff]
      refine ⟨.digits, ?_⟩
      rintro (h | hd)
      · exact h
      · exact absurd rfl hplus
  | _ :: _ :: _ :: cs => simp at hlength

theorem size_cons (c : Char) (cs : List Char) :
    (String.ofList (c :: cs)).utf8ByteSize = c.utf8Size + (String.ofList cs).utf8ByteSize := by
  have hcons : String.ofList (c :: cs) = String.singleton c ++ String.ofList cs := by
    rw [← String.toList_inj]
    simp
  rw [hcons, String.utf8ByteSize_append, String.utf8ByteSize_singleton]

theorem length_le_size (cs : List Char) : cs.length ≤ (String.ofList cs).utf8ByteSize := by
  induction cs with
  | nil => simp
  | cons c cs ih =>
    have hpos := c.utf8Size_pos
    rw [size_cons, List.length_cons]
    omega

/-- The characters of the groups' numerals. -/
def isGroupChar (c : Char) : Bool := "0123456789abcdefABCDEF+".toList.contains c

theorem isGroupChar_of_hexDigit {c : Char} {v : Nat} (h : HexDigit c v) : isGroupChar c = true :=
  h.forall (by decide)

theorem GroupNumeral.chars {cs : List Char} {o : UInt8} (h : GroupNumeral cs o) :
    (cs.length = 1 ∨ cs.length = 2) ∧ ∀ c ∈ cs, isGroupChar c = true := by
  rcases h with ⟨hc | ⟨hc, hd, -⟩⟩ | hc
  · exact ⟨Or.inl rfl, by simp [isGroupChar_of_hexDigit hc]⟩
  · exact ⟨Or.inr rfl, by simp [isGroupChar_of_hexDigit hc, isGroupChar_of_hexDigit hd]⟩
  · have hplus : isGroupChar '+' = true := by decide
    exact ⟨Or.inr rfl, by simp [isGroupChar_of_hexDigit hc, hplus]⟩

theorem forall_of_isGroupChar {p : Char → Bool}
    (hall : "0123456789abcdefABCDEF+".toList.all p = true) {c : Char} (h : isGroupChar c = true) :
    p c = true :=
  List.all_eq_true.1 hall c (List.contains_iff_mem.1 h)

theorem size_of_groupChars {cs : List Char} (h : ∀ c ∈ cs, isGroupChar c = true) :
    (String.ofList cs).utf8ByteSize = cs.length := by
  induction cs with
  | nil => rfl
  | cons c cs ih =>
    obtain ⟨hc, hcs⟩ := List.forall_mem_cons.1 h
    have hone := forall_of_isGroupChar (p := fun d => d.utf8Size == 1) (by decide) hc
    rw [size_cons, ih hcs, eq_of_beq hone, List.length_cons]
    omega

theorem readGroup_eq_some_iff_read {cs : List Char} {o : UInt8} :
    readGroup cs = some o ↔ (1 ≤ (String.ofList cs).utf8ByteSize ∧
      (String.ofList cs).utf8ByteSize ≤ 2) ∧ readNatIn 16 255 cs = .ok o.toNat := by
  simp only [readGroup]
  by_cases hsize : 1 ≤ (String.ofList cs).utf8ByteSize ∧ (String.ofList cs).utf8ByteSize ≤ 2
  · rw [if_pos hsize, and_iff_right hsize]
    cases hread : readNatIn 16 255 cs with
    | error fault => simp
    | ok n =>
      have hnat : (UInt8.ofNat n).toNat = n :=
        UInt8.toNat_ofNat_of_lt' (Nat.lt_of_le_of_lt (readNatIn_le hread) (by decide))
      rw [Option.some.injEq, Except.ok.injEq, ← UInt8.toNat_inj, hnat]
  · rw [if_neg hsize]
    simp [hsize]

/-- A group is read just where it is a numeral, and as its value. -/
theorem readGroup_eq_some_iff {cs : List Char} {o : UInt8} :
    readGroup cs = some o ↔ GroupNumeral cs o := by
  rw [readGroup_eq_some_iff_read]
  constructor
  · rintro ⟨⟨-, hsize⟩, hread⟩
    exact (readNatIn_eq_ok_iff_groupNumeral ((length_le_size cs).trans hsize)).1 hread
  · intro h
    obtain ⟨hlength, hchars⟩ := h.chars
    rw [size_of_groupChars hchars, readNatIn_eq_ok_iff_groupNumeral (by omega)]
    exact ⟨by omega, h⟩

/-! ## Reading -/

theorem ofOctets?_eq_some_iff {octets : List UInt8} {m : Mac} :
    ofOctets? octets = some m ↔ octets = m.octets := by
  constructor
  · intro h
    unfold ofOctets? at h
    split at h
    · rw [← Option.some.inj h]
      rfl
    · cases h
  · rintro rfl
    rfl

theorem parse_eq_ok_iff_forall₂ {s : String} {m : Mac} :
    parse s = .ok m ↔
      List.Forall₂ GroupNumeral (pieces (separator s) (trimChars s.toList)) m.octets := by
  have hread : ((pieces (separator s) (trimChars s.toList)).mapM readGroup).bind ofOctets? = some m ↔
      List.Forall₂ GroupNumeral (pieces (separator s) (trimChars s.toList)) m.octets := by
    simp only [Option.bind_eq_some_iff, mapM_eq_some_iff_forall₂, readGroup_eq_some_iff,
      ofOctets?_eq_some_iff, exists_eq_right]
  rw [← hread]
  simp only [parse]
  cases ((pieces (separator s) (trimChars s.toList)).mapM readGroup).bind ofOctets? <;> simp

section Groups
variable {groups : List (List Char)} {m : Mac}

theorem chars_of_groups (h : List.Forall₂ GroupNumeral groups m.octets) :
    ∀ group ∈ groups, ∀ c ∈ group, isGroupChar c = true :=
  ((List.forall₂_and_left groups m.octets).1 (h.imp fun _ _ hgroup =>
    ⟨hgroup.chars.2, hgroup⟩)).1

/-- A character that is neither the separator nor one of numerals is not between the blanks. -/
theorem not_mem_of_groups (h : List.Forall₂ GroupNumeral groups m.octets) {sep c : Char}
    (hsep : c ≠ sep) (hc : isGroupChar c = false) : c ∉ [sep].intercalate groups := by
  rw [mem_intercalate_iff hsep]
  rintro ⟨group, hgroup, hmem⟩
  rw [chars_of_groups h group hgroup c hmem] at hc
  cases hc

theorem not_blank_of_groups (h : List.Forall₂ GroupNumeral groups m.octets) {sep : Char}
    (hsep : sep = ':' ∨ sep = '-') : ∀ c ∈ [sep].intercalate groups, isBlank c = false := by
  refine forall_mem_intercalate ?_ fun group hgroup c hc => ?_
  · rcases hsep with rfl | rfl <;> rfl
  · have hnot := forall_of_isGroupChar (p := fun d => !isBlank d) (by decide)
      (chars_of_groups h group hgroup c hc)
    simpa using hnot

/-- There is more than one group, so the separator does occur. -/
theorem separator_mem_of_groups (h : List.Forall₂ GroupNumeral groups m.octets) (sep : Char) :
    sep ∈ [sep].intercalate groups := by
  cases h with
  | cons _ hrest =>
    cases hrest with
    | cons _ _ =>
      rw [List.intercalate_cons_cons]
      simp

theorem separator_eq {s : String} {sep : Char} (h : List.Forall₂ GroupNumeral groups m.octets)
    (hsep : sep = ':' ∨ sep = '-') (hs : Padded ([sep].intercalate groups) s.toList) :
    separator s = sep := by
  have hhyphen : '-' ∈ s.toList ↔ '-' ∈ [sep].intercalate groups := mem_padded_iff hs (by decide)
  rw [separator]
  rcases hsep with rfl | rfl
  · have hnone : '-' ∉ s.toList := by
      rw [hhyphen]
      exact not_mem_of_groups h (by decide) (by decide)
    rw [if_neg (by simpa using hnone)]
  · have hmem : '-' ∈ s.toList := hhyphen.2 (separator_mem_of_groups h '-')
    rw [if_pos (by simpa using hmem)]

end Groups

/-- A text is read just where it is six groups of numerals, and as the octets that they write. -/
theorem parse_eq_ok_iff {s : String} {m : Mac} : parse s = .ok m ↔ Grouped GroupNumeral s m := by
  rw [parse_eq_ok_iff_forall₂]
  constructor
  · intro h
    have hsep : separator s = ':' ∨ separator s = '-' := by
      rw [separator]
      split
      · exact Or.inr rfl
      · exact Or.inl rfl
    obtain ⟨-, -, hcore⟩ := pieces_eq_iff.1
      (rfl : pieces (separator s) (trimChars s.toList) = pieces (separator s) (trimChars s.toList))
    exact ⟨_, _, hsep, h, hcore ▸ padded_trimChars s.toList⟩
  · rintro ⟨sep, groups, hsep, h, hs⟩
    have hcut : pieces sep ([sep].intercalate groups) = groups := by
      refine pieces_eq_iff.2 ⟨?_, fun group hgroup hmem => ?_, rfl⟩
      · rintro rfl
        cases h
      · have hchar := chars_of_groups h group hgroup sep hmem
        rcases hsep with rfl | rfl <;> cases hchar
    rw [separator_eq h hsep hs, trimChars_of_padded hs (not_blank_of_groups h hsep), hcut]
    exact h

theorem text_of_parse_eq_error {s : String} {e : NotationError} (h : parse s = .error e) :
    e = .mac s := by
  simp only [parse] at h
  split at h
  · cases h
  · exact (Except.error.inj h).symm

/-! ## Signs -/

theorem groupDigits_iff {cs : List Char} {o : UInt8} :
    GroupDigits cs o ↔ '+' ∉ cs ∧ GroupNumeral cs o := by
  have hdigit : ∀ {c : Char} {v : Nat}, HexDigit c v → '+' ≠ c := by
    rintro _ v hc rfl
    exact absurd (hc.forall (p := fun d => d != '+') (by decide)) (by decide)
  constructor
  · intro h
    refine ⟨?_, .digits h⟩
    cases h with
    | one hc => simp [hdigit hc]
    | two hc hd _ => simp [hdigit hc, hdigit hd]
  · rintro ⟨hplus, h⟩
    cases h with
    | digits h => exact h
    | signed hc => exact absurd List.mem_cons_self hplus

theorem grouped_digits_iff {s : String} {m : Mac} :
    Grouped GroupDigits s m ↔ '+' ∉ s.toList ∧ Grouped GroupNumeral s m := by
  have hdigits : GroupDigits = fun cs o => '+' ∉ cs ∧ GroupNumeral cs o := by
    funext cs o
    exact propext groupDigits_iff
  have hgroups : ∀ sep groups, (sep = ':' ∨ sep = '-') →
      Padded ([sep].intercalate groups) s.toList →
        (List.Forall₂ GroupDigits groups m.octets ↔
          '+' ∉ s.toList ∧ List.Forall₂ GroupNumeral groups m.octets) := by
    intro sep groups hsep hs
    have hne : '+' ≠ sep := by
      rintro rfl
      rcases hsep with h | h <;> cases h
    rw [hdigits, List.forall₂_and_left, mem_padded_iff hs (by decide), mem_intercalate_iff hne]
    simp only [not_exists, not_and]
  constructor
  · rintro ⟨sep, groups, hsep, h, hs⟩
    obtain ⟨hplus, h⟩ := (hgroups sep groups hsep hs).1 h
    exact ⟨hplus, sep, groups, hsep, h, hs⟩
  · rintro ⟨hplus, sep, groups, hsep, h, hs⟩
    exact ⟨sep, groups, hsep, (hgroups sep groups hsep hs).2 ⟨hplus, h⟩, hs⟩

/-- Whatever is read are six groups of numerals, and anything else is an error that names the text.
Just groups of digits are read, unless a plus sign takes the place of a digit. -/
theorem parse_grouped_iff (s : String) :
    (∀ m, parse s = .ok m ↔ Grouped GroupNumeral s m) ∧
      (∀ e, parse s = .error e ↔ e = .mac s ∧ ∀ m, ¬ Grouped GroupNumeral s m) ∧
      ((∀ m, parse s = .ok m ↔ Grouped GroupDigits s m) ↔
        ('+' ∈ s.toList → ∀ m, ¬ Grouped GroupNumeral s m)) := by
  have hok : ∀ m, parse s = .ok m ↔ Grouped GroupNumeral s m := fun _ => parse_eq_ok_iff
  exact ⟨hok, eq_error_iff_of_eq_ok_iff hok fun _ => text_of_parse_eq_error,
    eq_ok_iff_stricter_iff hok fun _ => grouped_digits_iff⟩

theorem not_grouped_of_plus :
    let m : Mac := ⟨0x01, 0x22, 0x33, 0x44, 0x55, 0x66⟩
    parse "+1:22:33:44:55:66" = .ok m ∧ ¬ Grouped GroupDigits "+1:22:33:44:55:66" m ∧
      ¬ ∀ s m, (parse s = .ok m ↔ Grouped GroupDigits s m) := by
  intro m
  have hread : parse "+1:22:33:44:55:66" = .ok m := by decide
  have hnot : ¬ Grouped GroupDigits "+1:22:33:44:55:66" m := fun h =>
    (grouped_digits_iff.1 h).1 (by decide)
  exact ⟨hread, hnot, fun hexact => hnot ((hexact "+1:22:33:44:55:66" m).1 hread)⟩

end SwitchMib.Net.Mac
