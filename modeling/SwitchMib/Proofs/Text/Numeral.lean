import Mathlib.Data.List.Induction
import SwitchMib.Text.Numeral

/-!
# What numerals are read

* `Denotes cs n`: one or more decimal digits, and the number that they write.
* `readDigits_eq_ok_iff`: a run of digits is read as the number it writes, if that is under the
  limit. Reading gives up as soon as the value so far is above the limit, which loses nothing
  because further digits never bring it down.
* `readNatIn_eq_ok_iff`, `readNat_eq_ok_iff`: an unsigned numeral is such a run, with or without a
  plus sign.
* `denotes_and_plain_iff`: the digits that are written for a number are the only ones that write it
  without a leading zero.
-/

namespace SwitchMib.Text
set_option autoImplicit false

/-- One or more decimal digits that write `n`, with any number of leading zeros. -/
def Denotes (cs : List Char) (n : Nat) : Prop :=
  cs ≠ [] ∧ (∀ c ∈ cs, isDigit c = true) ∧ Nat.ofDigitChars 10 cs 0 = n

instance (cs : List Char) (n : Nat) : Decidable (Denotes cs n) :=
  decidable_of_iff ((!cs.isEmpty && cs.all isDigit && Nat.ofDigitChars 10 cs 0 == n) = true)
    (by simp [Denotes, and_assoc])

theorem Denotes.unique {cs : List Char} {n m : Nat} (hn : Denotes cs n) (hm : Denotes cs m) :
    n = m :=
  hn.2.2.symm.trans hm.2.2

theorem ofDigitChars_zeros (k : Nat) (cs : List Char) :
    Nat.ofDigitChars 10 (List.replicate k '0' ++ cs) 0 = Nat.ofDigitChars 10 cs 0 := by
  induction k with
  | zero => rfl
  | succ k ih =>
    have hzero : 10 * 0 + ('0'.toNat - '0'.toNat) = 0 := rfl
    rw [List.replicate_succ, List.cons_append, Nat.ofDigitChars_cons, hzero, ih]

/-- Leading zeros do not change the number. -/
theorem Denotes.zeros {cs : List Char} {n : Nat} (h : Denotes cs n) (k : Nat) :
    Denotes (List.replicate k '0' ++ cs) n := by
  obtain ⟨hne, hdigits, hvalue⟩ := h
  refine ⟨by simp [hne], fun c hc => ?_, (ofDigitChars_zeros k cs).trans hvalue⟩
  rcases List.mem_append.1 hc with hzero | hc
  · rw [(List.mem_replicate.1 hzero).2]
    decide
  · exact hdigits c hc

theorem digitValue?_ten (c : Char) :
    digitValue? 10 c = if isDigit c then some (c.toNat - 48) else none := by
  unfold digitValue? isDigit
  by_cases hdigit : 48 ≤ c.toNat ∧ c.toNat ≤ 57
  · have hlt : c.toNat - 48 < 10 := by omega
    simp [hdigit, hlt]
  · have hnone : ¬ (decide (48 ≤ c.toNat) && decide (c.toNat ≤ 57)) = true := by simpa using hdigit
    simp only [if_neg hdigit, if_neg hnone]
    -- the letters have values from ten on
    by_cases hlower : 97 ≤ c.toNat ∧ c.toNat ≤ 102
    · simp only [if_pos hlower, Option.filter_some, decide_eq_true_eq]
      rw [if_neg (by omega)]
    · by_cases hupper : 65 ≤ c.toNat ∧ c.toNat ≤ 70
      · simp only [if_neg hlower, if_pos hupper, Option.filter_some, decide_eq_true_eq]
        rw [if_neg (by omega)]
      · simp [hlower, hupper]

theorem le_ofDigitChars (cs : List Char) (v : Nat) : v ≤ Nat.ofDigitChars 10 cs v := by
  induction cs generalizing v with
  | nil => simp
  | cons c cs ih =>
    rw [Nat.ofDigitChars_cons]
    have h := ih (10 * v + (c.toNat - '0'.toNat))
    omega

theorem readDigits_eq_ok_iff {limit v n : Nat} {cs : List Char} (hv : v ≤ limit) :
    readDigits 10 limit v cs = .ok n ↔
      (∀ c ∈ cs, isDigit c = true) ∧ Nat.ofDigitChars 10 cs v = n ∧ n ≤ limit := by
  induction cs generalizing v with
  | nil =>
    simp only [readDigits, Except.ok.injEq, List.not_mem_nil, false_implies, implies_true,
      true_and, Nat.ofDigitChars_nil]
    constructor
    · rintro rfl
      exact ⟨rfl, hv⟩
    · exact fun h => h.1
  | cons c cs ih =>
    rw [readDigits, digitValue?_ten, List.forall_mem_cons, Nat.ofDigitChars_cons]
    cases hc : isDigit c with
    | false => simp
    | true =>
      have hzero : '0'.toNat = 48 := rfl
      simp only [if_true, true_and, hzero, Nat.mul_comm v 10]
      by_cases hle : 10 * v + (c.toNat - 48) ≤ limit
      · rw [if_pos hle, ih hle]
      · rw [if_neg hle]
        have hgrow := le_ofDigitChars cs (10 * v + (c.toNat - 48))
        constructor
        · intro h
          cases h
        · rintro ⟨-, hn, hlimit⟩
          omega

theorem readDigits_zero_eq_ok_iff {limit n : Nat} {cs : List Char} (hcs : cs ≠ []) :
    readDigits 10 limit 0 cs = .ok n ↔ Denotes cs n ∧ n ≤ limit := by
  rw [readDigits_eq_ok_iff (Nat.zero_le limit), Denotes]
  simp [hcs, and_assoc]

/-- Where something else than a digit stands anywhere, nothing is read. -/
theorem exists_readDigits_eq_error (limit : Nat) {cs : List Char} {c : Char} (hmem : c ∈ cs)
    (hc : isDigit c = false) : ∃ fault, readDigits 10 limit 0 cs = .error fault := by
  cases hread : readDigits 10 limit 0 cs with
  | error fault => exact ⟨fault, rfl⟩
  | ok n =>
    have hdigit := ((readDigits_eq_ok_iff (Nat.zero_le limit)).1 hread).1 c hmem
    rw [hc] at hdigit
    cases hdigit

theorem readDigits_le {base limit v n : Nat} {cs : List Char} (hv : v ≤ limit)
    (h : readDigits base limit v cs = .ok n) : n ≤ limit := by
  induction cs generalizing v with
  | nil =>
    obtain rfl := Except.ok.inj h
    exact hv
  | cons c cs ih =>
    rw [readDigits] at h
    split at h
    · cases h
    · dsimp only at h
      split at h
      · rename_i hle
        exact ih hle h
      · cases h

/-- Whatever is read is under the limit. -/
theorem readNatIn_le {base limit n : Nat} {cs : List Char}
    (h : readNatIn base limit cs = .ok n) : n ≤ limit := by
  unfold readNatIn at h
  split at h
  · cases h
  · cases h
  · exact readDigits_le (Nat.zero_le limit) h
  · exact readDigits_le (Nat.zero_le limit) h

theorem readNatIn_eq_readDigits {base limit : Nat} {c : Char} {cs : List Char} (hc : c ≠ '+') :
    readNatIn base limit (c :: cs) = readDigits base limit 0 (c :: cs) := by
  unfold readNatIn
  split
  · rename_i hnil
    cases hnil
  · rename_i hplus
    exact absurd (List.cons.inj hplus).1 hc
  · rename_i hplus
    exact absurd (List.cons.inj hplus).1 hc
  · rfl

theorem readNatIn_eq_ok_iff {limit n : Nat} {text : List Char} :
    readNatIn 10 limit text = .ok n ↔
      ∃ cs, (text = cs ∨ text = '+' :: cs) ∧ Denotes cs n ∧ n ≤ limit := by
  have hplus : isDigit '+' = false := by decide
  unfold readNatIn
  split
  · -- nothing at all
    simp only [reduceCtorEq, false_iff]
    rintro ⟨cs, hcs | hcs, hden, -⟩
    · exact hden.1 hcs.symm
    · cases hcs
  · simp only [reduceCtorEq, false_iff]
    rintro ⟨cs, rfl | hcs, hden, -⟩
    · have := hden.2.1 '+' (by simp)
      simp [hplus] at this
    · cases hcs
      exact hden.1 rfl
  · rename_i cs hne
    have hcs : cs ≠ [] := by
      rintro rfl
      exact hne rfl
    rw [readDigits_zero_eq_ok_iff hcs]
    constructor
    · exact fun h => ⟨cs, Or.inr rfl, h⟩
    · rintro ⟨ds, rfl | hds, hden, hlimit⟩
      · have := hden.2.1 '+' (by simp)
        simp [hplus] at this
      · cases hds
        exact ⟨hden, hlimit⟩
  · rename_i hnil _ hsigned
    have hcs : text ≠ [] := fun h => hnil h
    rw [readDigits_zero_eq_ok_iff hcs]
    constructor
    · exact fun h => ⟨text, Or.inl rfl, h⟩
    · rintro ⟨ds, rfl | hds, hden, hlimit⟩
      · exact ⟨hden, hlimit⟩
      · exact absurd hds (hsigned ds)

theorem readNat_eq_ok_iff {limit n : Nat} {s : String} :
    readNat limit s = .ok n ↔
      ∃ cs, (s.toList = cs ∨ s.toList = '+' :: cs) ∧ Denotes cs n ∧ n ≤ limit :=
  readNatIn_eq_ok_iff

/-! ## Numerals without leading zeros -/

/-- The first digit is no zero, unless it is the only one. -/
def Plain (cs : List Char) : Prop := cs.head? = some '0' → cs.length = 1

theorem decimalChars_eq (n : Nat) :
    decimalChars n =
      if n < 10 then [digitChar n] else decimalChars (n / 10) ++ [digitChar (n % 10)] := by
  rw [decimalChars, digitsIn]
  by_cases hn : n < 10
  · rw [dif_pos (Or.inl hn), if_pos hn]
  · rw [dif_neg (by omega), if_neg hn, decimalChars]

theorem decimalChars_ne_nil (n : Nat) : decimalChars n ≠ [] := digitsIn_ne_nil 10 n

theorem toNat_digitChar {d : Nat} (h : d < 10) : (digitChar d).toNat = 48 + d := by
  have hall : ∀ d < 10, (digitChar d).toNat = 48 + d := by decide
  exact hall d h

theorem digitChar_of_isDigit {c : Char} (h : isDigit c = true) : digitChar (c.toNat - 48) = c := by
  simp only [isDigit, Bool.and_eq_true, decide_eq_true_eq] at h
  have hsum : 48 + (c.toNat - 48) = c.toNat := by omega
  rw [digitChar, if_pos (by omega), hsum, Char.ofNat_toNat]

theorem ofDigitChars_concat (cs : List Char) (c : Char) :
    Nat.ofDigitChars 10 (cs ++ [c]) 0 = 10 * Nat.ofDigitChars 10 cs 0 + (c.toNat - 48) := by
  rw [Nat.ofDigitChars_append]
  rfl

theorem denotes_decimalChars (n : Nat) : Denotes (decimalChars n) n := by
  refine ⟨decimalChars_ne_nil n, decimal_digits n, ?_⟩
  induction n using Nat.strongRecOn with
  | _ n ih =>
    rw [decimalChars_eq]
    by_cases hn : n < 10
    · rw [if_pos hn, ← List.nil_append [digitChar n], ofDigitChars_concat, Nat.ofDigitChars_nil,
        toNat_digitChar hn]
      omega
    · have hdigit : n % 10 < 10 := Nat.mod_lt n (by omega)
      rw [if_neg hn, ofDigitChars_concat, ih (n / 10) (by omega), toNat_digitChar hdigit]
      omega

theorem decimalChars_inj {n m : Nat} (h : decimalChars n = decimalChars m) : n = m := by
  have hn := (denotes_decimalChars n).2.2
  rwa [h, (denotes_decimalChars m).2.2, eq_comm] at hn

theorem head?_concat {cs : List Char} (h : cs ≠ []) (c : Char) :
    (cs ++ [c]).head? = cs.head? := by
  obtain ⟨d, ds, rfl⟩ := List.exists_cons_of_ne_nil h
  rfl

theorem head?_decimalChars {n : Nat} (hn : 0 < n) : (decimalChars n).head? ≠ some '0' := by
  induction n using Nat.strongRecOn with
  | _ n ih =>
    rw [decimalChars_eq]
    by_cases hlt : n < 10
    · rw [if_pos hlt]
      intro hzero
      have hnat := congrArg Char.toNat (Option.some.inj hzero)
      rw [toNat_digitChar hlt] at hnat
      have hcode : '0'.toNat = 48 := rfl
      omega
    · rw [if_neg hlt, head?_concat (decimalChars_ne_nil (n / 10))]
      exact ih (n / 10) (by omega) (by omega)

theorem plain_decimalChars (n : Nat) : Plain (decimalChars n) := by
  intro hzero
  cases n with
  | zero => rw [decimalChars_eq, if_pos (by omega), List.length_singleton]
  | succ n => exact absurd hzero (head?_decimalChars (Nat.succ_pos n))

theorem eq_decimalChars_of_denotes {cs : List Char} {n : Nat} (h : Denotes cs n)
    (hplain : Plain cs) : cs = decimalChars n := by
  obtain ⟨hne, hdigits, rfl⟩ := h
  induction cs using List.reverseRecOn with
  | nil => exact absurd rfl hne
  | append_singleton cs c ih =>
    have hc : isDigit c = true := hdigits c (by simp)
    have hvalue : c.toNat - 48 < 10 := by
      simp only [isDigit, Bool.and_eq_true, decide_eq_true_eq] at hc
      omega
    rw [ofDigitChars_concat, decimalChars_eq]
    by_cases hnil : cs = []
    · subst hnil
      rw [if_pos (by simpa using hvalue)]
      simp [digitChar_of_isDigit hc]
    · have hhead : cs.head? ≠ some '0' := by
        intro hzero
        have hone := hplain ((head?_concat hnil c).trans hzero)
        have hlength := List.length_pos_iff.2 hnil
        rw [List.length_append, List.length_singleton] at hone
        omega
      have hinit := ih (fun hzero => absurd hzero hhead) hnil
        (fun d hd => hdigits d (List.mem_append_left _ hd))
      have hpos : Nat.ofDigitChars 10 cs 0 ≠ 0 := by
        intro hzero
        rw [hzero, decimalChars_eq] at hinit
        rw [hinit] at hhead
        exact hhead rfl
      have hdiv : (10 * Nat.ofDigitChars 10 cs 0 + (c.toNat - 48)) / 10 =
          Nat.ofDigitChars 10 cs 0 := by omega
      have hmod : (10 * Nat.ofDigitChars 10 cs 0 + (c.toNat - 48)) % 10 = c.toNat - 48 := by omega
      rw [if_neg (by omega), hdiv, hmod, ← hinit, digitChar_of_isDigit hc]

theorem denotes_and_plain_iff {cs : List Char} {n : Nat} :
    Denotes cs n ∧ Plain cs ↔ cs = decimalChars n := by
  constructor
  · exact fun h => eq_decimalChars_of_denotes h.1 h.2
  · rintro rfl
    exact ⟨denotes_decimalChars n, plain_decimalChars n⟩

end SwitchMib.Text
