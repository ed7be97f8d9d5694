/-!
# Numerals

Writing and reading of whole numbers.

* `decimal`, `hex`: the digits of a number without leading zeros.
* `readDigits`: the value of a run of digits under a limit, with the cause if it has none.
* `readNat`: an unsigned numeral, with or without a plus sign.
* `readInt`: a signed numeral of 32 bits.
* `decimal_digits`: every character that `decimal` writes is a digit.
-/

namespace SwitchMib.Text
set_option autoImplicit false

/-! ## Digits -/

/-- The digit with a value below 16, in lower case. -/
def digitChar (d : Nat) : Char :=
  if d < 10 then Char.ofNat (48 + d) else Char.ofNat (87 + d)

/-- The value of a digit in a base of at most 16. -/
def digitValue? (base : Nat) (c : Char) : Option Nat :=
  let n := c.toNat
  let v :=
    if 48 ≤ n ∧ n ≤ 57 then some (n - 48)
    else if 97 ≤ n ∧ n ≤ 102 then some (n - 87)
    else if 65 ≤ n ∧ n ≤ 70 then some (n - 55)
    else none
  v.filter (· < base)

def isDigit (c : Char) : Bool := 48 ≤ c.toNat && c.toNat ≤ 57

/-! ## Writing -/

/-- The digits of a number in a base of at least 2, without leading zeros. -/
def digitsIn (base : Nat) (n : Nat) : List Char :=
  if _h : n < base ∨ base < 2 then [digitChar n]
  else digitsIn base (n / base) ++ [digitChar (n % base)]
termination_by n
decreasing_by exact Nat.div_lt_self (by omega) (by omega)

/-- Decimal digits without leading zeros. -/
def decimalChars (n : Nat) : List Char := digitsIn 10 n

/-- Decimal text without leading zeros. -/
def decimal (n : Nat) : String := String.ofList (decimalChars n)

/-- Lower-case hexadecimal text without leading zeros. -/
def hex (n : Nat) : String := String.ofList (digitsIn 16 n)

def decimalInt : Int → String
  | .ofNat n => decimal n
  | .negSucc n => "-" ++ decimal (n + 1)

def byteChars (b : UInt8) : List Char := [digitChar (b.toNat / 16), digitChar (b.toNat % 16)]

/-! ## Reading -/

/-- Why a text is not a numeral of the wanted range. -/
inductive NumeralFault where
  | empty
  | invalidDigit
  | tooLarge
  | tooSmall
  deriving DecidableEq, Repr

def NumeralFault.message : NumeralFault → String
  | .empty => "cannot parse integer from empty string"
  | .invalidDigit => "invalid digit found in string"
  | .tooLarge => "number too large to fit in target type"
  | .tooSmall => "number too small to fit in target type"

/-- Reads digits from the left onto the value so far. The first digit that is none, or that lifts
the value above the limit, decides the fault. -/
def readDigits (base limit : Nat) : Nat → List Char → Except NumeralFault Nat
  | value, [] => .ok value
  | value, c :: cs =>
    match digitValue? base c with
    | none => .error .invalidDigit
    | some d =>
      let value := value * base + d
      if value ≤ limit then readDigits base limit value cs else .error .tooLarge

/-- An unsigned numeral of at most `limit`: digits, with or without a plus sign before them. -/
def readNatIn (base limit : Nat) : List Char → Except NumeralFault Nat
  | [] => .error .empty
  | ['+'] => .error .invalidDigit
  | '+' :: cs => readDigits base limit 0 cs
  | cs => readDigits base limit 0 cs

/-- An unsigned decimal numeral of at most `limit`. -/
def readNat (limit : Nat) (s : String) : Except NumeralFault Nat := readNatIn 10 limit s.toList

/-- An unsigned decimal numeral of 32 bits. -/
def readWord32 (s : String) : Except NumeralFault UInt32 :=
  (readNat (UInt32.size - 1) s).map UInt32.ofNat

/-- An unsigned decimal numeral of 64 bits. -/
def readWord64 (s : String) : Except NumeralFault UInt64 :=
  (readNat (UInt64.size - 1) s).map UInt64.ofNat

/-- A decimal numeral between `-2 ^ 31` and `2 ^ 31 - 1`. -/
def readInt32 (s : String) : Except NumeralFault Int32 :=
  match s.toList with
  | ['-'] => .error .invalidDigit
  | '-' :: cs =>
    match readDigits 10 0x80000000 0 cs with
    | .ok n => .ok (Int32.ofInt (-(n : Int)))
    | .error .tooLarge => .error .tooSmall
    | .error fault => .error fault
  | cs => (readNatIn 10 0x7fffffff cs).map fun n => Int32.ofInt n

/-! ## Small facts -/

theorem digitsIn_ne_nil (base n : Nat) : digitsIn base n ≠ [] := by
  unfold digitsIn
  split <;> simp

theorem isDigit_digitChar {d : Nat} (h : d < 10) : isDigit (digitChar d) = true := by
  have : ∀ d < 10, isDigit (digitChar d) = true := by decide
  exact this d h

theorem digitValue?_digitChar {d : Nat} (h : d < 16) : digitValue? 16 (digitChar d) = some d := by
  have : ∀ d < 16, digitValue? 16 (digitChar d) = some d := by decide
  exact this d h

theorem decimal_digits (n : Nat) : ∀ c ∈ decimalChars n, isDigit c = true := by
  induction n using Nat.strongRecOn with
  | _ n ih =>
    intro c hc
    unfold decimalChars digitsIn at hc
    split at hc
    · rename_i h
      simp only [List.mem_singleton] at hc
      subst hc
      exact isDigit_digitChar (by omega)
    · rename_i h
      rcases List.mem_append.1 hc with hc | hc
      · exact ih (n / 10) (Nat.div_lt_self (by omega) (by omega)) c hc
      · simp only [List.mem_singleton] at hc
        subst hc
        exact isDigit_digitChar (Nat.mod_lt _ (by omega))

end SwitchMib.Text
