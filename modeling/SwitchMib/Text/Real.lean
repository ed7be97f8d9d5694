import SwitchMib.Text.Numeral

/-!
# Decimal reals

Reading of sensor readings as binary floating-point numbers.

* `DecimalReal`: sign, digits and power of ten of a written number.
* `readDecimalReal`: the grammar: digits with an optional point and an optional exponent.
* `readFloat`: a written number, or one of the words for infinity and for no number, rounded to the
  nearest binary number.
-/

namespace SwitchMib.Text
set_option autoImplicit false

/-- A written real number: `± digits · 10 ^ exponent`. -/
structure DecimalReal where
  negative : Bool
  digits : Nat
  exponent : Int
  deriving DecidableEq, Repr

/-- A sign, if there is one, and what follows it. -/
def takeSign : List Char → Bool × List Char
  | '-' :: cs => (true, cs)
  | '+' :: cs => (false, cs)
  | cs => (false, cs)

def digitRunValue (cs : List Char) : Nat := cs.foldl (fun n c => n * 10 + (c.toNat - 48)) 0

/-- The exponent after the mantissa: nothing, or `e` with a signed run of digits to the end. -/
def readExponent : List Char → Option Int
  | [] => some 0
  | c :: cs =>
    if c = 'e' ∨ c = 'E' then
      let (negative, ds) := takeSign cs
      if ds.isEmpty || !ds.all isDigit then none
      else some (if negative then -(digitRunValue ds : Int) else digitRunValue ds)
    else none

/-- An unsigned mantissa with its exponent. There is at least one digit before or after the
point. -/
def readMantissa (cs : List Char) : Option (Nat × Int) :=
  let whole := cs.takeWhile isDigit
  let (part, rest) :=
    match cs.dropWhile isDigit with
    | '.' :: rest => (rest.takeWhile isDigit, rest.dropWhile isDigit)
    | rest => ([], rest)
  if whole.isEmpty && part.isEmpty then none
  else (readExponent rest).map fun e => (digitRunValue (whole ++ part), e - part.length)

def readDecimalReal (cs : List Char) : Option DecimalReal :=
  let (negative, rest) := takeSign cs
  (readMantissa rest).map fun (digits, exponent) => { negative, digits, exponent }

/-- The nearest binary number. Outside the range of the format the power of ten alone decides. -/
def DecimalReal.toFloat (x : DecimalReal) : Float :=
  let size := x.exponent + (decimalChars x.digits).length
  let magnitude :=
    if x.digits = 0 ∨ size < -400 then 0.0
    else if size > 400 then 1.0 / 0.0
    else Float.ofScientific x.digits (x.exponent < 0) x.exponent.natAbs
  if x.negative then -magnitude else magnitude

/-- A number as written, or a word for infinity or for no number, in any case of letters. -/
def readFloat (s : String) : Option Float :=
  let (negative, rest) := takeSign s.toList
  let word := String.ofList (rest.map Char.toLower)
  if word = "inf" ∨ word = "infinity" then some (if negative then -1.0 / 0.0 else 1.0 / 0.0)
  else if word = "nan" then some (0.0 / 0.0)
  else (readDecimalReal s.toList).map DecimalReal.toFloat

end SwitchMib.Text
