import SwitchMib.Document.Datum
import SwitchMib.Text.Real

/-!
# JSON

* `Json`: the tree of a JSON text as it is written. Texts are kept with their escapes resolved one
  by one, so a text that escapes half of a surrogate pair is a tree too.
* `Json.parse`: the tree of a whole text, nested as deep as it may be. A reader that passes over a
  part does not mind how deep that is.
* `Json.toText?`, `JsonNumber.toInt?`: the meaning of a text and of a number.
* `Json.toDatum?`: the document, if every part has a meaning and the nesting is not too deep.
-/

namespace SwitchMib.Document
set_option autoImplicit false

/-- One character of a written text: itself, or a code unit given by number. -/
inductive JsonUnit where
  | char (c : Char)
  | code (n : Nat)
  deriving DecidableEq

/-- A number as written. `integral` says that it has neither a fraction nor an exponent. -/
structure JsonNumber where
  real : Text.DecimalReal
  integral : Bool
  deriving DecidableEq

namespace JsonNumber

/-- A number is whole if it is written as one and fits 64 bits with or without a sign. Negative
zero is no whole number. -/
def toInt? (n : JsonNumber) : Option Int :=
  if !n.integral then none
  else if n.real.negative then
    if 0 < n.real.digits ∧ n.real.digits ≤ 0x8000000000000000 then some (-(n.real.digits : Int))
    else none
  else if n.real.digits < UInt64.size then some n.real.digits
  else none

/-- Whether a number lies in the range of binary floating-point numbers. -/
def inRange (n : JsonNumber) : Bool := !n.real.toFloat.isInf

end JsonNumber

inductive Json where
  | null
  | bool (b : Bool)
  | number (n : JsonNumber)
  | text (units : List JsonUnit)
  | array (items : List Json)
  | object (members : List (List JsonUnit × Json))

namespace Json

/-! ## Reading -/

def skipBlanks (cs : List Char) : List Char :=
  cs.dropWhile fun c => c == ' ' || c == '\t' || c == '\n' || c == '\r'

def fourDigits : List Char → Option (Nat × List Char)
  | a :: b :: c :: d :: rest => do
    let a ← Text.digitValue? 16 a
    let b ← Text.digitValue? 16 b
    let c ← Text.digitValue? 16 c
    let d ← Text.digitValue? 16 d
    pure (((a * 16 + b) * 16 + c) * 16 + d, rest)
  | _ => none

/-- What a one-letter escape stands for. -/
def shortEscape : Char → Option Char
  | '"' => some '"'
  | '\\' => some '\\'
  | '/' => some '/'
  | 'b' => some '\x08'
  | 'f' => some '\x0c'
  | 'n' => some '\n'
  | 'r' => some '\r'
  | 't' => some '\t'
  | _ => none

/-- The rest of a text after its opening quote. At most `fuel` units are read. -/
def readUnits : Nat → List Char → Option (List JsonUnit × List Char)
  | 0, _ => none
  | _ + 1, [] => none
  | _ + 1, '"' :: rest => some ([], rest)
  | fuel + 1, '\\' :: 'u' :: rest => do
    let (n, rest) ← fourDigits rest
    let (units, rest) ← readUnits fuel rest
    pure (.code n :: units, rest)
  | fuel + 1, '\\' :: c :: rest => do
    let c ← shortEscape c
    let (units, rest) ← readUnits fuel rest
    pure (.char c :: units, rest)
  | fuel + 1, c :: rest =>
    if c.toNat < 0x20 || c == '\\' then none
    else do
      let (units, rest) ← readUnits fuel rest
      pure (.char c :: units, rest)

/-- A fraction: nothing, or a point with digits. -/
def readFraction : List Char → Option (Option (List Char) × List Char)
  | '.' :: rest =>
    let digits := rest.takeWhile Text.isDigit
    if digits.isEmpty then none else some (some digits, rest.dropWhile Text.isDigit)
  | rest => some (none, rest)

/-- An exponent: nothing, or `e` with a signed run of digits. -/
def readPower : List Char → Option (Option Int × List Char)
  | [] => some (none, [])
  | c :: rest =>
    if c == 'e' || c == 'E' then
      let (negative, rest) := Text.takeSign rest
      let digits := rest.takeWhile Text.isDigit
      if digits.isEmpty then none
      else
        let n : Int := Text.digitRunValue digits
        some (some (if negative then -n else n), rest.dropWhile Text.isDigit)
    else some (none, c :: rest)

/-- A number. Its whole part has no leading zero. -/
def readNumber (cs : List Char) : Option (JsonNumber × List Char) := do
  let (negative, cs) := match cs with
    | '-' :: rest => (true, rest)
    | cs => (false, cs)
  let whole := cs.takeWhile Text.isDigit
  if whole.isEmpty || (whole.head? == some '0' && 1 < whole.length) then none
  let (fraction, rest) ← readFraction (cs.dropWhile Text.isDigit)
  let (power, rest) ← readPower rest
  let part := fraction.getD []
  let real : Text.DecimalReal :=
    { negative
      digits := Text.digitRunValue (whole ++ part)
      exponent := power.getD 0 - part.length }
  pure (⟨real, fraction.isNone && power.isNone⟩, rest)

mutual

/-- A value after blanks. Every call spends fuel. -/
def readValue : Nat → List Char → Option (Json × List Char)
  | 0, _ => none
  | fuel + 1, cs =>
    match skipBlanks cs with
    | 'n' :: 'u' :: 'l' :: 'l' :: rest => some (.null, rest)
    | 't' :: 'r' :: 'u' :: 'e' :: rest => some (.bool true, rest)
    | 'f' :: 'a' :: 'l' :: 's' :: 'e' :: rest => some (.bool false, rest)
    | '"' :: rest => (readUnits (rest.length + 1) rest).map fun (units, rest) => (.text units, rest)
    | '[' :: rest =>
      match skipBlanks rest with
      | ']' :: rest => some (.array [], rest)
      | rest => (readItems fuel rest).map fun (items, rest) => (.array items, rest)
    | '\x7b' :: rest =>
      match skipBlanks rest with
      | '\x7d' :: rest => some (.object [], rest)
      | rest => (readMembers fuel rest).map fun (members, rest) => (.object members, rest)
    | rest => (readNumber rest).map fun (n, rest) => (.number n, rest)

/-- The items of an array up to its end. -/
def readItems : Nat → List Char → Option (List Json × List Char)
  | 0, _ => none
  | fuel + 1, cs => do
    let (item, rest) ← readValue fuel cs
    match skipBlanks rest with
    | ']' :: rest => pure ([item], rest)
    | ',' :: rest => do
      let (items, rest) ← readItems fuel rest
      pure (item :: items, rest)
    | _ => none

/-- The members of an object up to its end. -/
def readMembers : Nat → List Char → Option (List (List JsonUnit × Json) × List Char)
  | 0, _ => none
  | fuel + 1, cs =>
    match skipBlanks cs with
    | '"' :: rest => do
      let (name, rest) ← readUnits (rest.length + 1) rest
      match skipBlanks rest with
      | ':' :: rest => do
        let (value, rest) ← readValue fuel rest
        match skipBlanks rest with
        | '\x7d' :: rest => pure ([(name, value)], rest)
        | ',' :: rest => do
          let (members, rest) ← readMembers fuel rest
          pure ((name, value) :: members, rest)
        | _ => none
      | _ => none
    | _ => none

end

def parse (s : String) : Option Json := do
  let cs := s.toList
  let (value, rest) ← readValue (2 * cs.length + 2) cs
  if (skipBlanks rest).isEmpty then pure value else none

/-! ## Meaning -/

/-- The characters of a written text. Two code units of a surrogate pair are one character; half of
a pair is none. -/
def unitChars : List JsonUnit → Option (List Char)
  | [] => some []
  | .char c :: rest => (unitChars rest).map (c :: ·)
  | [.code n] => if 0xd800 ≤ n ∧ n < 0xe000 then none else some [Char.ofNat n]
  | .code n :: .code m :: rest =>
    if 0xd800 ≤ n ∧ n < 0xdc00 then
      if 0xdc00 ≤ m ∧ m < 0xe000 then
        (unitChars rest).map (Char.ofNat (0x10000 + (n - 0xd800) * 0x400 + (m - 0xdc00)) :: ·)
      else none
    else if 0xdc00 ≤ n ∧ n < 0xe000 then none
    else (unitChars (.code m :: rest)).map (Char.ofNat n :: ·)
  | .code n :: .char c :: rest =>
    if 0xd800 ≤ n ∧ n < 0xe000 then none
    else (unitChars (.char c :: rest)).map (Char.ofNat n :: ·)

def unitText? (units : List JsonUnit) : Option String := (unitChars units).map String.ofList

/-- The text of a tree that is one. -/
def toText? : Json → Option String
  | .text units => unitText? units
  | _ => none

mutual

/-- The document of a tree whose nesting is at most `depth`. -/
def datumIn (depth : Nat) : Json → Option Datum
  | .null => some .null
  | .bool b => some (.bool b)
  | .number n =>
    match n.toInt? with
    | some i => some (.int i)
    | none => if n.inRange then some .real else none
  | .text units => (unitText? units).map .text
  | .array items => if depth = 0 then none else (itemData (depth - 1) items).map .list
  | .object members => if depth = 0 then none else (memberData (depth - 1) members).map .table

def itemData (depth : Nat) : List Json → Option (List Datum)
  | [] => some []
  | item :: rest => do
    let d ← datumIn depth item
    let ds ← itemData depth rest
    pure (d :: ds)

/-- The documents of members. Of several with one name the last counts. -/
def memberData (depth : Nat) : List (List JsonUnit × Json) → Option (List (String × Datum))
  | [] => some []
  | (units, value) :: rest => do
    let name ← unitText? units
    let d ← datumIn depth value
    let ds ← memberData depth rest
    pure (if (ds.lookup name).isSome then ds else (name, d) :: ds)

end

/-- The deepest nesting that is read. -/
def maxDepth : Nat := 127

def toDatum? (j : Json) : Option Datum := datumIn maxDepth j

def parseDatum (s : String) : Option Datum := (parse s).bind toDatum?

/-- In this notation a list is exactly as long as its record at most, and nothing but null stands
beside the name of a variant. -/
def dialect : Dialect where
  surplus := false
  isUnit
    | .null => true
    | _ => false

end Json

end SwitchMib.Document
