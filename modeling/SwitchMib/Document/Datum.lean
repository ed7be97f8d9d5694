import SwitchMib.Dict

/-!
# Documents

Settings come as documents of tables, lists and plain values, in more than one notation.

* `Datum`: a document or a part of one.
* `Dialect`: the two points in which the notations differ in what they take for a record.
* `Datum.isRecord`, `Datum.field?`: a record is a table of named fields, or a list of the fields in
  their order.
* `Datum.toNat?`, `Datum.toText?` and the like: plain values of a wanted kind.
-/

namespace SwitchMib.Document
set_option autoImplicit false

inductive Datum where
  | null
  | bool (b : Bool)
  | int (n : Int)
  /-- A number with a fraction or an exponent. No setting is one. -/
  | real
  | text (s : String)
  | list (items : List Datum)
  /-- Named parts, each name once. -/
  | table (entries : List (String × Datum))

/-- How a notation reads records and variants. -/
structure Dialect where
  /-- Whether a list may be longer than the record that it stands for. -/
  surplus : Bool
  /-- What may stand beside the name of a variant without parameters. -/
  isUnit : Datum → Bool

namespace Datum

/-- Whether a part can stand for a record of the given number of fields. -/
def isRecord (dialect : Dialect) (fields : Nat) : Datum → Bool
  | .table _ => true
  | .list items => dialect.surplus || items.length ≤ fields
  | _ => false

/-- The field of a record, by name in a table or by position in a list. -/
def field? (position : Nat) (name : String) : Datum → Option Datum
  | .table entries => entries.lookup name
  | .list items => items[position]?
  | _ => none

def toBool? : Datum → Option Bool
  | .bool b => some b
  | _ => none

def toText? : Datum → Option String
  | .text s => some s
  | _ => none

def toIntIn? (least greatest : Int) : Datum → Option Int
  | .int n => if least ≤ n ∧ n ≤ greatest then some n else none
  | _ => none

/-- A natural number below a size. -/
def toNat? (size : Nat) (d : Datum) : Option Nat :=
  (d.toIntIn? 0 (size - 1)).map Int.toNat

/-- A whole number of 64 bits with a sign. -/
def toInt64? (d : Datum) : Option Int := d.toIntIn? (-0x8000000000000000) 0x7fffffffffffffff

def toList? : Datum → Option (List Datum)
  | .list items => some items
  | _ => none

def toTable? : Datum → Option (List (String × Datum))
  | .table entries => some entries
  | _ => none

/-- Nothing, or a part of the wanted kind. -/
def toOptional? {α : Type} (read : Datum → Option α) : Datum → Option (Option α)
  | .null => some none
  | d => (read d).map some

/-- A variant without parameters: its name, or a table with its name beside an empty value. -/
def toVariant? (dialect : Dialect) : Datum → Option String
  | .text s => some s
  | .table [(name, payload)] => if dialect.isUnit payload then some name else none
  | _ => none

/-- A field that must be there. -/
def required {α : Type} (d : Datum) (position : Nat) (name : String) (read : Datum → Option α) :
    Option α :=
  (d.field? position name).bind read

/-- A field with a default. -/
def optional {α : Type} (d : Datum) (position : Nat) (name : String) (default : α)
    (read : Datum → Option α) : Option α :=
  match d.field? position name with
  | none => some default
  | some part => read part

/-- A table of parts of one kind, in the order of the names. -/
def toDict? {α : Type} (read : Datum → Option α) (d : Datum) : Option (Dict String α) := do
  let entries ← d.toTable?
  let parts ← entries.mapM fun (name, part) => (read part).map (name, ·)
  pure (Dict.empty.insertAll parts)

end Datum

end SwitchMib.Document
