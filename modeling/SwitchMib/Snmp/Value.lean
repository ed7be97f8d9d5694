import SwitchMib.Net.Ipv4
import SwitchMib.Snmp.Oid

/-!
# Values of managed objects

* `Value`: a value with its SNMP type.
* `Value.typeName`, `Value.display`: how a walk prints it.
* `Value.ofIndex`: an unsigned number as an integer, if it is one.
-/

namespace SwitchMib.Snmp
set_option autoImplicit false

/-- A value with its SNMP type. -/
inductive Value where
  | integer (v : Int32)
  | octets (bytes : List UInt8)
  | objectId (oid : Oid)
  | ipAddress (address : Net.Ipv4)
  | counter32 (v : UInt32)
  | gauge32 (v : UInt32)
  | timeTicks (v : UInt32)
  | counter64 (v : UInt64)
  deriving DecidableEq

def utf8Octets (s : String) : List UInt8 := s.toUTF8.toList

/-- The text of octets in UTF-8, if they are one. -/
def utf8Text? (bytes : List UInt8) : Option String := String.fromUTF8? ⟨bytes.toArray⟩

def isControl (c : Char) : Bool := c.toNat < 0x20 || (0x7f ≤ c.toNat && c.toNat < 0xa0)

def upperByte (b : UInt8) : String := String.ofList ((Text.byteChars b).map Char.toUpper)

namespace Value

/-- `0.0`, which stands for no particular object. -/
def nullOid : Value := .objectId ⟨[0, 0]⟩

def text (s : String) : Value := .octets (utf8Octets s)

/-- An unsigned number that fits the signed range. -/
def ofIndex (n : Nat) : Option Value :=
  if n < 0x80000000 then some (.integer (Int32.ofNat n)) else none

theorem ofIndex_eq_some_iff {n : Nat} {v : Value} :
    ofIndex n = some v ↔ n < 0x80000000 ∧ v = .integer (Int32.ofNat n) := by
  rw [ofIndex]
  split
  · rename_i hfits
    rw [Option.some_inj, eq_comm, and_iff_right hfits]
  · rename_i hlarge
    simp [hlarge]

def typeName : Value → String
  | .integer _ => "INTEGER"
  | .octets _ => "STRING"
  | .objectId _ => "OID"
  | .ipAddress _ => "IpAddress"
  | .counter32 _ => "Counter32"
  | .gauge32 _ => "Gauge32"
  | .timeTicks _ => "Timeticks"
  | .counter64 _ => "Counter64"

/-- Octets print as a quoted text if they are one without control characters, else as
hexadecimal groups. -/
def displayOctets (bytes : List UInt8) : String :=
  match utf8Text? bytes with
  | some s =>
    if s.toList.any isControl then " ".intercalate (bytes.map upperByte) else "\"" ++ s ++ "\""
  | none => " ".intercalate (bytes.map upperByte)

/-- The value without its type. -/
def display : Value → String
  | .integer v => Text.decimalInt v.toInt
  | .octets bytes => displayOctets bytes
  | .objectId oid => oid.display
  | .ipAddress address => address.display
  | .counter32 v | .gauge32 v | .timeTicks v => Text.decimal v.toNat
  | .counter64 v => Text.decimal v.toNat

def describe (v : Value) : String := v.typeName ++ ": " ++ v.display

end Value

end SwitchMib.Snmp
