import SwitchMib.KeyOrder
import SwitchMib.Net.NotationError
import SwitchMib.Text.Blank
import SwitchMib.Text.Numeral

/-!
# MAC addresses

* `Mac`: six octets.
* `Mac.display`: six groups of two lower-case digits, parted by colons.
* `Mac.parse`: six groups of one or two hexadecimal digits, all parted by colons or all by hyphens,
  with blanks around them.
-/

namespace SwitchMib.Net
set_option autoImplicit false

structure Mac where
  a : UInt8
  b : UInt8
  c : UInt8
  d : UInt8
  e : UInt8
  f : UInt8
  deriving DecidableEq, Repr

namespace Mac

/-- The octets in the order of transmission. -/
def octets (m : Mac) : List UInt8 := [m.a, m.b, m.c, m.d, m.e, m.f]

/-- The address with the given octets, if there are six. -/
def ofOctets? : List UInt8 → Option Mac
  | [a, b, c, d, e, f] => some ⟨a, b, c, d, e, f⟩
  | _ => none

@[simp] theorem ofOctets?_octets (m : Mac) : ofOctets? m.octets = some m := rfl

/-- One arc per octet. -/
def arcs (m : Mac) : List UInt32 := m.octets.map UInt8.toUInt32

def display (m : Mac) : String :=
  String.ofList ((m.octets.map Text.byteChars).intersperse [':'] |>.flatten)

/-- The octet of one group. A group is one or two characters that read as a hexadecimal numeral. -/
def readGroup (group : List Char) : Option UInt8 :=
  let size := (String.ofList group).utf8ByteSize
  if 1 ≤ size ∧ size ≤ 2 then
    match Text.readNatIn 16 255 group with
    | .ok n => some (UInt8.ofNat n)
    | .error _ => none
  else none

/-- The separator of a text is the hyphen if one occurs in it, else the colon. -/
def separator (s : String) : Char := if s.toList.contains '-' then '-' else ':'

/-- Reads the notation with one or two digits a group. -/
def parse (s : String) : Except NotationError Mac :=
  let groups := Text.pieces (separator s) (Text.trimChars s.toList)
  match (groups.mapM readGroup).bind ofOctets? with
  | some mac => .ok mac
  | none => .error (.mac s)

instance : KeyOrder Mac where
  before x y := lexBefore x.octets y.octets
  irrefl x := lexBefore_irrefl x.octets
  trans := lexBefore_trans
  connex h1 h2 := by
    have h := congrArg ofOctets? (lexBefore_connex h1 h2)
    simpa using h

end Mac

end SwitchMib.Net
