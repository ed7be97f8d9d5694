import SwitchMib.KeyOrder
import SwitchMib.Net.NotationError
import SwitchMib.Text.Blank
import SwitchMib.Text.Numeral

/-!
# IPv4 addresses and blocks

* `Ipv4`: four octets.
* `Ipv4.parse`: four decimal octets without leading zeros, parted by points, with blanks around
  them.
* `Ipv4Block`: the address block of a network address and the length of its common leading bits.
* `Ipv4Block.make`: the block around an address, which clears the bits after the common ones.
* `Ipv4Block.parse`: an address, a slash and a length.
-/

namespace SwitchMib.Net
set_option autoImplicit false

structure Ipv4 where
  a : UInt8
  b : UInt8
  c : UInt8
  d : UInt8
  deriving DecidableEq, Repr

namespace Ipv4

/-- `0.0.0.0`. -/
def unspecified : Ipv4 := ⟨0, 0, 0, 0⟩

/-- The octets from the most significant one. -/
def octets (x : Ipv4) : List UInt8 := [x.a, x.b, x.c, x.d]

/-- The address with the given octets, if there are four. -/
def ofOctets? : List UInt8 → Option Ipv4
  | [a, b, c, d] => some ⟨a, b, c, d⟩
  | _ => none

@[simp] theorem ofOctets?_octets (x : Ipv4) : ofOctets? x.octets = some x := rfl

/-- One arc per octet. -/
def arcs (x : Ipv4) : List UInt32 := x.octets.map UInt8.toUInt32

/-- The address as one number of 32 bits. -/
def toNat (x : Ipv4) : Nat :=
  ((x.a.toNat * 256 + x.b.toNat) * 256 + x.c.toNat) * 256 + x.d.toNat

/-- The address of the low 32 bits of a number. -/
def ofNat (n : Nat) : Ipv4 :=
  ⟨UInt8.ofNat (n / 16777216), UInt8.ofNat (n / 65536), UInt8.ofNat (n / 256), UInt8.ofNat n⟩

def display (x : Ipv4) : String :=
  ".".intercalate (x.octets.map fun o => Text.decimal o.toNat)

/-- One octet: one to three digits, no leading zero, at most 255. -/
def readOctet (cs : List Char) : Option UInt8 :=
  if cs.length = 0 ∨ 3 < cs.length ∨ (cs.head? = some '0' ∧ 1 < cs.length) ∨ !cs.all Text.isDigit
  then none
  else match Text.readDigits 10 255 0 cs with
    | .ok n => some (UInt8.ofNat n)
    | .error _ => none

/-- Reads the dotted notation without blanks. -/
def parseExact (s : String) : Option Ipv4 :=
  ((Text.pieces '.' s.toList).mapM readOctet).bind ofOctets?

/-- Reads the dotted notation with blanks around it. -/
def parse (s : String) : Except NotationError Ipv4 :=
  match parseExact (Text.trim s) with
  | some x => .ok x
  | none => .error (.ipv4 s)

instance : KeyOrder Ipv4 where
  before x y := lexBefore x.octets y.octets
  irrefl x := lexBefore_irrefl x.octets
  trans := lexBefore_trans
  connex h1 h2 := by
    have h := congrArg ofOctets? (lexBefore_connex h1 h2)
    simpa using h

end Ipv4

/-! ## Blocks -/

/-- A network address with the number of leading bits that its block has in common. Values read
from a document are taken as they stand; `make` is the way to one whose host bits are clear. -/
structure Ipv4Block where
  network : Ipv4
  length : UInt8
  deriving DecidableEq, Repr

namespace Ipv4Block

def everything : Ipv4Block := ⟨.unspecified, 0⟩

/-- The number of bits after the common ones, by which the mask is shifted. It is a machine word:
beyond 32 it wraps around. -/
def hostBits (length : UInt8) : UInt32 := 32 - length.toUInt32

/-- The mask of a length. A word cannot be shifted by all of its bits, so the mask of no bits at all
stands apart. -/
def maskBits (length : UInt8) : UInt32 :=
  if length = 0 then 0 else 0xffffffff <<< hostBits length

/-- The network address and length parted by a slash. -/
def display (x : Ipv4Block) : String := x.network.display ++ "/" ++ Text.decimal x.length.toNat

/-- The block of the addresses that agree with `address` in the first `length` bits. -/
def make (address : Ipv4) (length : UInt8) : Except NotationError Ipv4Block :=
  if length.toNat ≤ 32 then
    .ok ⟨.ofNat (address.toNat &&& (maskBits length).toNat), length⟩
  else .error (.ipv4Block (display ⟨address, length⟩))

def netmask (x : Ipv4Block) : Ipv4 := .ofNat (maskBits x.length).toNat

/-- Whether the block holds every address. -/
def isDefault (x : Ipv4Block) : Bool := x.length == 0

/-- Reads an address, a slash and a length. -/
def parse (s : String) : Except NotationError Ipv4Block :=
  match Text.cutLast '/' s with
  | none => .error (.ipv4Block s)
  | some (address, length) =>
    match Ipv4.parse address, Text.readNat 255 length with
    | .ok address, .ok length => make address (UInt8.ofNat length)
    | _, _ => .error (.ipv4Block s)

end Ipv4Block

end SwitchMib.Net
