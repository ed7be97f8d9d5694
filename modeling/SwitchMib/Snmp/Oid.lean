import SwitchMib.KeyOrder
import SwitchMib.Text.Blank
import SwitchMib.Text.Numeral

/-!
# Object identifiers

* `SubId`: the arcs below the root of a subtree.
* `Oid`: an object identifier, ordered arc by arc.
* `Oid.below?`, `Oid.append`: taking a root off and putting it back.
* `Oid.display`, `Oid.parse`: the dotted notation. One leading point is accepted.
-/

namespace SwitchMib.Snmp
set_option autoImplicit false

/-- The arcs of an object below the root of its subtree. -/
abbrev SubId := List UInt32

structure Oid where
  arcs : List UInt32
  deriving DecidableEq, Repr

namespace Oid

/-- The identifier without arcs, which comes before every other. -/
def root : Oid := ⟨[]⟩

instance : Inhabited Oid := ⟨root⟩

/-- Ordered arc by arc, a root before everything below it. -/
instance : KeyOrder Oid where
  before x y := lexBefore x.arcs y.arcs
  irrefl x := lexBefore_irrefl x.arcs
  trans := lexBefore_trans
  connex {x y} h1 h2 := by
    cases x; cases y
    exact congrArg Oid.mk (lexBefore_connex h1 h2)

/-- The identifier of `sub` below this one. -/
def append (x : Oid) (sub : SubId) : Oid := ⟨x.arcs ++ sub⟩

/-- The arcs below `top`, if `top` leads this identifier. -/
def below? (x top : Oid) : Option SubId := top.arcs.isPrefixOf? x.arcs

/-- Whether `top` leads this identifier. -/
def startsWith (x top : Oid) : Bool := top.arcs.isPrefixOf x.arcs

def display (x : Oid) : String :=
  ".".intercalate (x.arcs.map fun arc => Text.decimal arc.toNat)

/-- A text that is not a dotted identifier. -/
structure ParseError where
  text : String
  deriving DecidableEq, Repr

def ParseError.message (e : ParseError) : String := "invalid OID: " ++ e.text

def readArc (part : List Char) : Option UInt32 :=
  match Text.readNatIn 10 (UInt32.size - 1) part with
  | .ok n => some (UInt32.ofNat n)
  | .error _ => none

def parse (s : String) : Except ParseError Oid :=
  let body := (Text.dropLead "." s).toList
  if body.isEmpty then .error ⟨s⟩
  else match (Text.pieces '.' body).mapM readArc with
    | some arcs => .ok ⟨arcs⟩
    | none => .error ⟨s⟩

end Oid

end SwitchMib.Snmp
