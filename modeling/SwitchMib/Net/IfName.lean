import SwitchMib.Net.NotationError
import SwitchMib.Text.Blank
import SwitchMib.Text.Numeral

/-!
# Interface names and indexes

An interface is numbered by its name: the digits after the name of its family, added to a base of
the family, are its index.

* `IfFamily`: the families that carry an index.
* `IfName.classify`: family and index of a name.
* `IfName.index?`, `IfName.index`: the index alone, or why there is none.
-/

namespace SwitchMib.Net
set_option autoImplicit false

inductive IfFamily where
  /-- A front-panel port. -/
  | ethernet
  /-- A port between the chips of one device. -/
  | backplane
  /-- A group of aggregated links. -/
  | portChannel
  /-- A VLAN interface. -/
  | vlan
  /-- A management port. -/
  | management
  deriving DecidableEq, Repr

namespace IfFamily

/-- Every family, in the order in which names are tried. -/
def all : List IfFamily := [.ethernet, .backplane, .portChannel, .vlan, .management]

/-- The text before the number in the names of a family. -/
def stem : IfFamily → String
  | .ethernet => "Ethernet"
  | .backplane => "Ethernet-BP"
  | .portChannel => "PortChannel"
  | .vlan => "Vlan"
  | .management => "eth"

/-- What is added to the number of a name. -/
def base : IfFamily → Nat
  | .ethernet => 1
  | .backplane => 9000
  | .portChannel => 1000
  | .vlan => 2000
  | .management => 10000

/-- Whether the family has counters of its own in the port name map. -/
def isPort : IfFamily → Bool
  | .ethernet | .backplane => true
  | _ => false

/-- The index of a name of this family: its stem, then one or more digits whose number does not
leave the 32 bits of an index. -/
def index? (family : IfFamily) (name : String) : Option UInt32 :=
  match family.stem.toList.isPrefixOf? name.toList with
  | none => none
  | some [] => none
  | some digits =>
    match Text.readDigits 10 (UInt32.size - 1) 0 digits with
    | .ok n => if n + family.base < UInt32.size then some (UInt32.ofNat (n + family.base)) else none
    | .error _ => none

end IfFamily

namespace IfName

def classify (name : String) : Option (IfFamily × UInt32) :=
  IfFamily.all.findSome? fun family => (family.index? name).map (family, ·)

def index? (name : String) : Option UInt32 := (classify name).map (·.2)

/-- The index of an interface name, or the error that names it. -/
def index (name : String) : Except NotationError UInt32 :=
  match index? name with
  | some i => .ok i
  | none => .error (.interfaceName name)

end IfName

end SwitchMib.Net
