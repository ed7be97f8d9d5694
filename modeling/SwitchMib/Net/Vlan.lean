import SwitchMib.KeyOrder
import SwitchMib.Net.NotationError
import SwitchMib.Text.Blank
import SwitchMib.Text.Numeral

/-!
# VLAN identifiers

* `VlanId`: a number between 1 and 4094.
* `VlanId.parse`: a decimal numeral, with or without `Vlan` before it, with blanks around it.
-/

namespace SwitchMib.Net
set_option autoImplicit false

/-- A VLAN identifier. The reserved numbers 0 and 4095 are excluded. -/
structure VlanId where
  id : UInt16
  valid : 1 ≤ id.toNat ∧ id.toNat ≤ 4094
  deriving DecidableEq

namespace VlanId

/-- The identifier with a number, if the number is not reserved. -/
def make (id : UInt16) : Except NotationError VlanId :=
  if h : 1 ≤ id.toNat ∧ id.toNat ≤ 4094 then .ok ⟨id, h⟩
  else .error (.vlan (Text.decimal id.toNat))

def arc (v : VlanId) : UInt32 := v.id.toUInt32

def display (v : VlanId) : String := Text.decimal v.id.toNat

/-- Reads a number, or a VLAN interface name. -/
def parse (s : String) : Except NotationError VlanId :=
  match Text.readNat (UInt16.size - 1) (Text.dropLead "Vlan" (Text.trim s)) with
  | .ok n => make (UInt16.ofNat n)
  | .error _ => .error (.vlan s)

instance : KeyOrder VlanId := KeyOrder.ofNat (fun v => v.id.toNat) fun {a b} h => by
  cases a; cases b; simp_all [UInt16.toNat_inj]

end VlanId

end SwitchMib.Net
