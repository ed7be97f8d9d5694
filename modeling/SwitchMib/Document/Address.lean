import SwitchMib.Document.Datum
import SwitchMib.Net.IfName
import SwitchMib.Net.Ipv4
import SwitchMib.Net.Mac
import SwitchMib.Net.Vlan

/-!
# Addresses in documents

MAC and IPv4 addresses are texts in a document, VLAN identifiers numbers, interface families
variants, and blocks records of a network and a length.

* `Mac.ofDatum?`, `Ipv4.ofDatum?`, `VlanId.ofDatum?`, `IfFamily.ofDatum?`, `Ipv4Block.ofDatum?`:
  reading.
* `Mac.toDatum` and the like: writing.
-/

namespace SwitchMib.Net
set_option autoImplicit false

open Document

def Mac.ofDatum? (d : Datum) : Option Mac := d.toText?.bind fun s => (Mac.parse s).toOption

def Mac.toDatum (m : Mac) : Datum := .text m.display

/-- Reads an IPv4 address, which must not have blanks around it here. -/
def Ipv4.ofDatum? (d : Datum) : Option Ipv4 := d.toText?.bind Ipv4.parseExact

def Ipv4.toDatum (x : Ipv4) : Datum := .text x.display

def VlanId.ofDatum? (d : Datum) : Option VlanId :=
  (d.toNat? UInt16.size).bind fun n => (VlanId.make (UInt16.ofNat n)).toOption

def VlanId.toDatum (v : VlanId) : Datum := .int v.id.toNat

def IfFamily.variantName : IfFamily → String
  | .ethernet => "Ethernet"
  | .backplane => "EthernetBackplane"
  | .portChannel => "PortChannel"
  | .vlan => "Vlan"
  | .management => "Mgmt"

def IfFamily.ofDatum? (dialect : Dialect) (d : Datum) : Option IfFamily :=
  (d.toVariant? dialect).bind fun name => all.find? fun family => family.variantName == name

def IfFamily.toDatum (family : IfFamily) : Datum := .text family.variantName

def Ipv4Block.ofDatum? (dialect : Dialect) (d : Datum) : Option Ipv4Block :=
  if d.isRecord dialect 2 then do
    let network ← d.required 0 "network" Ipv4.ofDatum?
    let length ← d.required 1 "prefix_len" fun d => (d.toNat? UInt8.size).map UInt8.ofNat
    pure { network, length }
  else none

def Ipv4Block.toDatum (x : Ipv4Block) : Datum :=
  .table [("network", x.network.toDatum), ("prefix_len", .int x.length.toNat)]

end SwitchMib.Net
