import SwitchMib.Net.IfName
import SwitchMib.Store.Namespaces
import SwitchMib.Store.Schema

/-!
# Identity of the VLAN interfaces

* `VlanMaps`: VLAN router interfaces by index.
* `VlanMaps.load`: those of one namespace, found by name and type of router interface and entered in
  the order in which its hashes are visited.
* `VlanMaps.loadAll`: those of all members, a later one winning.
-/

namespace SwitchMib.Identity
set_option autoImplicit false

open Store

/-- What is known of VLAN interfaces. -/
structure VlanMaps where
  nameByIndex : Dict UInt32 String
  /-- Identifiers of router interfaces, without their lead. -/
  idByIndex : Dict UInt32 String
  deriving DecidableEq

namespace VlanMaps

/-- No VLAN interfaces. -/
def empty : VlanMaps := ⟨.empty, .empty⟩

instance : Inhabited VlanMaps := ⟨empty⟩

/-- The interfaces of both, those of the second winning. -/
def merge (a b : VlanMaps) : VlanMaps where
  nameByIndex := a.nameByIndex.merge b.nameByIndex
  idByIndex := a.idByIndex.merge b.idByIndex

def vlanIndex? (name : String) : Option UInt32 :=
  match Net.IfName.classify name with
  | some (.vlan, index) => some index
  | _ => none

/-- Enters one router interface, if it is of the VLAN type and has a VLAN name. -/
def addEntry (types : Fields) (maps : VlanMaps) (entry : String × String) : VlanMaps :=
  if types.get? entry.2 = some Schema.rifTypeVlan then
    match vlanIndex? entry.1 with
    | some index =>
      { nameByIndex := maps.nameByIndex.insert index entry.1
        idByIndex := maps.idByIndex.insert index (Schema.bareId entry.2) }
    | none => maps
  else maps

/-- The VLAN interfaces among router interfaces, visited as listed. -/
def ofEntries (types : Fields) (entries : List (String × String)) : VlanMaps :=
  entries.foldl (addEntry types) empty

def load (ns : Namespace) : Load AgentError VlanMaps := do
  let names ← Load.ofRead (ns.getAll .counters Schema.rifNameMap)
  let types ← Load.ofRead (ns.getAll .counters Schema.rifTypeMap)
  pure (ofEntries types (ns.visit.order names))

def loadAll (n : Namespaces) : Load AgentError VlanMaps :=
  n.members.foldlM (fun maps ns => do pure (maps.merge (← load ns))) empty

end VlanMaps

end SwitchMib.Identity
