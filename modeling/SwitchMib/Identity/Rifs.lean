import SwitchMib.Store.Namespaces
import SwitchMib.Store.Schema

/-!
# Identity of the router interfaces

* `RifMaps`: which router interface sits on which port, both ways, by object identifier.
* `RifMaps.load`: the bindings of one namespace.
* `RifMaps.loadAll`: those of all members, a later one winning.
-/

namespace SwitchMib.Identity
set_option autoImplicit false

open Store

/-- Bindings of router interfaces to ports or groups, without the leads of the identifiers. -/
structure RifMaps where
  portByRif : Dict String String
  rifByPort : Dict String String
  deriving DecidableEq

namespace RifMaps

/-- No router interfaces. -/
def empty : RifMaps := ⟨.empty, .empty⟩

instance : Inhabited RifMaps := ⟨empty⟩

/-- The bindings of both, those of the second winning. -/
def merge (a b : RifMaps) : RifMaps where
  portByRif := a.portByRif.merge b.portByRif
  rifByPort := a.rifByPort.merge b.rifByPort

def bind (maps : RifMaps) (rif port : String) : RifMaps where
  portByRif := maps.portByRif.insert rif port
  rifByPort := maps.rifByPort.insert port rif

def rifLead : String := Schema.tableLead Schema.routerInterfaceType ':'

/-- Reads the binding of the router interface with a key. -/
def addKey (ns : Namespace) (maps : RifMaps) (key : String) : Load AgentError RifMaps :=
  match Text.after? rifLead key with
  | none => pure maps
  | some rif => do
    let entry ← Load.ofRead (ns.getAll .asic key)
    match entry.get? Schema.rifPort with
    | some port => pure (maps.bind (Schema.bareId rif) (Schema.bareId port))
    | none => pure maps

def load (ns : Namespace) : Load AgentError RifMaps := do
  let keys ← Load.ofRead (ns.keys .asic (rifLead ++ "*"))
  keys.foldlM (addKey ns) empty

def loadAll (n : Namespaces) : Load AgentError RifMaps :=
  n.members.foldlM (fun maps ns => do pure (maps.merge (← load ns))) empty

end RifMaps

end SwitchMib.Identity
