import SwitchMib.Net.IfName
import SwitchMib.Store.Namespaces
import SwitchMib.Store.Schema

/-!
# Identity of the management ports

* `ManagementMaps`: management ports and their aliases.
* `ManagementMaps.load`: those of one namespace.
* `ManagementMaps.loadHost`: those of the device, which are the host's.
-/

namespace SwitchMib.Identity
set_option autoImplicit false

open Store

/-- What is known of management ports. -/
structure ManagementMaps where
  nameByIndex : Dict UInt32 String
  aliasByName : Dict String String
  deriving DecidableEq

namespace ManagementMaps

/-- No management ports. -/
def empty : ManagementMaps := ⟨.empty, .empty⟩

instance : Inhabited ManagementMaps := ⟨empty⟩

def portLead : String := Schema.tableLead Schema.managementPortConfig '|'

/-- Reads the management port with a key. -/
def addKey (ns : Namespace) (maps : ManagementMaps) (key : String) :
    Load AgentError ManagementMaps :=
  match Text.after? portLead key with
  | none => pure maps
  | some name =>
    match Net.IfName.index? name with
    | none => do
      Load.tell (.managementUnnumbered name)
      pure maps
    | some index => do
      let entry ← Load.ofRead (ns.getAll .config key)
      let shown := (entry.get? Schema.aliasField).getD name
      pure
        { nameByIndex := maps.nameByIndex.insert index name
          aliasByName := maps.aliasByName.insert name shown }

def load (ns : Namespace) : Load AgentError ManagementMaps := do
  let keys ← Load.ofRead (ns.keys .config (portLead ++ "*"))
  keys.foldlM (addKey ns) empty

def loadHost (n : Namespaces) : Load AgentError ManagementMaps := load n.host

end ManagementMaps

end SwitchMib.Identity
