import SwitchMib.Identity.Lags
import SwitchMib.Identity.Management
import SwitchMib.Identity.Ports
import SwitchMib.Identity.Rifs
import SwitchMib.Identity.Vlans

/-!
# Identity of all interfaces

* `InterfaceMaps`: ports, groups, VLAN interfaces, router interfaces and management ports.
* `InterfaceMaps.load`: all of them at one time. An error in any part is an error of the whole.
* `InterfaceMaps.indexOf`: the index of an interface by name.
-/

namespace SwitchMib.Identity
set_option autoImplicit false

/-- Everything that identifies the rows of the interface table. -/
structure InterfaceMaps where
  ports : PortMaps
  lags : LagMaps
  vlans : VlanMaps
  rifs : RifMaps
  management : ManagementMaps
  deriving DecidableEq

namespace InterfaceMaps

/-- No interfaces. -/
def empty : InterfaceMaps := ⟨.empty, .empty, .empty, .empty, .empty⟩

instance : Inhabited InterfaceMaps := ⟨empty⟩

/-- Loads every part. -/
def load (n : Store.Namespaces) : Load AgentError InterfaceMaps := do
  let ports ← PortMaps.loadAll n
  let lags ← LagMaps.loadAll n
  let vlans ← VlanMaps.loadAll n
  let rifs ← RifMaps.loadAll n
  let management ← ManagementMaps.loadHost n
  pure { ports, lags, vlans, rifs, management }

def indexOf (maps : InterfaceMaps) (name : String) : Option UInt32 :=
  maps.ports.indexByName.get? name <|> Net.IfName.index? name

end InterfaceMaps

end SwitchMib.Identity
