import SwitchMib.Mib.Attempt
import SwitchMib.Store.Namespaces

/-!
# What tables are built from

* `PowerSource`: what is known of the power supplies.
* `Outside`: everything outside the agent that a table may read.
-/

namespace SwitchMib.Mib
set_option autoImplicit false

/-- The power supplies, numbered from 1. -/
structure PowerSource where
  count : Except AgentError UInt32
  presence : Nat → Except AgentError Bool
  status : Nat → Except AgentError Bool

/-- The world that tables are built from. -/
structure Outside where
  namespaces : Store.Namespaces
  /-- The text of the neighbour file. -/
  neighbours : Except FileFault String
  /-- Power supplies that the platform reports itself. -/
  platform : PowerSource

end SwitchMib.Mib
