/-!
# Errors of the network notations

* `NotationError`: which notation a text fails to follow.
* `NotationError.message`: its wording.
-/

namespace SwitchMib.Net
set_option autoImplicit false

/-- A text that is not in the notation of the wanted kind. -/
inductive NotationError where
  | mac (text : String)
  | ipv4 (text : String)
  | ipv4Block (text : String)
  | vlan (text : String)
  | interfaceName (text : String)
  deriving DecidableEq, Repr

/-- The wording of an error. It quotes the text as it was given. -/
def NotationError.message : NotationError → String
  | .mac text => "invalid MAC address format: " ++ text
  | .ipv4 text => "invalid IPv4 address format: " ++ text
  | .ipv4Block text => "invalid IPv4 prefix format: " ++ text
  | .vlan text => "invalid VLAN ID: " ++ text ++ " (must be 1-4094)"
  | .interfaceName text => "unrecognized interface name: " ++ text

end SwitchMib.Net
