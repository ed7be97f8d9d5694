import SwitchMib.Snmp.Oid
import SwitchMib.Store.Database

/-!
# Errors of the agent

Every error is a cause; the wording of all of them is here.

* `FileFault`, `ConfigFault`, `Incoherence`, `PowerFault`: the causes outside the store.
* `AgentError`: any error of the agent, with its wording `AgentError.message`.
* `AgentError.isFatal`: whether the table that raised it must not be served at all.
* `Failure`: how an operation may end early, by an error or by an arithmetic overflow.
-/

namespace SwitchMib
set_option autoImplicit false

/-- Why a file cannot be read as text. -/
inductive FileFault where
  | notFound
  | isDirectory
  | notDirectory
  | notText
  | stated (text : String)
  deriving DecidableEq, Repr

def FileFault.message : FileFault → String
  | .notFound => "No such file or directory (os error 2)"
  | .isDirectory => "Is a directory (os error 21)"
  | .notDirectory => "Not a directory (os error 20)"
  | .notText => "stream did not contain valid UTF-8"
  | .stated text => text

/-- Why a configuration is refused. -/
inductive ConfigFault where
  /-- The file is not a document of the agent's settings. -/
  | malformedSettings (path : String)
  /-- The file is not a document of database endpoints. -/
  | malformedEndpoints (path : String)
  /-- A database names an instance that the file does not list. -/
  | undefinedInstance (path instanceName : String)
  /-- The file lists no namespace. -/
  | noIncludes (path : String)
  | noNamespace
  | zeroPort (namespaceName : String)
  | zeroFrequency
  | zeroReinitRate
  /-- An overlay root that is not an object identifier, found on validation. -/
  | badOverlay (text : String)
  /-- An overlay root that is not an object identifier, found on start. -/
  | unreadableOverlay (text : String) (cause : Snmp.Oid.ParseError)
  /-- Two tables whose subtrees overlap. -/
  | overlap (name : String) (top : Snmp.Oid) (otherName : String) (otherTop : Snmp.Oid)
  | stated (text : String)
  deriving DecidableEq, Repr

def ConfigFault.message : ConfigFault → String
  | .malformedSettings path => "Failed to parse config file " ++ path ++ ": not a settings document"
  | .malformedEndpoints path => "Failed to parse " ++ path ++ ": not an endpoint document"
  | .undefinedInstance path name => path ++ ": instance '" ++ name ++ "' not defined"
  | .noIncludes path => path ++ " lists no namespaces"
  | .noNamespace => "at least one namespace must be configured"
  | .zeroPort ns => "namespace '" ++ ns ++ "': port must be > 0"
  | .zeroFrequency => "frequency_secs must be > 0"
  | .zeroReinitRate => "reinit_rate must be > 0"
  | .badOverlay text => "invalid overlay prefix '" ++ text ++ "'"
  | .unreadableOverlay text cause =>
    "invalid overlay prefix '" ++ text ++ "': " ++ cause.message
  | .overlap name top otherName otherTop =>
    name ++ " at " ++ top.display ++ " overlaps " ++ otherName ++ " at " ++ otherTop.display
  | .stated text => text

/-- What a namespace lacks. -/
inductive Incoherence where
  | noPorts (namespaceName : String)
  | noQueues (namespaceName : String)
  | noQueueCounters (namespaceName : String)
  | stated (text : String)
  deriving DecidableEq, Repr

def Incoherence.message : Incoherence → String
  | .noPorts ns =>
    "no interfaces match Ethernet<N> or Ethernet-BP<N> in namespace '" ++ ns ++ "'"
  | .noQueues ns => "no queues in namespace '" ++ ns ++ "'"
  | .noQueueCounters ns => "no queue counters in namespace '" ++ ns ++ "'"
  | .stated text => text

/-- Why the state of the power supplies is not known. -/
inductive PowerFault where
  /-- The entry under `key` has no number of supplies. -/
  | noCount (key : String)
  | stated (text : String)
  deriving DecidableEq, Repr

/-- The wording of a fault of the power supplies. -/
def PowerFault.message : PowerFault → String
  | .noCount key => key ++ " has no valid psu_num"
  | .stated text => text

inductive AgentError where
  | store (cause : Store.StoreError)
  /-- The store holds nothing usable under `table`. -/
  | incoherent (table : String) (cause : Incoherence)
  | config (cause : ConfigFault)
  | power (cause : PowerFault)
  | file (cause : FileFault)
  deriving DecidableEq, Repr

namespace AgentError

def message : AgentError → String
  | .store cause => "Database error: " ++ cause.message
  | .incoherent table cause => table ++ " is incoherent: " ++ cause.message
  | .config cause => "Configuration error: " ++ cause.message
  | .power cause => "Power status error: " ++ cause.message
  | .file cause => "IO error: " ++ cause.message

/-- The table that raised a fatal error must not be served. -/
def isFatal : AgentError → Bool
  | .incoherent _ _ | .config _ => true
  | _ => false

end AgentError

/-- How an operation ends early. An overflow is no error that anything can handle: whatever is under
way ends with it. -/
inductive Failure where
  | error (cause : AgentError)
  | overflow
  deriving DecidableEq, Repr

/-- Only an error can be fatal to a table alone. -/
def Failure.isFatal : Failure → Bool
  | .error cause => cause.isFatal
  | .overflow => false

end SwitchMib
