import SwitchMib.Agent

/-!
# The command line

* `CommandLine`: what the program is asked for.
* `CommandLine.parse`: the request in a list of arguments.
* `Level.ofName?`, `Event.passes`: which messages are shown.
* `NamespaceSettings.summary`: a namespace on one line.
* `Config.unconnected`: a device to which there is no connection.
* `listing`: a walk, one object a line.
-/

namespace SwitchMib
set_option autoImplicit false

/-- What the program is asked for. -/
structure CommandLine where
  /-- The settings file. -/
  config : String
  /-- Shown in place of the level in the settings. -/
  logLevel : Option String
  /-- Whether the tables are built and walked once. -/
  once : Bool
  deriving DecidableEq, Repr

/-- Arguments that make no request. -/
inductive UsageFault where
  | missingValue (option : String)
  | unexpected (argument : String)
  deriving DecidableEq, Repr

def UsageFault.message : UsageFault → String
  | .missingValue option => "a value is required for '" ++ option ++ "'"
  | .unexpected argument => "unexpected argument '" ++ argument ++ "'"

namespace CommandLine

/-- The request without arguments. -/
def standard : CommandLine := ⟨"/etc/sonic/snmpagent.toml", none, false⟩

/-- The request in arguments, on top of what was asked for before. -/
def parse (request : CommandLine) : List String → Except UsageFault CommandLine
  | [] => .ok request
  | "--once" :: rest => parse { request with once := true } rest
  | [option] =>
    if option ∈ ["-c", "--config", "-l", "--log-level"] then .error (.missingValue option)
    else .error (.unexpected option)
  | option :: value :: rest =>
    if option ∈ ["-c", "--config"] then parse { request with config := value } rest
    else if option ∈ ["-l", "--log-level"] then parse { request with logLevel := some value } rest
    else .error (.unexpected option)

end CommandLine

/-- The rank of a level; the more urgent, the higher. -/
def Level.rank : Level → Nat
  | .info => 0
  | .warn => 1
  | .error => 2

/-- The level with a name in lower case. -/
def Level.ofName? : String → Option Level
  | "info" => some .info
  | "warn" => some .warn
  | "error" => some .error
  | _ => none

/-- Whether a message is shown under the name of a level. A name that is none hides nothing. -/
def Event.passes (e : Event) (level : String) : Bool :=
  match Level.ofName? level with
  | some least => least.rank ≤ e.level.rank
  | none => true

/-- A namespace on one line: its name and its endpoint. -/
def Config.NamespaceSettings.summary (ns : NamespaceSettings) : String :=
  let name := if ns.name = "" then "host" else ns.name
  name ++ " " ++ ns.endpoint.display

/-- Namespaces to which there is no connection, none of which can be reached. -/
def Config.unconnected (namespaces : List NamespaceSettings) : Option Store.Namespaces :=
  Store.Namespaces.ofList?
    (namespaces.map fun ns => (Store.Namespace.empty ns.name).setReachable false)

/-- A walk, one object a line. -/
def listing (tree : Agent) : List String :=
  tree.walk.map fun (oid, value) => oid.display ++ " = " ++ value.describe

end SwitchMib
