import SwitchMib.CommandLine

/-!
# The program

Reads the settings, checks them and lists the namespaces that they name, or builds the tables once
and lists every object. There is no connector to a store, so what a table would read from one
cannot be read. Messages go to the error output.
-/

set_option autoImplicit false

open SwitchMib

/-- The fault behind a failure to read a file. -/
def fileFaultOf : IO.Error → FileFault
  | .noFileOrDirectory _ _ _ | .noSuchThing _ _ _ => .notFound
  | .inappropriateType _ _ _ => .isDirectory
  | e => .stated (toString e)

def readTextFile : Config.TextReader IO := fun path => do
  try
    let bytes ← IO.FS.readBinFile path
    pure (FileTree.textOf bytes.toList)
  catch e => pure (.error (fileFaultOf e))

def showEvents (level : String) (events : List Event) : IO Unit :=
  (events.filter (·.passes level)).forM fun e => IO.eprintln e.render

/-- Builds the tables without a connection to the namespaces, and lists what they serve. -/
def walkOnce (level : String) (settings : Config.Settings)
    (namespaces : List Config.NamespaceSettings) : IO UInt32 := do
  let some namespaces := Config.unconnected namespaces
    | IO.eprintln "Error: no namespaces configured"
      pure 1
  let neighbours ← readTextFile settings.tables.neighbourFile
  let unread : AgentError := .power (.stated "no platform")
  let platform := ⟨.error unread, fun _ => .error unread, fun _ => .error unread⟩
  let built := buildTree settings { namespaces, neighbours, platform }
  showEvents level built.events
  match built.outcome with
  | .ok tree =>
    (listing tree).forM IO.println
    pure 0
  | .error (.error e) =>
    IO.eprintln ("Error: building MIB tree: " ++ e.message)
    pure 1
  | .error .overflow =>
    IO.eprintln "Error: attempt to add with overflow"
    pure 101

def answerRequest (request : CommandLine) : IO UInt32 := do
  let loaded ← Config.Settings.load readTextFile request.config
  match loaded.outcome with
  | .error e =>
    IO.eprintln ("Error: loading " ++ request.config ++ ": " ++ e.message)
    pure 1
  | .ok settings =>
    let level := request.logLevel.getD settings.logLevel
    let checked ← settings.validate readTextFile
    showEvents level (loaded.events ++ checked.events)
    match checked.outcome, ← (settings.namespaces readTextFile).run with
    | .ok _, .ok namespaces =>
      if request.once then walkOnce level settings namespaces
      else
        namespaces.forM fun ns => IO.println ns.summary
        pure 0
    | .error e, _ | _, .error e =>
      IO.eprintln ("Error: invalid configuration: " ++ e.message)
      pure 1

def main (args : List String) : IO UInt32 := do
  match CommandLine.parse .standard args with
  | .ok request => answerRequest request
  | .error fault =>
    IO.eprintln ("error: " ++ fault.message)
    pure 2
