import SwitchMib.Document.Json
import SwitchMib.Files
import SwitchMib.Log

/-!
# Database endpoints

The endpoints of the databases are described by files of their own: one file per namespace, or one
file that lists the files of several namespaces.

* `Endpoint`: what a connection is made to.
* `NamespaceSettings`: where the databases of one namespace are.
* `EndpointFile`: the file of one namespace.
* `Include`: what a file that lists others says of one of them.
* `loadNamespaces`: the namespaces of either, the host first.
-/

namespace SwitchMib.Config
set_option autoImplicit false

open Document Store

/-- What a connection is made to. -/
inductive Endpoint where
  | socket (path : String)
  | address (host : String) (port : UInt16)
  deriving DecidableEq

namespace Endpoint

/-- A socket is preferred to host and port. -/
def choose (socket : Option String) (host : String) (port : UInt16) : Endpoint :=
  match socket with
  | some path => .socket path
  | none => .address host port

def display : Endpoint → String
  | .socket path => path
  | .address host port => host ++ ":" ++ Text.decimal port.toNat

end Endpoint

structure NamespaceSettings where
  /-- Empty for the host. -/
  name : String
  host : String
  port : UInt16
  /-- Preferred to host and port. -/
  socket : Option String
  /-- Database numbers by name. -/
  databases : Dict String Int
  deriving DecidableEq

namespace NamespaceSettings

/-- The host with everything at its default. -/
def standard : NamespaceSettings where
  name := ""
  host := "127.0.0.1"
  port := 6379
  socket := none
  databases := Dict.empty

def number (ns : NamespaceSettings) (db : Database) : Int :=
  (ns.databases.get? db.name).getD db.defaultNumber

/-- What is connected to for the databases of the namespace. -/
def endpoint (ns : NamespaceSettings) : Endpoint := .choose ns.socket ns.host ns.port

end NamespaceSettings

def readPort (d : Datum) : Option UInt16 := (d.toNat? UInt16.size).map UInt16.ofNat

/-! ## The file of one namespace -/

structure Instance where
  hostname : String
  port : UInt16
  socket : Option String
  deriving DecidableEq

def Instance.endpoint (server : Instance) : Endpoint :=
  .choose server.socket server.hostname server.port

structure Placement where
  number : Int
  instanceName : String
  deriving DecidableEq

/-- The servers of one namespace and the databases on them. -/
structure EndpointFile where
  instances : Dict String Instance
  databases : Dict String Placement

def Instance.ofDatum? (d : Datum) : Option Instance :=
  if d.isRecord Json.dialect 3 then do
    let hostname ← d.required 0 "hostname" Datum.toText?
    let port ← d.required 1 "port" readPort
    let socket ← d.optional 2 "unix_socket_path" none (Datum.toOptional? Datum.toText?)
    pure { hostname, port, socket }
  else none

def Placement.ofDatum? (d : Datum) : Option Placement :=
  if d.isRecord Json.dialect 2 then do
    let number ← d.required 0 "id" Datum.toInt64?
    let instanceName ← d.required 1 "instance" Datum.toText?
    pure { number, instanceName }
  else none

def EndpointFile.ofDatum? (d : Datum) : Option EndpointFile :=
  if d.isRecord Json.dialect 2 then do
    let instances ← d.required 0 "INSTANCES" (Datum.toDict? Instance.ofDatum?)
    let databases ← d.required 1 "DATABASES" (Datum.toDict? Placement.ofDatum?)
    pure { instances, databases }
  else none

/-- The server whose endpoint stands for a namespace: that of the application database. -/
def EndpointFile.mainInstance (file : EndpointFile) : String :=
  match file.databases.get? Database.appl.name with
  | some placement => placement.instanceName
  | none => "redis"

/-- The namespace that a file describes. Databases that the agent does not know are left out. -/
def EndpointFile.toSettings (file : EndpointFile) (path name : String) :
    Except AgentError NamespaceSettings :=
  match file.instances.get? file.mainInstance with
  | none => .error (.config (.undefinedInstance path file.mainInstance))
  | some server =>
    let known := file.databases.toList.filter fun entry => (Database.ofName? entry.1).isSome
    .ok
      { name
        host := server.hostname
        port := server.port
        socket := server.socket
        databases := Dict.empty.insertAll (known.map fun entry => (entry.1, entry.2.number)) }

/-- The namespace that a document describes. -/
def settingsOfDatum (path name : String) (d : Datum) : Except AgentError NamespaceSettings :=
  match EndpointFile.ofDatum? d with
  | some file => file.toSettings path name
  | none => .error (.config (.malformedEndpoints path))

/-! ## The file that lists others -/

structure Include where
  name : String
  path : String
  deriving DecidableEq

def Include.ofDatum? (d : Datum) : Option Include :=
  if d.isRecord Json.dialect 2 then do
    let name ← d.optional 0 "namespace" "" Datum.toText?
    let path ← d.required 1 "include" Datum.toText?
    pure { name, path }
  else none

def readIncludes (d : Datum) : Option (List Include) :=
  d.required 0 "INCLUDES" fun list => list.toList? >>= fun items => items.mapM Include.ofDatum?

/-- Whether a document lists other files. -/
def listsOthers : Datum → Bool
  | .table entries => (entries.lookup "INCLUDES").isSome
  | _ => false

/-! ## Loading -/

/-- How files are read. -/
abbrev TextReader (m : Type → Type) := String → m (Except FileFault String)

section Loading

variable {m : Type → Type} [Monad m]

/-- Reads a text, a fault being an error of the agent. -/
def fetch (read : TextReader m) (path : String) : ExceptT AgentError m String :=
  ExceptT.mk do
    match ← read path with
    | .ok s => pure (.ok s)
    | .error fault => pure (.error (.file fault))

def fetchDatum (read : TextReader m) (path : String) : ExceptT AgentError m Datum := do
  match Json.parseDatum (← fetch read path) with
  | some d => pure d
  | none => throw (.config (.malformedEndpoints path))

/-- The host first, otherwise in the given order. -/
def hostFirst (namespaces : List NamespaceSettings) : List NamespaceSettings :=
  namespaces.filter (·.name == "") ++ namespaces.filter (·.name != "")

/-- Reads the namespace of an entry of the list in the file at `path`. -/
def loadInclude (read : TextReader m) (path : String) (entry : Include) :
    ExceptT AgentError m NamespaceSettings := do
  let place := Path.join (Path.parent path) entry.path
  let d ← fetchDatum read place
  liftExcept (settingsOfDatum place entry.name d)
where
  /-- A result that needed no reading. -/
  liftExcept (x : Except AgentError NamespaceSettings) : ExceptT AgentError m NamespaceSettings :=
    ExceptT.mk (pure x)

def loadNamespaces (read : TextReader m) (path : String) :
    ExceptT AgentError m (List NamespaceSettings) := do
  let d ← fetchDatum read path
  if !listsOthers d then
    match settingsOfDatum path "" d with
    | .ok ns => pure [ns]
    | .error e => throw e
  else
    match readIncludes d with
    | none => throw (.config (.malformedEndpoints path))
    | some includes =>
      let namespaces ← includes.mapM (loadInclude read path)
      if namespaces.isEmpty then throw (.config (.noIncludes path))
      else pure (hostFirst namespaces)

end Loading

end SwitchMib.Config
