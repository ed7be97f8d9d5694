import SwitchMib.Config.Endpoints
import SwitchMib.Document.Toml

/-!
# Settings of the agent

* `Settings`: everything that can be set.
* `Settings.ofDatum?`, `Settings.toDatum`: settings as a document, read and written.
* `Settings.load`: the settings of a file. A missing file stands for the standard settings.
* `Settings.namespaces`: the namespaces to serve, from the settings or from a file of endpoints.
* `Settings.validate`: whether the agent can start with the settings.
-/

namespace SwitchMib.Config
set_option autoImplicit false

open Document Store

structure DatabaseSettings where
  /-- A file of endpoints, which takes the place of the namespaces listed here. -/
  endpointFile : Option String
  namespaces : List NamespaceSettings
  deriving DecidableEq

structure RefreshSettings where
  /-- Seconds between refreshes. -/
  period : UInt64
  /-- Refreshes between reloads of the identity. -/
  reinitRate : UInt32
  deriving DecidableEq

/-- Which tables are served. -/
structure TableSettings where
  interfaces : Bool
  neighbours : Bool
  forwarding : Bool
  routes : Bool
  power : Bool
  sensors : Bool
  queues : Bool
  /-- The file with the neighbours. -/
  neighbourFile : String
  /-- The roots served from the overlay database. -/
  overlays : List String
  deriving DecidableEq

/-- Where the state of the power supplies comes from. -/
inductive PowerProvider where
  | stateDatabase
  | absent
  deriving DecidableEq

/-- Everything that can be set. -/
structure Settings where
  database : DatabaseSettings
  refresh : RefreshSettings
  tables : TableSettings
  power : PowerProvider
  logLevel : String
  deriving DecidableEq

/-! ## Defaults -/

/-- One namespace, the host. -/
def DatabaseSettings.standard : DatabaseSettings := ⟨none, [.standard]⟩

/-- A refresh every five seconds, a reload every five minutes. -/
def RefreshSettings.standard : RefreshSettings := ⟨5, 60⟩

/-- Every table but overlays. -/
def TableSettings.standard : TableSettings where
  interfaces := true
  neighbours := true
  forwarding := true
  routes := true
  power := true
  sensors := true
  queues := true
  neighbourFile := "/proc/net/arp"
  overlays := []

def Settings.standard : Settings where
  database := .standard
  refresh := .standard
  tables := .standard
  power := .stateDatabase
  logLevel := "info"

instance : Inhabited Settings := ⟨.standard⟩

/-! ## Settings from documents -/

section Reading

variable (dialect : Dialect)

def NamespaceSettings.ofDatum? (d : Datum) : Option NamespaceSettings :=
  if d.isRecord dialect 5 then do
    let name ← d.optional 0 "name" standard.name Datum.toText?
    let host ← d.optional 1 "host" standard.host Datum.toText?
    let port ← d.optional 2 "port" standard.port readPort
    let socket ← d.optional 3 "unix_socket_path" none (Datum.toOptional? Datum.toText?)
    let databases ← d.optional 4 "databases" Dict.empty (Datum.toDict? Datum.toInt64?)
    pure { name, host, port, socket, databases }
  else none

def readNamespaces (d : Datum) : Option (List NamespaceSettings) :=
  d.toList? >>= fun items => items.mapM (NamespaceSettings.ofDatum? dialect)

def DatabaseSettings.ofDatum? (d : Datum) : Option DatabaseSettings :=
  if d.isRecord dialect 2 then do
    let endpointFile ← d.optional 0 "sonic_db_config" none (Datum.toOptional? Datum.toText?)
    let namespaces ← d.optional 1 "namespaces" standard.namespaces (readNamespaces dialect)
    pure { endpointFile, namespaces }
  else none

def RefreshSettings.ofDatum? (d : Datum) : Option RefreshSettings :=
  if d.isRecord dialect 2 then do
    let period ← d.optional 0 "frequency_secs" standard.period fun d =>
      (d.toNat? UInt64.size).map UInt64.ofNat
    let reinitRate ← d.optional 1 "reinit_rate" standard.reinitRate fun d =>
      (d.toNat? UInt32.size).map UInt32.ofNat
    pure { period, reinitRate }
  else none

/-- Reads which tables are served. -/
def TableSettings.ofDatum? (d : Datum) : Option TableSettings :=
  if d.isRecord dialect 9 then do
    let interfaces ← d.optional 0 "interfaces" true Datum.toBool?
    let neighbours ← d.optional 1 "arp" true Datum.toBool?
    let forwarding ← d.optional 2 "fdb" true Datum.toBool?
    let routes ← d.optional 3 "routes" true Datum.toBool?
    let power ← d.optional 4 "power" true Datum.toBool?
    let sensors ← d.optional 5 "sensors" true Datum.toBool?
    let queues ← d.optional 6 "queues" true Datum.toBool?
    let neighbourFile ← d.optional 7 "arp_table_path" standard.neighbourFile Datum.toText?
    let overlays ← d.optional 8 "overlay_prefixes" [] fun d =>
      d.toList? >>= fun items => items.mapM Datum.toText?
    pure
      { interfaces, neighbours, forwarding, routes, power, sensors, queues, neighbourFile
        overlays }
  else none

def PowerProvider.ofDatum? (d : Datum) : Option PowerProvider :=
  match d.toVariant? dialect with
  | some "state_db" => some .stateDatabase
  | some "none" => some .absent
  | _ => none

/-- Reads the record around the source of power states. -/
def readPower (d : Datum) : Option PowerProvider :=
  if d.isRecord dialect 1 then
    d.optional 0 "provider" .stateDatabase (PowerProvider.ofDatum? dialect)
  else none

def readLogLevel (d : Datum) : Option String :=
  if d.isRecord dialect 1 then d.optional 0 "level" Settings.standard.logLevel Datum.toText?
  else none

def Settings.ofDatum? (d : Datum) : Option Settings :=
  if d.isRecord dialect 5 then do
    let database ← d.optional 0 "database" .standard (DatabaseSettings.ofDatum? dialect)
    let refresh ← d.optional 1 "updater" .standard (RefreshSettings.ofDatum? dialect)
    let tables ← d.optional 2 "mibs" .standard (TableSettings.ofDatum? dialect)
    let power ← d.optional 3 "power" .stateDatabase (readPower dialect)
    let logLevel ← d.optional 4 "logging" standard.logLevel (readLogLevel dialect)
    pure { database, refresh, tables, power, logLevel }
  else none

end Reading

/-! ## Settings as documents -/

def optionalText : Option String → Datum
  | some s => .text s
  | none => .null

def NamespaceSettings.toDatum (ns : NamespaceSettings) : Datum :=
  .table
    [ ("name", .text ns.name)
    , ("host", .text ns.host)
    , ("port", .int ns.port.toNat)
    , ("unix_socket_path", optionalText ns.socket)
    , ("databases", .table (ns.databases.toList.map fun entry => (entry.1, .int entry.2))) ]

def PowerProvider.name : PowerProvider → String
  | .stateDatabase => "state_db"
  | .absent => "none"

def Settings.toDatum (s : Settings) : Datum :=
  .table
    [ ("database", .table
        [ ("sonic_db_config", optionalText s.database.endpointFile)
        , ("namespaces", .list (s.database.namespaces.map NamespaceSettings.toDatum)) ])
    , ("updater", .table
        [ ("frequency_secs", .int s.refresh.period.toNat)
        , ("reinit_rate", .int s.refresh.reinitRate.toNat) ])
    , ("mibs", .table
        [ ("interfaces", .bool s.tables.interfaces)
        , ("arp", .bool s.tables.neighbours)
        , ("fdb", .bool s.tables.forwarding)
        , ("routes", .bool s.tables.routes)
        , ("power", .bool s.tables.power)
        , ("sensors", .bool s.tables.sensors)
        , ("queues", .bool s.tables.queues)
        , ("arp_table_path", .text s.tables.neighbourFile)
        , ("overlay_prefixes", .list (s.tables.overlays.map .text)) ])
    , ("power", .table [("provider", .text s.power.name)])
    , ("logging", .table [("level", .text s.logLevel)]) ]

/-! ## Loading and validation -/

section Loading

variable {m : Type → Type} [Monad m]

def Settings.load (read : TextReader m) (path : String) : m (Load AgentError Settings) := do
  match ← read path with
  | .ok s =>
    match Toml.parseDatum s >>= Settings.ofDatum? Toml.dialect with
    | some settings => pure (pure settings)
    | none => pure (throw (.config (.malformedSettings path)))
  | .error .notFound =>
    pure do
      Load.tell (.settingsAbsent path)
      pure Settings.standard
  | .error fault => pure (throw (.file fault))

def Settings.namespaces (read : TextReader m) (s : Settings) :
    ExceptT AgentError m (List NamespaceSettings) :=
  match s.database.endpointFile with
  | some path => loadNamespaces read path
  | none => pure s.database.namespaces

end Loading

/-- The object identifier of an overlay root. Leading points do not matter. -/
def overlayRoot (text : String) : Except Snmp.Oid.ParseError Snmp.Oid :=
  Snmp.Oid.parse (String.ofList (text.toList.dropWhile (· == '.')))

def checkNamespace (ns : NamespaceSettings) : Load AgentError Unit := do
  if ns.port = 0 ∧ ns.socket = none then throw (.config (.zeroPort ns.name))
  match ns.databases.keys.find? fun name => (Database.ofName? name).isNone with
  | some name => Load.tell (.databaseUnknown ns.name name)
  | none => pure ()

/-- Checks settings whose namespaces are known. -/
def Settings.check (s : Settings) (namespaces : List NamespaceSettings) : Load AgentError Unit := do
  if namespaces.isEmpty then throw (.config .noNamespace)
  namespaces.forM checkNamespace
  if s.refresh.period = 0 then throw (.config .zeroFrequency)
  if s.refresh.reinitRate = 0 then throw (.config .zeroReinitRate)
  match s.tables.overlays.find? fun text => !(overlayRoot text).isOk with
  | some text => throw (.config (.badOverlay text))
  | none => pure ()

/-- Checks settings, with the namespaces they name. -/
def Settings.validate {m : Type → Type} [Monad m] (read : TextReader m) (s : Settings) :
    m (Load AgentError Unit) := do
  match ← (s.namespaces read).run with
  | .ok namespaces => pure (s.check namespaces)
  | .error e => pure (throw e)

end SwitchMib.Config
