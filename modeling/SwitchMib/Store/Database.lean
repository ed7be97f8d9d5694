/-!
# The databases of a namespace

* `Database`: the logical databases that the agent reads, with their names and default numbers.
* `StoreError`: why a read of a database fails.
-/

namespace SwitchMib.Store
set_option autoImplicit false

inductive Database where
  | appl
  | asic
  | counters
  | config
  | state
  | overlay
  deriving DecidableEq, Repr

namespace Database

/-- Every database. -/
def all : List Database := [.appl, .asic, .counters, .config, .state, .overlay]

def name : Database → String
  | .appl => "APPL_DB"
  | .asic => "ASIC_DB"
  | .counters => "COUNTERS_DB"
  | .config => "CONFIG_DB"
  | .state => "STATE_DB"
  | .overlay => "SNMP_OVERLAY_DB"

/-- The database number where a configuration does not say otherwise. -/
def defaultNumber : Database → Int
  | .appl => 0
  | .asic => 1
  | .counters => 2
  | .config => 4
  | .state => 6
  | .overlay => 7

/-- The database with a name. -/
def ofName? (name : String) : Option Database := all.find? fun db => db.name == name

end Database

/-- Why a read of a store fails. -/
inductive StoreError where
  /-- The namespace does not serve the database. -/
  | notConfigured (db : Database) (namespaceName : String)
  /-- The namespace cannot be reached. -/
  | unavailable (namespaceName message : String)
  deriving DecidableEq, Repr

def StoreError.message : StoreError → String
  | .notConfigured db ns => db.name ++ " is not configured for namespace '" ++ ns ++ "'"
  | .unavailable ns message => "Namespace '" ++ ns ++ "' unavailable: " ++ message

end SwitchMib.Store
