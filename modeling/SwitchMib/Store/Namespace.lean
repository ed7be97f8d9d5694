import SwitchMib.Dict
import SwitchMib.Store.Database
import SwitchMib.Store.Glob

/-!
# One namespace of the store

A namespace holds, for each database, hashes of text fields under text keys.

* `Fields`, `Table`: a hash, and the hashes of one database.
* `Visit`: the order in which the fields of a hash are visited.
* `Namespace`: the contents, whether the namespace can be reached, and the reads that fail.
* `Namespace.keys`, `Namespace.getAll`, `Namespace.has`: the three reads.
* `Namespace.setFields`, `Namespace.delete`: writes.
-/

namespace SwitchMib.Store
set_option autoImplicit false

abbrev Fields := Dict String String

abbrev Table := Dict String Fields

inductive ReadKind where
  | keys
  | getAll
  | has
  deriving DecidableEq, Repr

/-- Reads that fail: of one kind, in one database, of one key or pattern or of any. -/
structure Fault where
  kind : ReadKind
  db : Database
  key : Option String
  deriving DecidableEq, Repr

/-- Whether a read is one of those that fail. -/
def Fault.hits (f : Fault) (kind : ReadKind) (db : Database) (key : String) : Bool :=
  f.kind == kind && f.db == db && (f.key == none || f.key == some key)

/-- An order in which the fields of every hash are visited. -/
structure Visit where
  order : Fields → List (String × String)
  perm : ∀ hash, (order hash).Perm hash.toList

namespace Visit

/-- The fields in the order of their names. -/
def byName : Visit := ⟨Dict.toList, fun _ => .refl _⟩

def backwards : Visit := ⟨fun hash => hash.toList.reverse, fun hash => hash.toList.reverse_perm⟩

end Visit

structure Namespace where
  /-- Empty for the host. -/
  name : String
  tables : Database → Table
  reachable : Bool
  faults : List Fault
  /-- Nothing is known of the order in which a store hands out the fields of a hash. -/
  visit : Visit

namespace Namespace

/-- A reachable namespace without data. -/
def empty (name : String) : Namespace := ⟨name, fun _ => Dict.empty, true, [], .byName⟩

/-- Whether a read goes through, and the error if it does not. -/
def gate (ns : Namespace) (kind : ReadKind) (db : Database) (key : String) :
    Except StoreError Unit :=
  if ns.faults.any fun f => f.hits kind db key then .error (.notConfigured db ns.name)
  else if !ns.reachable then .error (.unavailable ns.name "connection refused")
  else .ok ()

/-- The keys that fit a pattern, in order. -/
def keys (ns : Namespace) (db : Database) (pattern : String) : Except StoreError (List String) :=
  (ns.gate .keys db pattern).map fun _ =>
    (ns.tables db).keys.filter fun key => globMatch pattern.toList key.toList

/-- The hash under a key. A missing one has no fields. -/
def getAll (ns : Namespace) (db : Database) (key : String) : Except StoreError Fields :=
  (ns.gate .getAll db key).map fun _ => ((ns.tables db).get? key).getD Dict.empty

/-- Whether there is a hash under a key. -/
def has (ns : Namespace) (db : Database) (key : String) : Except StoreError Bool :=
  (ns.gate .has db key).map fun _ => (ns.tables db).contains key

/-- The namespace with another table for one database. -/
def withTable (ns : Namespace) (db : Database) (table : Table) : Namespace :=
  { ns with tables := fun db' => if db' = db then table else ns.tables db' }

/-- Writes fields into the hash under a key, which is made if it is missing. -/
def setFields (ns : Namespace) (db : Database) (key : String) (fields : List (String × String)) :
    Namespace :=
  let hash := ((ns.tables db).get? key).getD Dict.empty
  ns.withTable db ((ns.tables db).insert key (hash.insertAll fields))

def delete (ns : Namespace) (db : Database) (key : String) : Namespace :=
  ns.withTable db ((ns.tables db).erase key)

/-- Makes the namespace reachable or not. -/
def setReachable (ns : Namespace) (reachable : Bool) : Namespace := { ns with reachable }

def addFault (ns : Namespace) (f : Fault) : Namespace := { ns with faults := ns.faults ++ [f] }

/-- Lets no particular read fail any more. -/
def clearFaults (ns : Namespace) : Namespace := { ns with faults := [] }

/-- The same namespace whose hashes are visited in another order. -/
def visitedBy (ns : Namespace) (visit : Visit) : Namespace := { ns with visit }

end Namespace

end SwitchMib.Store
