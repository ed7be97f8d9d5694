import SwitchMib.Log
import SwitchMib.Store.Namespace

/-!
# All namespaces of a device

A device with several switching chips has one namespace for the host and one for each chip. The
state of the chips is read from the chips' namespaces together; the host is among them only where
it is alone.

* `Namespaces`: the host and the others, in order.
* `Namespaces.members`: the namespaces that aggregated reads go to.
* `Aggregated`: the merged answer of a read, with the namespaces that failed.
* `Namespaces.keys`, `Namespaces.getAll`: the aggregated reads.
* `Aggregated.strict`, `Aggregated.serve`: insisting on all namespaces, or making do with the rest.
-/

namespace SwitchMib.Store
set_option autoImplicit false

structure Namespaces where
  host : Namespace
  chips : List Namespace

/-- A merged answer and the errors of the namespaces that gave none. -/
structure Aggregated (α : Type) where
  value : α
  errors : List (String × StoreError)

namespace Aggregated

variable {α : Type}

/-- Whether every namespace answered. -/
def isComplete (a : Aggregated α) : Bool := a.errors.isEmpty

/-- The answer, if every namespace gave one; else the first error. -/
def strict (a : Aggregated α) : Except StoreError α :=
  match a.errors with
  | [] => .ok a.value
  | (_, e) :: _ => .error e

/-- The answer of those namespaces that gave one. The others are told about. -/
def serve (a : Aggregated α) (context : String) : Logged α :=
  ⟨a.value, a.errors.map fun (ns, e) => .namespaceUnread context ns e⟩

end Aggregated

namespace Namespaces

/-- The namespaces in order, if there is one. -/
def ofList? : List Namespace → Option Namespaces
  | [] => none
  | host :: chips => some ⟨host, chips⟩

/-- Every namespace, the host first. -/
def toList (n : Namespaces) : List Namespace := n.host :: n.chips

/-- The namespaces with the state of the chips. -/
def members (n : Namespaces) : List Namespace :=
  match n.chips with
  | [] => [n.host]
  | chips => chips

/-- Reads every member in turn and merges the answers in order. -/
def gather {α β : Type} (n : Namespaces) (read : Namespace → Except StoreError β) (start : α)
    (add : α → β → α) : Aggregated α :=
  n.members.foldl
    (fun a ns =>
      match read ns with
      | .ok b => { a with value := add a.value b }
      | .error e => { a with errors := a.errors ++ [(ns.name, e)] })
    ⟨start, []⟩

/-- The hash under a key in one namespace, read only where there is one. -/
def readHash (db : Database) (key : String) (ns : Namespace) : Except StoreError Fields := do
  if ← ns.has db key then ns.getAll db key else pure Dict.empty

/-- The keys of all members that fit a pattern, in order and once each. -/
def keys (n : Namespaces) (db : Database) (pattern : String) : Aggregated (List String) :=
  let found := n.gather (·.keys db pattern) (Dict.empty : Dict String Unit) fun d ks =>
    d.insertAll (ks.map (·, ()))
  ⟨found.value.keys, found.errors⟩

/-- The merged hash under a key; a later member replaces the fields of an earlier one. -/
def getAll (n : Namespaces) (db : Database) (key : String) : Aggregated Fields :=
  n.gather (readHash db key) Dict.empty Dict.merge

def modify (n : Namespaces) (i : Nat) (f : Namespace → Namespace) : Namespaces :=
  match i with
  | 0 => { n with host := f n.host }
  | i + 1 => { n with chips := n.chips.modify i f }

end Namespaces

end SwitchMib.Store
