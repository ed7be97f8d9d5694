import SwitchMib.Bisect
import SwitchMib.Snmp.Cell

/-!
# How an index keeps its rows

A `SubIdIndex` tells which rows a table has. The agent keeps them twice: a hash map answers for a
single row, and a vector of the sub-identifiers in walk order, searched by halving, answers what
comes next.

* `RowIndex`: the hash map and the vector.
* `RowIndex.insert`: one row more. A sub-identifier that is missing from the vector is put in where
  the search ends.
* `RowIndex.ofRows`: all rows at once. The vector is what the hash map lists, sorted.
* `HashOrder`: the order in which hash maps list their keys.
-/

namespace SwitchMib
set_option autoImplicit false

open KeyOrder

namespace Snmp

/-- The order in which a hash map lists its keys. It is another one in every run. -/
structure HashOrder (ν : Type) where
  keys : Dict SubId ν → List SubId
  perm : ∀ d, (keys d).Perm d.keys

instance {ν : Type} : Inhabited (HashOrder ν) :=
  ⟨fun d => d.keys.reverse, fun d => d.keys.reverse_perm⟩

structure RowIndex (ν : Type) where
  /-- The hash map. -/
  values : Dict SubId ν
  /-- Its keys in walk order. -/
  sorted : List SubId
  deriving DecidableEq

namespace RowIndex

variable {ν : Type}

def empty : RowIndex ν := ⟨Dict.empty, []⟩

/-- Enters a row, replacing the value of one that is there. -/
def insert (index : RowIndex ν) (sub : SubId) (value : ν) : RowIndex ν where
  sorted := match bisect (fun row => KeyOrder.compare row sub) index.sorted with
    | .ok _ => index.sorted
    | .error i => index.sorted.insertIdx i sub
  values := index.values.insert sub value

/-- Enters every row of a list in turn. -/
def insertAll (index : RowIndex ν) (rows : List (SubId × ν)) : RowIndex ν :=
  rows.foldl (fun index row => index.insert row.1 row.2) index

/-- Enters the rows of a list into the hash map and sorts its keys afterwards. -/
def ofRows (order : HashOrder ν) (rows : List (SubId × ν)) : RowIndex ν :=
  let values := Dict.empty.insertAll rows
  ⟨values, (order.keys values).mergeSort fun a b => !before b a⟩

def lookup (index : RowIndex ν) (sub : SubId) : Option ν := index.values.get? sub

/-- The least row strictly above a sub-identifier. -/
def successor (index : RowIndex ν) (sub : SubId) : Option SubId :=
  index.sorted[partitionPoint (fun row => !before sub row) index.sorted]?

def size (index : RowIndex ν) : Nat := index.sorted.length

def isEmpty (index : RowIndex ν) : Bool := index.sorted.isEmpty

/-- Sub-identifiers in walk order. -/
def keys (index : RowIndex ν) : List SubId := index.sorted

/-- Rows in walk order. -/
def rows (index : RowIndex ν) : List (SubId × ν) :=
  index.sorted.filterMap fun sub => (index.values.get? sub).map (sub, ·)

end RowIndex

end Snmp

end SwitchMib
