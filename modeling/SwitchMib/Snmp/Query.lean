import SwitchMib.Log
import SwitchMib.Snmp.Tree

/-!
# Queries that leave a trace

A table may have something to tell about a cell that is read, and may remember that it told it.
Queries over such tables answer as the tree does and pass every object that was read on to the
table that holds it.

* `Watched`: a table that may have something to tell.
* `MibTree.noteReads`: tells the tables which objects were read.
* `MibTree.askGet`, `MibTree.askNext`, `MibTree.askWalk`: the queries of the tree.
* `MibTree.askValueIn`, `MibTree.askNextIn`: queries of one table by its name.
-/

namespace SwitchMib.Snmp
set_option autoImplicit false

/-- A table that may have something to tell about a cell that is read. -/
class Watched (υ : Type) extends Mib υ where
  /-- What is told, and the table that remembers it. -/
  noteRead : SubId → υ → Logged υ

namespace MibTree

variable {υ : Type} [Watched υ]

/-- Tells the table of an object that it was read. -/
def noteRead (tree : MibTree υ) (oid : Oid) : Logged (MibTree υ) := do
  let mibs ← tree.mibs.mapM fun u =>
    match oid.below? (Mib.top u) with
    | some sub => Watched.noteRead sub u
    | none => pure u
  pure ⟨mibs⟩

/-- Tells the tables of several objects that these were read. -/
def noteReads (tree : MibTree υ) (reads : List Oid) : Logged (MibTree υ) :=
  reads.foldlM noteRead tree

def askGet (tree : MibTree υ) (oid : Oid) : Logged (Option Value × MibTree υ) := do
  let found := tree.read oid
  pure (found.answer, ← tree.noteReads found.reads)

/-- The first object with a value after `oid`. -/
def askNext (tree : MibTree υ) (oid : Oid) : Logged (Option (Oid × Value) × MibTree υ) := do
  let found := tree.seek oid
  pure (found.answer, ← tree.noteReads found.reads)

/-- Every object with a value, in order. -/
def askWalk (tree : MibTree υ) : Logged (List (Oid × Value) × MibTree υ) := do
  let (rows, reads) := tree.survey
  pure (rows, ← tree.noteReads reads)

/-- The first table with a name. -/
def find? (tree : MibTree υ) (name : String) : Option υ :=
  tree.mibs.find? fun u => Mib.name u == name

/-- The value of a cell in the first table with a name, if there is such a table. -/
def askValueIn (tree : MibTree υ) (name : String) (sub : SubId) :
    Option (Logged (Option Value × MibTree υ)) :=
  (tree.find? name).map fun u => do
    pure (Mib.valueAt u sub, ← tree.noteRead ((Mib.top u).append sub))

/-- The cell after a sub-identifier in the first table with a name, if there is such a table. -/
def askNextIn (tree : MibTree υ) (name : String) (sub : SubId) : Option (Option SubId) :=
  (tree.find? name).map fun u => Mib.next u sub

end MibTree

end SwitchMib.Snmp
