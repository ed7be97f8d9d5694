import SwitchMib.AgentError
import SwitchMib.Bisect
import SwitchMib.Dict
import SwitchMib.Snmp.Snapshot
import SwitchMib.Snmp.Value

/-!
# The tree of tables

Each table serves the objects below one root. The tree keeps the tables in the order of their
roots, no root leading another, and answers over all of them as if they were one ordered list of
objects.

* `Mib`: what the tree has to know of a table.
* `MibTree.register`: adds a table, or names the one in its way.
* `MibTree.get`: the value of an object.
* `MibTree.getNext`: the first object with a value after a given one.
* `MibTree.walk`: every object with a value, in order.
* `Search`: an answer together with the cells that were read to find it. A table may have
  something to tell about a cell that is read, so the cells are part of the outcome.
-/

namespace SwitchMib.Snmp
set_option autoImplicit false

/-- A table below one root. -/
class Mib (υ : Type) where
  /-- The name in messages. -/
  name : υ → String
  /-- The root of the subtree. -/
  top : υ → Oid
  /-- The value of a cell. A cell may lack one. -/
  valueAt : υ → SubId → Option Value
  /-- The cell after a sub-identifier. -/
  next : υ → SubId → Option SubId
  /-- Every cell that `next` can reach, in walk order. -/
  cells : υ → List SubId
  state : υ → Lifecycle

/-- An answer and the objects that were read for it, in order. -/
structure Search (α : Type) where
  answer : Option α
  reads : List Oid

/-- The first cell with a value after a sub-identifier, following `next` at most `steps` times. -/
def firstValue {υ : Type} [Mib υ] (u : υ) : Nat → SubId → Search (Oid × Value)
  | 0, _ => ⟨none, []⟩
  | steps + 1, cursor =>
    match Mib.next u cursor with
    | none => ⟨none, []⟩
    | some sub =>
      let oid := (Mib.top u).append sub
      match Mib.valueAt u sub with
      | some value => ⟨some (oid, value), [oid]⟩
      | none =>
        let later := firstValue u steps sub
        ⟨later.answer, oid :: later.reads⟩

/-- Tables in the order of their roots. -/
structure MibTree (υ : Type) where
  mibs : List υ

namespace MibTree

variable {υ : Type} [Mib υ]

/-- The tree without tables. -/
def empty : MibTree υ := ⟨[]⟩

/-- Whether one of two roots leads the other. -/
def overlaps (a b : Oid) : Bool := a.startsWith b || b.startsWith a

/-- Adds a table at its place. A root that leads a registered one, or is led by one, is refused. -/
def register (tree : MibTree υ) (u : υ) : Except AgentError (MibTree υ) :=
  match tree.mibs.find? fun v => overlaps (Mib.top v) (Mib.top u) with
  | some v =>
    .error (.config (.overlap (Mib.name u) (Mib.top u) (Mib.name v) (Mib.top v)))
  | none =>
    let place := partitionPoint (fun v => KeyOrder.before (Mib.top v) (Mib.top u)) tree.mibs
    .ok ⟨tree.mibs.insertIdx place u⟩

def size (tree : MibTree υ) : Nat := tree.mibs.length

/-- Whether there is no table. -/
def isEmpty (tree : MibTree υ) : Bool := tree.mibs.isEmpty

/-- The value of an object and whether a table was asked for it. -/
def read (tree : MibTree υ) (oid : Oid) : Search Value where
  answer := tree.mibs.findSome? fun u => (oid.below? (Mib.top u)).bind (Mib.valueAt u)
  reads := if tree.mibs.any fun u => oid.startsWith (Mib.top u) then [oid] else []

def get (tree : MibTree υ) (oid : Oid) : Option Value := (tree.read oid).answer

/-- Looks for the first object with a value after `oid` in tables in order. A table whose root lies
after `oid` is walked from its start, one that has been passed is left out. -/
def seekIn (oid : Oid) : List υ → Search (Oid × Value)
  | [] => ⟨none, []⟩
  | u :: rest =>
    let start? :=
      match oid.below? (Mib.top u) with
      | some sub => some sub
      | none => if KeyOrder.before oid (Mib.top u) then some [] else none
    match start? with
    | none => seekIn oid rest
    | some start =>
      let found := firstValue u ((Mib.cells u).length + 1) start
      match found.answer with
      | some _ => found
      | none =>
        let later := seekIn oid rest
        ⟨later.answer, found.reads ++ later.reads⟩

/-- The first object with a value after `oid`, with the objects read on the way. -/
def seek (tree : MibTree υ) (oid : Oid) : Search (Oid × Value) := seekIn oid tree.mibs

/-- The first object with a value after `oid`. -/
def getNext (tree : MibTree υ) (oid : Oid) : Option (Oid × Value) := (tree.seek oid).answer

/-- Follows `seek` at most `steps` times; the rows found, and every object read. -/
def walkFrom (tree : MibTree υ) : Nat → Oid → List (Oid × Value) × List Oid
  | 0, _ => ([], [])
  | steps + 1, cursor =>
    let found := tree.seek cursor
    match found.answer with
    | none => ([], found.reads)
    | some (oid, value) =>
      let (rows, reads) := walkFrom tree steps oid
      ((oid, value) :: rows, found.reads ++ reads)

/-- Number of cells of all tables, which bounds the length of a walk. -/
def cellCount (tree : MibTree υ) : Nat := (tree.mibs.flatMap Mib.cells).length

/-- A walk of all objects, with the objects read on the way. -/
def survey (tree : MibTree υ) : List (Oid × Value) × List Oid :=
  tree.walkFrom (tree.cellCount + 1) Oid.root

/-- Every object with a value, in order. -/
def walk (tree : MibTree υ) : List (Oid × Value) := tree.survey.1

end MibTree

end SwitchMib.Snmp
