import SwitchMib.Dict
import SwitchMib.Snmp.Oid

/-!
# Rows and cells in walk order

* `SubIdIndex`: the rows of a table by sub-identifier.
* `nextCell`: the cell after a sub-identifier in a table whose columns all hold the same rows.
* `nextBelow`: the same below leading arcs.
-/

namespace SwitchMib.Snmp
set_option autoImplicit false

/-- Rows by sub-identifier, in walk order. -/
abbrev SubIdIndex (ν : Type) := Dict SubId ν

/-- The least row strictly above a sub-identifier. -/
def rowAbove? (rows : List SubId) (sub : SubId) : Option SubId :=
  rows.find? fun row => KeyOrder.before sub row

/-- The least cell `column :: row` strictly above a sub-identifier. Columns and rows are
ascending, so the first column with an answer has the least one. -/
def nextCell (columns : List UInt32) (rows : List SubId) (sub : SubId) : Option SubId :=
  match rows, sub with
  | [], _ => none
  | first :: _, [] => columns.head?.map (· :: first)
  | first :: _, current :: rest =>
    columns.findSome? fun column =>
      if KeyOrder.before current column then some (column :: first)
      else if column = current then (rowAbove? rows rest).map (column :: ·)
      else none

/-- Every cell of such a table, in walk order. -/
def cells (columns : List UInt32) (rows : List SubId) : List SubId :=
  columns.flatMap fun column => rows.map (column :: ·)

/-- Walks a part of a table that lies below the arcs `lead`. From before the part the walk enters
it at its start. -/
def nextBelow (lead : List UInt32) (sub : SubId) (inner : SubId → Option SubId) :
    Option SubId :=
  match lead.isPrefixOf? sub with
  | some rest => (inner rest).map (lead ++ ·)
  | none => if KeyOrder.before sub lead then (inner []).map (lead ++ ·) else none

end SwitchMib.Snmp
