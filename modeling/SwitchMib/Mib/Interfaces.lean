import SwitchMib.Identity.Interfaces
import SwitchMib.Mib.Outside
import SwitchMib.Snmp.Cell
import SwitchMib.Snmp.Snapshot
import SwitchMib.Snmp.Value

/-!
# The interface table

One row per port, link aggregation group, VLAN interface and management port. Counter columns are
computed from the committed snapshot when they are asked for: a group sums its members, a port or
group with a router interface adds the errors of that, and a VLAN row has the counters of its
router interface.

* `InterfaceSnapshot`: rows and counters of one refresh, with the identity they were read by.
* `InterfaceSnapshot.column`: the columns of a row.
* `InterfaceSnapshot.complaints`: the counters that a column misses.
* `Interfaces`: the table, with `build`, `refresh`, `reinit`, `valueAt` and `next`.
-/

namespace SwitchMib.Mib
set_option autoImplicit false

open Identity Snmp Store

/-! ## Rows -/

inductive RowKind where
  | port
  | lag
  | vlan
  | management
  deriving DecidableEq, Repr

/-- A row: what it shows and the settings read for it. -/
structure InterfaceRow where
  kind : RowKind
  name : String
  entry : Fields
  deriving DecidableEq

structure InterfaceSnapshot where
  identity : InterfaceMaps
  rows : Dict UInt32 InterfaceRow
  /-- Counters of ports by object identifier. -/
  portCounters : Dict String Fields
  /-- Counters of router interfaces by object identifier. -/
  rifCounters : Dict String Fields
  deriving DecidableEq

namespace InterfaceSnapshot

/-- The table without rows. -/
def empty : InterfaceSnapshot := ⟨.empty, .empty, .empty, .empty⟩

/-- Reads the settings of a management port, whose state is kept apart. -/
def readManagement (n : Namespaces) (name : String) : Logged Fields :=
  let places :=
    [ (Database.config, Schema.tableKey Schema.managementPortConfig '|' name)
    , (Database.state, Schema.tableKey Schema.managementPortState '|' name) ]
  places.foldlM
    (fun entry (db, key) =>
      match n.host.getAll db key with
      | .ok fields => pure (entry.merge fields)
      | .error e => do
        Logged.tell (.managementUnread key e)
        pure entry)
    Dict.empty

def readEntry (n : Namespaces) (kind : RowKind) (name : String) : Logged Fields :=
  let fromTable (table : String) : Logged Fields :=
    (n.getAll .appl (Schema.tableKey table ':' name)).serve table
  match kind with
  | .port => fromTable Schema.portTable
  | .lag => fromTable Schema.lagTable
  | .vlan => fromTable Schema.vlanTable
  | .management => readManagement n name

def readCounters (n : Namespaces) (id : String) : Logged Fields :=
  (n.getAll .counters (Schema.counterKey id)).serve "COUNTERS"

/-- Every interface with an index. Where two share one, the later is shown. -/
def named (identity : InterfaceMaps) : List (UInt32 × RowKind × String) :=
  identity.ports.nameByIndex.toList.map (fun p => (p.1, .port, p.2)) ++
    identity.lags.lagByIndex.toList.map (fun p => (p.1, .lag, p.2)) ++
    identity.vlans.nameByIndex.toList.map (fun p => (p.1, .vlan, p.2)) ++
    identity.management.nameByIndex.toList.map (fun p => (p.1, .management, p.2))

def addRow (n : Namespaces) (rows : Dict UInt32 InterfaceRow)
    (item : UInt32 × RowKind × String) : Logged (Dict UInt32 InterfaceRow) := do
  let (index, kind, name) := item
  let entry ← readEntry n kind name
  pure (rows.insert index { kind, name, entry })

def addPortCounters (n : Namespaces) (counters : Dict String Fields) (id : String) :
    Logged (Dict String Fields) := do
  pure (counters.insert id (← readCounters n id))

/-- Reads the counters of one router interface, once. -/
def addRifCounters (n : Namespaces) (counters : Dict String Fields) (id : String) :
    Logged (Dict String Fields) :=
  if counters.contains id then pure counters else addPortCounters n counters id

/-- The identifiers of the router interfaces whose counters are shown. -/
def rifIds (identity : InterfaceMaps) : List String :=
  identity.rifs.portByRif.keys ++ identity.vlans.idByIndex.values

def read (n : Namespaces) (identity : InterfaceMaps) : Logged InterfaceSnapshot := do
  let rows ← (named identity).foldlM (addRow n) Dict.empty
  let portCounters ← identity.ports.idByName.values.foldlM (addPortCounters n) Dict.empty
  let rifCounters ← (rifIds identity).foldlM (addRifCounters n) Dict.empty
  pure { identity, rows, portCounters, rifCounters }

/-! ## Counters -/

/-- The port counter shown in each counter column. -/
def counterOfColumn : List (Nat × String) :=
  [ (10, "SAI_PORT_STAT_IF_IN_OCTETS")
  , (11, "SAI_PORT_STAT_IF_IN_UCAST_PKTS")
  , (12, "SAI_PORT_STAT_IF_IN_NON_UCAST_PKTS")
  , (13, "SAI_PORT_STAT_IF_IN_DISCARDS")
  , (14, "SAI_PORT_STAT_IF_IN_ERRORS")
  , (15, "SAI_PORT_STAT_IF_IN_UNKNOWN_PROTOS")
  , (16, "SAI_PORT_STAT_IF_OUT_OCTETS")
  , (17, "SAI_PORT_STAT_IF_OUT_UCAST_PKTS")
  , (18, "SAI_PORT_STAT_IF_OUT_NON_UCAST_PKTS")
  , (19, "SAI_PORT_STAT_IF_OUT_DISCARDS")
  , (20, "SAI_PORT_STAT_IF_OUT_ERRORS")
  , (21, "SAI_PORT_STAT_IF_OUT_QLEN") ]

/-- The error counter of a router interface that is added to a port counter. -/
def addedRifCounter : List (String × String) :=
  [ ("SAI_PORT_STAT_IF_IN_ERRORS", "SAI_ROUTER_INTERFACE_STAT_IN_ERROR_PACKETS")
  , ("SAI_PORT_STAT_IF_OUT_ERRORS", "SAI_ROUTER_INTERFACE_STAT_OUT_ERROR_PACKETS") ]

/-- The counter of a router interface that stands for a port counter in a VLAN row. -/
def vlanRifCounter : List (String × String) :=
  [ ("SAI_PORT_STAT_IF_IN_OCTETS", "SAI_ROUTER_INTERFACE_STAT_IN_OCTETS")
  , ("SAI_PORT_STAT_IF_IN_UCAST_PKTS", "SAI_ROUTER_INTERFACE_STAT_IN_PACKETS")
  , ("SAI_PORT_STAT_IF_IN_ERRORS", "SAI_ROUTER_INTERFACE_STAT_IN_ERROR_PACKETS")
  , ("SAI_PORT_STAT_IF_OUT_OCTETS", "SAI_ROUTER_INTERFACE_STAT_OUT_OCTETS")
  , ("SAI_PORT_STAT_IF_OUT_UCAST_PKTS", "SAI_ROUTER_INTERFACE_STAT_OUT_PACKETS")
  , ("SAI_PORT_STAT_IF_OUT_ERRORS", "SAI_ROUTER_INTERFACE_STAT_OUT_ERROR_PACKETS") ]

/-- A counter of 64 bits among fields. -/
def counterIn (fields : Fields) (counter : String) : Option UInt64 :=
  (fields.get? counter).bind fun text => (Text.readWord64 text).toOption

def lowHalf (v : UInt64) : UInt32 := v.toUInt32

def portCounter (snap : InterfaceSnapshot) (port counter : String) : Option UInt64 := do
  let id ← snap.identity.ports.idByName.get? port
  let fields ← snap.portCounters.get? id
  counterIn fields counter

def rifCounter (snap : InterfaceSnapshot) (rif counter : String) : Option UInt64 := do
  let fields ← snap.rifCounters.get? rif
  counterIn fields counter

/-- The errors of the router interface on an object, zero if there are none to add. -/
def rifErrors (snap : InterfaceSnapshot) (id? : Option String) (counter : String) : UInt64 :=
  (do
    let added ← addedRifCounter.lookup counter
    let id ← id?
    let rif ← snap.identity.rifs.rifByPort.get? id
    snap.rifCounter rif added).getD 0

/-- The sum of the low halves of the counters of the members that have one. -/
def memberSum (snap : InterfaceSnapshot) (members : List String) (counter : String) : UInt64 :=
  (members.filterMap fun m => snap.portCounter m counter).foldr
    (fun v total => (lowHalf v).toUInt64 + total) 0

def vlanCounter (snap : InterfaceSnapshot) (index : UInt32) (counter : String) :
    Option UInt64 := do
  let id ← snap.identity.vlans.idByIndex.get? index
  snap.rifCounter id counter

def rowCounter (snap : InterfaceSnapshot) (index : UInt32) (row : InterfaceRow)
    (counter : String) : Option UInt32 :=
  match row.kind with
  | .port =>
    (snap.portCounter row.name counter).map fun v =>
      lowHalf (v + snap.rifErrors (snap.identity.ports.idByName.get? row.name) counter)
  | .lag =>
    some (lowHalf (snap.memberSum (snap.identity.lags.members row.name) counter +
      snap.rifErrors (snap.identity.lags.idByLag.get? row.name) counter))
  | .vlan => (vlanRifCounter.lookup counter).bind fun mapped =>
    (snap.vlanCounter index mapped).map lowHalf
  | .management => none

/-- The complaint about a port without a counter. -/
def portComplaint (snap : InterfaceSnapshot) (counter port : String) :
    Option (String × Event) :=
  match snap.portCounter port counter with
  | some _ => none
  | none => some (Once.joined ':' port counter, .portCounterMissing port counter)

/-- The complaints about the counters that a counter of a row misses. -/
def counterComplaints (snap : InterfaceSnapshot) (index : UInt32) (row : InterfaceRow)
    (counter : String) : List (String × Event) :=
  match row.kind with
  | .port => (snap.portComplaint counter row.name).toList
  | .lag => (snap.identity.lags.members row.name).filterMap (snap.portComplaint counter)
  | .vlan =>
    match vlanRifCounter.lookup counter with
    | none => []
    | some mapped =>
      match snap.vlanCounter index mapped with
      | some _ => []
      | none => [(Once.joined ':' row.name mapped, .vlanCounterMissing row.name mapped)]
  | .management => []

/-! ## Columns -/

/-- A status word: `up` is 1, everything else is down. -/
def statusCode (status : Option String) : Int32 := if status = some "up" then 1 else 2

/-- A speed in bits per second from one in megabits, at most the greatest number of 32 bits. -/
def speedGauge (megabits : UInt64) : UInt32 :=
  if megabits.toNat * 1000000 < UInt32.size then UInt32.ofNat (megabits.toNat * 1000000)
  else UInt32.ofNat (UInt32.size - 1)

def typeNumber : RowKind → Int32
  | .port | .management => 6
  | .lag => 161
  | .vlan => 136

def description (snap : InterfaceSnapshot) (row : InterfaceRow) : String :=
  match row.kind with
  | .port => snap.identity.ports.aliasOf row.name
  | .management => (snap.identity.management.aliasByName.get? row.name).getD row.name
  | .lag | .vlan => row.name

def columns : List UInt32 :=
  [1, 2, 3, 4, 5, 6, 7, 8, 9, 10, 11, 12, 13, 14, 15, 16, 17, 18, 19, 20, 21, 22]

def rowColumn (snap : InterfaceSnapshot) (column : Nat) (index : UInt32) (row : InterfaceRow) :
    Option Value :=
  match column with
  | 1 => Value.ofIndex index.toNat
  | 2 => some (.text (snap.description row))
  | 3 => some (.integer (typeNumber row.kind))
  | 4 =>
    let mtu := (row.entry.get? Schema.mtu).bind fun v => (Text.readInt32 v).toOption
    some (.integer (mtu.getD 0))
  | 5 =>
    let speed := (row.entry.get? Schema.speed).bind fun v => (Text.readWord64 v).toOption
    some (.gauge32 (speedGauge (speed.getD 0)))
  | 6 => some (.octets [])
  | 7 => some (.integer (statusCode (row.entry.get? Schema.adminStatus)))
  | 8 => some (.integer (statusCode (row.entry.get? Schema.operStatus)))
  | 9 => some (.timeTicks 0)
  | 22 => some .nullOid
  | _ =>
    (counterOfColumn.lookup column).bind fun counter =>
      (snap.rowCounter index row counter).map fun v =>
        if column = 21 then .gauge32 v else .counter32 v

def column (snap : InterfaceSnapshot) (column index : UInt32) : Option Value :=
  (snap.rows.get? index).bind (snap.rowColumn column.toNat index)

/-- What reading a cell of the table misses. -/
def complaints (snap : InterfaceSnapshot) (column index : UInt32) :
    List (String × Event) :=
  match snap.rows.get? index, counterOfColumn.lookup column.toNat with
  | some row, some counter => snap.counterComplaints index row counter
  | _, _ => []

/-! ## Cells -/

def countCell : SubId := [1, 0]

def entryLead : List UInt32 := [2, 1]

def rowIds (snap : InterfaceSnapshot) : List SubId := snap.rows.keys.map fun index => [index]

def valueAt (snap : InterfaceSnapshot) (sub : SubId) : Option Value :=
  if sub = countCell then Value.ofIndex snap.rows.size
  else match entryLead.isPrefixOf? sub with
    | some [column, index] => snap.column column index
    | _ => none

/-- What reading a cell misses. -/
def complaintsAt (snap : InterfaceSnapshot) (sub : SubId) : List (String × Event) :=
  match entryLead.isPrefixOf? sub with
  | some [column, index] => snap.complaints column index
  | _ => []

def next (snap : InterfaceSnapshot) (sub : SubId) : Option SubId :=
  if KeyOrder.before sub countCell then some countCell
  else nextBelow entryLead sub (nextCell columns snap.rowIds)

/-- Every cell, in walk order. -/
def cells (snap : InterfaceSnapshot) : List SubId :=
  countCell :: (Snmp.cells columns snap.rowIds).map (entryLead ++ ·)

end InterfaceSnapshot

/-! ## The table -/

/-- The interface table. The identity may be newer than that of the committed snapshot. -/
structure Interfaces where
  identity : InterfaceMaps
  cell : SnapshotCell InterfaceSnapshot
  /-- The missing counters told about, by interface and counter. -/
  warned : Once String

namespace Interfaces

def top : Oid := ⟨[1, 3, 6, 1, 2, 1, 2]⟩

/-- Commits what is read for the current identity. -/
def refresh (out : Outside) (t : Interfaces) : Logged (Attempt Interfaces) := do
  let snap ← InterfaceSnapshot.read out.namespaces t.identity
  pure (.done { t with cell := t.cell.refresh (ε := AgentError) (.ok snap) })

/-- Loads the identity again. Complaints start anew when it has changed. -/
def reinit (out : Outside) (t : Interfaces) : Logged (Attempt Interfaces) := do
  match ← (InterfaceMaps.load out.namespaces).run with
  | .error e => pure (.failed e t)
  | .ok identity =>
    if identity = t.identity then pure (.done t)
    else
      Logged.tell .interfacesChanged
      pure (.done { t with identity, warned := .fresh })

/-- The table with its first snapshot. -/
def build (out : Outside) : Load AgentError Interfaces := do
  let identity ← InterfaceMaps.load out.namespaces
  Attempt.toLoad (refresh out ⟨identity, .fresh .empty, .fresh⟩)

def valueAt (t : Interfaces) (sub : SubId) : Option Value := t.cell.current.valueAt sub

def next (t : Interfaces) (sub : SubId) : Option SubId := t.cell.current.next sub

/-- Every cell, in walk order. -/
def cells (t : Interfaces) : List SubId := t.cell.current.cells

/-- Tells what reading a cell misses, once for each counter. -/
def noteRead (t : Interfaces) (sub : SubId) : Logged Interfaces := do
  pure { t with warned := ← t.warned.tellNew (t.cell.current.complaintsAt sub) }

end Interfaces

end SwitchMib.Mib
