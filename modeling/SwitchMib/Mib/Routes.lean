import SwitchMib.Mib.Outside
import SwitchMib.Net.IfName
import SwitchMib.Net.Ipv4
import SwitchMib.Snmp.Cell
import SwitchMib.Snmp.Snapshot
import SwitchMib.Snmp.Value
import SwitchMib.Store.Schema

/-!
# The default route

One row per next hop of the default route, by network, mask and hop.

* `hopArcs`: the sub-identifier of a next hop of a block.
* `nextHops`: the next hops of a route entry. A hop over a backplane port stays inside the device
  and is left out.
* `Routes`: the table.
-/

namespace SwitchMib.Mib
set_option autoImplicit false

open Net Snmp Store

/-- The sub-identifier of a next hop of a block: network, mask and hop. -/
def hopArcs (block : Ipv4Block) (hop : Ipv4) : SubId :=
  block.network.arcs ++ block.netmask.arcs ++ hop.arcs

/-- Whether an interface is a backplane port. -/
def onBackplane (interface : String) : Bool :=
  match IfName.classify interface with
  | some (.backplane, _) => true
  | _ => false

/-- The IPv4 next hops of a route entry. Hops and their interfaces are listed in parallel. -/
def nextHops (entry : Fields) : List Ipv4 :=
  let list (field : String) : List String := ((entry.get? field).map (Text.split ',')).getD []
  let interfaces := list Schema.hopInterface
  (list Schema.nextHop).zipIdx.filterMap fun (hop, i) =>
    if interfaces[i]?.any onBackplane then none else (Ipv4.parse hop).toOption

def defaultRouteKey : String := Schema.tableKey Schema.routeTable ':' Ipv4Block.everything.display

/-- Adds the next hops that one namespace knows. -/
def addHops (rows : SubIdIndex Ipv4) (ns : Namespace) : Logged (SubIdIndex Ipv4) :=
  match ns.getAll .appl defaultRouteKey with
  | .ok entry =>
    pure (rows.insertAll ((nextHops entry).map fun hop =>
      (hopArcs .everything hop, Ipv4Block.everything.network)))
  | .error e => do
    Logged.tell (.routeUnread ns.name e)
    pure rows

structure Routes where
  cell : SnapshotCell (SubIdIndex Ipv4)

namespace Routes

def top : Oid := ⟨[1, 3, 6, 1, 2, 1, 4, 24, 4, 1, 1]⟩

/-- Commits the next hops of all members. A member that cannot be read is passed over. -/
def refresh (out : Outside) (t : Routes) : Logged (Attempt Routes) := do
  let rows ← out.namespaces.members.foldlM addHops Dict.empty
  pure (.done { t with cell := t.cell.refresh (ε := AgentError) (.ok rows) })

/-- There is no identity to load. -/
def reinit (_out : Outside) (t : Routes) : Logged (Attempt Routes) := pure (.done t)

/-- The table with its first snapshot. -/
def build (out : Outside) : Load AgentError Routes := Attempt.toLoad (refresh out ⟨.fresh .empty⟩)

def valueAt (t : Routes) (sub : SubId) : Option Value :=
  (t.cell.current.get? sub).map .ipAddress

def next (t : Routes) (sub : SubId) : Option SubId := t.cell.current.above? sub

/-- Every cell, in walk order. -/
def cells (t : Routes) : List SubId := t.cell.current.keys

end Routes

end SwitchMib.Mib
