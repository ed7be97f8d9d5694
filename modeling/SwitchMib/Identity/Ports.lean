import SwitchMib.Net.IfName
import SwitchMib.Store.Namespaces
import SwitchMib.Store.Schema

/-!
# Identity of the ports

The port name map gives the object identifier of every port by its name; the index follows from
the name, the alias is kept with the settings of the port.

* `PortMaps`: names, indexes, aliases and object identifiers of ports.
* `PortMaps.load`: the ports of one namespace, entered in the order in which its hashes are visited.
  A namespace without any is incoherent.
* `PortMaps.loadAll`: the ports of all members, a later one winning.
-/

namespace SwitchMib.Identity
set_option autoImplicit false

open Store

/-- What is known of front-panel and backplane ports. -/
structure PortMaps where
  indexByName : Dict String UInt32
  nameByIndex : Dict UInt32 String
  aliasByName : Dict String String
  /-- Object identifiers without their lead. -/
  idByName : Dict String String
  nameById : Dict String String
  deriving DecidableEq

namespace PortMaps

/-- No ports. -/
def empty : PortMaps := ⟨.empty, .empty, .empty, .empty, .empty⟩

instance : Inhabited PortMaps := ⟨empty⟩

/-- The alias of a port; a port without one goes by its name. -/
def aliasOf (maps : PortMaps) (name : String) : String := (maps.aliasByName.get? name).getD name

def size (maps : PortMaps) : Nat := maps.nameByIndex.size

/-- Whether no index is in use. -/
def isEmpty (maps : PortMaps) : Bool := maps.nameByIndex.isEmpty

/-- The ports of both, those of the second winning. -/
def merge (a b : PortMaps) : PortMaps where
  indexByName := a.indexByName.merge b.indexByName
  nameByIndex := a.nameByIndex.merge b.nameByIndex
  aliasByName := a.aliasByName.merge b.aliasByName
  idByName := a.idByName.merge b.idByName
  nameById := a.nameById.merge b.nameById

/-- The index of a name of the port families. -/
def portIndex? (name : String) : Option UInt32 :=
  match Net.IfName.classify name with
  | some (family, index) => if family.isPort then some index else none
  | none => none

/-- Enters one entry of the port name map, unless its name is no port name. -/
def addEntry (maps : PortMaps) (entry : String × String) : PortMaps :=
  match portIndex? entry.1 with
  | none => maps
  | some index =>
    let id := Schema.bareId entry.2
    { maps with
      indexByName := maps.indexByName.insert entry.1 index
      nameByIndex := maps.nameByIndex.insert index entry.1
      idByName := maps.idByName.insert entry.1 id
      nameById := maps.nameById.insert id entry.1 }

/-- The names of a port name map that are no port names, in order. -/
def droppedNames (entries : List (String × String)) : List String :=
  ((entries.filter fun entry => (portIndex? entry.1).isNone).map (·.1)).mergeSort
    fun a b => !KeyOrder.before b a

def addAlias (ns : Namespace) (maps : PortMaps) (name : String) : Load AgentError PortMaps := do
  let entry ← Load.ofRead (ns.getAll .appl (Schema.tableKey Schema.portTable ':' name))
  let shown := (entry.get? Schema.aliasField).getD name
  pure { maps with aliasByName := maps.aliasByName.insert name shown }

/-- The ports of a namespace from the entries of its port name map, visited as listed. -/
def ofEntries (ns : Namespace) (entries : List (String × String)) : Load AgentError PortMaps := do
  let maps := entries.foldl addEntry empty
  if maps.isEmpty then throw (.incoherent Schema.portNameMap (.noPorts ns.name))
  let dropped := droppedNames entries
  if !dropped.isEmpty then Load.tell (.portsDropped dropped)
  maps.indexByName.keys.foldlM (addAlias ns) maps

def load (ns : Namespace) : Load AgentError PortMaps := do
  let entries ← Load.ofRead (ns.getAll .counters Schema.portNameMap)
  ofEntries ns (ns.visit.order entries)

def loadAll (n : Namespaces) : Load AgentError PortMaps :=
  n.members.foldlM (fun maps ns => do pure (maps.merge (← load ns))) empty

end PortMaps

end SwitchMib.Identity
