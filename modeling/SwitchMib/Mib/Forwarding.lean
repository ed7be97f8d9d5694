import SwitchMib.Document.Json
import SwitchMib.Identity.Ports
import SwitchMib.Mib.Outside
import SwitchMib.Net.Mac
import SwitchMib.Net.Vlan
import SwitchMib.Snmp.Cell
import SwitchMib.Snmp.Snapshot
import SwitchMib.Snmp.Value

/-!
# The forwarding table

The interfaces on which addresses were learned, by VLAN and address. An entry of the chip names a
bridge port, the bridge port a port, and the port an interface.

* `ForwardingKey`: the object at the end of the key of an entry.
* `SkipReason`: why an entry has no row.
* `resolve`: the row of an entry.
* `Forwarding`: the table.
-/

namespace SwitchMib.Mib
set_option autoImplicit false

open Document Identity Snmp Store

/-! ## Keys -/

/-- The object at the end of the key of an entry. -/
structure ForwardingKey where
  mac : String
  vlan : Option String
  /-- The object identifier of the VLAN, used where there is no number. -/
  vlanId : Option String
  deriving DecidableEq

namespace ForwardingKey

/-- A text, or nothing for null. -/
def optionalText : Json → Option (Option String)
  | .null => some none
  | j => j.toText?.map some

/-- The members with a name. -/
def membersOf (name : String) (members : List (String × Json)) : List Json :=
  (members.filter fun member => member.1 == name).map (·.2)

/-- A text or nothing from the members with one name. A name must not occur twice. -/
def optionalMember : List Json → Option (Option String)
  | [] => some none
  | [j] => optionalText j
  | _ => none

/-- The key of an object, whose further members do not matter, or of a list of its members in
order. -/
def ofJson? : Json → Option ForwardingKey
  | .object members => do
    let named ← members.mapM fun (units, j) => (Json.unitText? units).map (·, j)
    let mac ← match membersOf "mac" named with
      | [j] => j.toText?
      | _ => none
    let vlan ← optionalMember (membersOf "vlan" named)
    let vlanId ← optionalMember (membersOf "bvid" named)
    pure { mac, vlan, vlanId }
  | .array [mac] => do
    pure { mac := ← mac.toText?, vlan := none, vlanId := none }
  | .array [mac, vlan] => do
    pure { mac := ← mac.toText?, vlan := ← optionalText vlan, vlanId := none }
  | .array [mac, vlan, vlanId] => do
    pure { mac := ← mac.toText?, vlan := ← optionalText vlan, vlanId := ← optionalText vlanId }
  | _ => none

/-- Reads the text at the end of a key. -/
def parse (s : String) : Option ForwardingKey := (Json.parse s).bind ofJson?

end ForwardingKey

/-! ## Identity -/

/-- What the rows are found by. -/
structure ForwardingMaps where
  ports : PortMaps
  /-- Ports by bridge port, without the leads of the identifiers. -/
  portByBridgePort : Dict String String
  deriving DecidableEq

namespace ForwardingMaps

/-- No ports. -/
def empty : ForwardingMaps := ⟨.empty, .empty⟩

def bridgePortLead : String := Schema.tableLead Schema.bridgePortType ':'

/-- The bridge ports read so far, and those without a port by key, each with what is to be told. -/
structure BridgePorts where
  portByBridgePort : Dict String String
  unbound : List (String × Event)

/-- Reads the bridge port with a key. -/
def addBridgePort (ns : Namespace) (acc : BridgePorts) (key : String) :
    BridgePorts × Except StoreError Unit :=
  match Text.after? bridgePortLead key with
  | none => (acc, .ok ())
  | some id =>
    match ns.getAll .asic key with
    | .error e => (acc, .error e)
    | .ok entry =>
      let id := Schema.bareId id
      match entry.get? Schema.bridgePortPort with
      | some port =>
        ({ acc with portByBridgePort := acc.portByBridgePort.insert id (Schema.bareId port) },
          .ok ())
      | none => ({ acc with unbound := acc.unbound ++ [(key, .bridgePortUnbound id)] }, .ok ())

/-- Reads bridge ports up to the first read that fails. -/
def addBridgePorts (ns : Namespace) (acc : BridgePorts) :
    List String → BridgePorts × Except StoreError Unit
  | [] => (acc, .ok ())
  | key :: rest =>
    match addBridgePort ns acc key with
    | (acc, .ok _) => addBridgePorts ns acc rest
    | (acc, .error e) => (acc, .error e)

/-- Reads the bridge ports of namespaces up to the first read that fails. -/
def readBridgePorts (acc : BridgePorts) : List Namespace → BridgePorts × Except StoreError Unit
  | [] => (acc, .ok ())
  | ns :: rest =>
    match ns.keys .asic (bridgePortLead ++ "*") with
    | .error e => (acc, .error e)
    | .ok keys =>
      match addBridgePorts ns acc keys with
      | (acc, .ok _) => readBridgePorts acc rest
      | (acc, .error e) => (acc, .error e)

/-- Loads the ports and bridge ports. The memory of the bridge ports told about outlives a
failure. -/
def load (n : Namespaces) (warned : Once String) :
    Logged (Except AgentError ForwardingMaps × Once String) := do
  match ← (PortMaps.loadAll n).run with
  | .error e => pure (.error e, warned)
  | .ok ports =>
    let (read, done) := readBridgePorts ⟨.empty, []⟩ n.members
    let warned ← warned.tellNew read.unbound
    match done with
    | .error e => pure (.error (.store e), warned)
    | .ok _ => pure (.ok { ports, portByBridgePort := read.portByBridgePort }, warned)

end ForwardingMaps

/-! ## Rows -/

/-- Why an entry has no row. -/
inductive SkipReason where
  | foreignKey
  | unreadableKey
  | invalidMac
  | noBridgePort
  | unknownBridgePort
  | unknownPort
  | noIndex
  | noVlan
  deriving DecidableEq, Repr

def SkipReason.text : SkipReason → String
  | .foreignKey => "key is not an FDB entry"
  | .unreadableKey => "key is not valid JSON"
  | .invalidMac => "invalid MAC address"
  | .noBridgePort => "no bridge port"
  | .unknownBridgePort => "unknown bridge port"
  | .unknownPort => "bridge port is not on a known interface"
  | .noIndex => "interface has no ifindex"
  | .noVlan => "no VLAN id"

/-- A reason with the object that it hinges on. -/
structure Skip where
  reason : SkipReason
  subject : String
  deriving DecidableEq

/-- Entries are complained about by reason and object, not one by one. -/
def Skip.complaintKey (skip : Skip) : String := Once.joined '|' skip.reason.text skip.subject

def forwardingLead : String := Schema.tableLead Schema.forwardingEntryType ':'

/-- Reads the VLAN of an entry: the number in its key, or else the number of its VLAN object. -/
def readVlan (n : Namespaces) (key : ForwardingKey) : Logged (Option Net.VlanId) :=
  match key.vlan, key.vlanId with
  | some number, _ => pure (Net.VlanId.parse number).toOption
  | none, none => pure none
  | none, some id => do
    let entry ← (n.getAll .asic (Schema.tableKey Schema.vlanType ':' id)).serve Schema.vlanType
    pure ((entry.get? Schema.vlanNumber).bind fun number => (Net.VlanId.parse number).toOption)

/-- The interface that an entry was learned on. -/
def learnedOn (maps : ForwardingMaps) (entry : Fields) : Except Skip UInt32 := do
  let some bridgePort := (entry.get? Schema.forwardingBridgePort).map Schema.bareId
    | throw ⟨.noBridgePort, ""⟩
  let some port := maps.portByBridgePort.get? bridgePort
    | throw ⟨.unknownBridgePort, bridgePort⟩
  let some name := maps.ports.nameById.get? port
    | throw ⟨.unknownPort, port⟩
  let some index := Net.IfName.index? name
    | throw ⟨.noIndex, name⟩
  pure index

def readKey (key : String) : Except Skip (ForwardingKey × Net.Mac) := do
  let some object := Text.after? forwardingLead key
    | throw ⟨.foreignKey, ""⟩
  let some parsed := ForwardingKey.parse object
    | throw ⟨.unreadableKey, ""⟩
  match Net.Mac.parse parsed.mac with
  | .ok mac => pure (parsed, mac)
  | .error _ => throw ⟨.invalidMac, ""⟩

/-- The row of an entry, or why there is none. -/
def resolve (n : Namespaces) (maps : ForwardingMaps) (key : String) :
    Logged (Except Skip (SubId × UInt32)) := do
  match readKey key with
  | .error skip => pure (.error skip)
  | .ok (parsed, mac) =>
    let entry ← (n.getAll .asic key).serve Schema.forwardingEntryType
    match learnedOn maps entry with
    | .error skip => pure (.error skip)
    | .ok index =>
      match ← readVlan n parsed with
      | some vlan => pure (.ok (vlan.arc :: mac.arcs, index))
      | none => pure (.error ⟨.noVlan, (parsed.vlan <|> parsed.vlanId).getD ""⟩)

/-- The rows found so far and the reasons told about, each with the object that it hinges on. -/
structure ForwardingRows where
  rows : SubIdIndex UInt32
  warned : Once String

/-- Enters the row of an entry, or tells why there is none. -/
def addForwarding (n : Namespaces) (maps : ForwardingMaps) (acc : ForwardingRows) (key : String) :
    Logged ForwardingRows := do
  match ← resolve n maps key with
  | .ok (sub, index) => pure { acc with rows := acc.rows.insert sub index }
  | .error skip =>
    let event := Event.forwardingSkipped key skip.reason.text skip.subject
    let warned ← acc.warned.tellNew [(skip.complaintKey, event)]
    pure { acc with warned }

def readForwarding (n : Namespaces) (maps : ForwardingMaps) (warned : Once String) :
    Logged ForwardingRows := do
  let keys ← (n.keys .asic (forwardingLead ++ "*")).serve Schema.forwardingEntryType
  keys.foldlM (addForwarding n maps) ⟨.empty, warned⟩

/-! ## The table -/

structure Forwarding where
  identity : ForwardingMaps
  cell : SnapshotCell (SubIdIndex UInt32)
  /-- The reasons told about. -/
  warned : Once String
  /-- The bridge ports told about, by key. -/
  bridgePortsWarned : Once String

namespace Forwarding

def top : Oid := ⟨[1, 3, 6, 1, 2, 1, 17, 7, 1, 2, 2, 1, 2]⟩

def refresh (out : Outside) (t : Forwarding) : Logged (Attempt Forwarding) := do
  let found ← readForwarding out.namespaces t.identity t.warned
  let cell := t.cell.refresh (ε := AgentError) (.ok found.rows)
  pure (.done { t with cell, warned := found.warned })

/-- Loads the identity again. Complaints about entries start anew when it has changed. -/
def reinit (out : Outside) (t : Forwarding) : Logged (Attempt Forwarding) := do
  let (loaded, bridgePortsWarned) ← ForwardingMaps.load out.namespaces t.bridgePortsWarned
  let t := { t with bridgePortsWarned }
  match loaded with
  | .error e => pure (.failed e t)
  | .ok identity =>
    if identity = t.identity then pure (.done t)
    else
      Logged.tell .bridgePortsChanged
      pure (.done { t with identity, warned := .fresh })

/-- The table with its first identity and snapshot. -/
def build (out : Outside) : Load AgentError Forwarding := do
  let t ← Attempt.toLoad (reinit out ⟨.empty, .fresh .empty, .fresh, .fresh⟩)
  Attempt.toLoad (refresh out t)

def valueAt (t : Forwarding) (sub : SubId) : Option Value :=
  (t.cell.current.get? sub).bind fun index => Value.ofIndex index.toNat

def next (t : Forwarding) (sub : SubId) : Option SubId := t.cell.current.above? sub

/-- Every cell, in walk order. -/
def cells (t : Forwarding) : List SubId := t.cell.current.keys

end Forwarding

end SwitchMib.Mib
