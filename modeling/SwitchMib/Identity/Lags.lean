import SwitchMib.Net.IfName
import SwitchMib.Store.Namespaces
import SwitchMib.Store.Schema

/-!
# Identity of the link aggregation groups

* `LagMaps`: groups, their members, indexes and object identifiers.
* `LagMaps.load`: the groups of one namespace.
* `LagMaps.loadAll`: the groups of all members; a later one replaces whole entries.
-/

namespace SwitchMib.Identity
set_option autoImplicit false

open Store

/-- What is known of link aggregation groups. -/
structure LagMaps where
  /-- Every group, with or without an index. -/
  membersByLag : Dict String (List String)
  lagByMember : Dict String String
  /-- The groups whose names have an index. -/
  lagByIndex : Dict UInt32 String
  /-- Object identifiers without their lead. -/
  idByLag : Dict String String
  deriving DecidableEq

namespace LagMaps

/-- No groups. -/
def empty : LagMaps := ⟨.empty, .empty, .empty, .empty⟩

instance : Inhabited LagMaps := ⟨empty⟩

def members (maps : LagMaps) (lag : String) : List String := (maps.membersByLag.get? lag).getD []

/-- The entries of both, those of the second winning. -/
def merge (a b : LagMaps) : LagMaps where
  membersByLag := a.membersByLag.merge b.membersByLag
  lagByMember := a.lagByMember.merge b.lagByMember
  lagByIndex := a.lagByIndex.merge b.lagByIndex
  idByLag := a.idByLag.merge b.idByLag

def lagLead : String := Schema.tableLead Schema.lagTable ':'

/-- The lead of the keys of the members of a group. -/
def memberLead (lag : String) : String :=
  Schema.tableLead (Schema.tableKey Schema.lagMemberTable ':' lag) ':'

/-- Enters a group with its members. -/
def addLag (maps : LagMaps) (lag : String) (members : List String) : LagMaps :=
  { maps with
    membersByLag := maps.membersByLag.insert lag members
    lagByMember := maps.lagByMember.insertAll (members.map (·, lag))
    lagByIndex :=
      match Net.IfName.index? lag with
      | some index => maps.lagByIndex.insert index lag
      | none => maps.lagByIndex }

/-- Reads the members of the group with a key. -/
def addKey (ns : Namespace) (maps : LagMaps) (key : String) : Load AgentError LagMaps :=
  match Text.after? lagLead key with
  | none => pure maps
  | some lag => do
    let memberKeys ← Load.ofRead (ns.keys .appl (memberLead lag ++ "*"))
    pure (maps.addLag lag (memberKeys.filterMap (Text.after? (memberLead lag))))

/-- The object identifiers of the groups. Without them the groups are served without the counters
of their own router interfaces. -/
def readIds (ns : Namespace) : Load AgentError (Dict String String) :=
  match ns.getAll .counters Schema.lagNameMap with
  | .ok entries =>
    pure (Dict.empty.insertAll (entries.toList.map fun (lag, id) => (lag, Schema.bareId id)))
  | .error e => do
    Load.tell (.lagNamesUnread e)
    pure Dict.empty

def load (ns : Namespace) : Load AgentError LagMaps := do
  let keys ← Load.ofRead (ns.keys .appl (lagLead ++ "*"))
  if keys.isEmpty then pure empty
  else
    let ids ← readIds ns
    keys.foldlM (addKey ns) { empty with idByLag := ids }

def loadAll (n : Namespaces) : Load AgentError LagMaps :=
  n.members.foldlM (fun maps ns => do pure (maps.merge (← load ns))) empty

end LagMaps

end SwitchMib.Identity
