import SwitchMib.Text.Blank

/-!
# Tables, keys and fields of the store

The names under which the switch publishes its state, and the layout of the keys made of them.

* `counterKey`, `queueCounterKey`: the counters of an object.
* `tableKey`: an entry of a table.
* `bareId`: an object identifier without its lead.
-/

namespace SwitchMib.Store.Schema
set_option autoImplicit false

/-! ## Maps of names in the counters database -/

def portNameMap : String := "COUNTERS_PORT_NAME_MAP"
def lagNameMap : String := "COUNTERS_LAG_NAME_MAP"
def queueNameMap : String := "COUNTERS_QUEUE_NAME_MAP"
def rifNameMap : String := "COUNTERS_RIF_NAME_MAP"
def rifTypeMap : String := "COUNTERS_RIF_TYPE_MAP"

/-! ## Tables -/

def portTable : String := "PORT_TABLE"
def lagTable : String := "LAG_TABLE"
def lagMemberTable : String := "LAG_MEMBER_TABLE"
def vlanTable : String := "VLAN_TABLE"
def routeTable : String := "ROUTE_TABLE"
def managementPortConfig : String := "MGMT_PORT"
def managementPortState : String := "MGMT_PORT_TABLE"
def chassisInfo : String := "CHASSIS_INFO"
def psuInfo : String := "PSU_INFO"
def transceiverInfo : String := "TRANSCEIVER_INFO"
def transceiverSensors : String := "TRANSCEIVER_DOM_SENSOR"

/-- The entry of the chassis with the number of power supplies. -/
def chassisEntry : String := "chassis 1"

/-! ## Objects of the switching chips -/

def routerInterfaceType : String := "ASIC_STATE:SAI_OBJECT_TYPE_ROUTER_INTERFACE"
def bridgePortType : String := "ASIC_STATE:SAI_OBJECT_TYPE_BRIDGE_PORT"
def forwardingEntryType : String := "ASIC_STATE:SAI_OBJECT_TYPE_FDB_ENTRY"
def vlanType : String := "ASIC_STATE:SAI_OBJECT_TYPE_VLAN"

/-! ## Fields -/

def aliasField : String := "alias"
def adminStatus : String := "admin_status"
def operStatus : String := "oper_status"
def mtu : String := "mtu"
def speed : String := "speed"
def nextHop : String := "nexthop"
def hopInterface : String := "ifname"
def psuCount : String := "psu_num"
def presence : String := "presence"
def status : String := "status"
def rifPort : String := "SAI_ROUTER_INTERFACE_ATTR_PORT_ID"
def rifTypeVlan : String := "SAI_ROUTER_INTERFACE_TYPE_VLAN"
def bridgePortPort : String := "SAI_BRIDGE_PORT_ATTR_PORT_ID"
def forwardingBridgePort : String := "SAI_FDB_ENTRY_ATTR_BRIDGE_PORT_ID"
def vlanNumber : String := "SAI_VLAN_ATTR_VLAN_ID"
def overlayType : String := "type"
def overlayData : String := "data"

/-! ## Keys -/

def idLead : String := "oid:0x"

/-- An object identifier without its lead, if it has one. -/
def bareId (id : String) : String := Text.dropLead idLead id

/-- The counters of the object with a bare identifier. -/
def counterKey (id : String) : String := "COUNTERS:" ++ idLead ++ id

/-- The counters of the queue with an identifier as it is stored. -/
def queueCounterKey (id : String) : String := "COUNTERS:" ++ id

def tableKey (table : String) (separator : Char) (key : String) : String :=
  table ++ String.singleton separator ++ key

def tableLead (table : String) (separator : Char) : String := table ++ String.singleton separator

end SwitchMib.Store.Schema
