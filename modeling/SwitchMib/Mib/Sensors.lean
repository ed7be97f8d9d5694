import SwitchMib.Identity.Ports
import SwitchMib.Mib.Outside
import SwitchMib.Snmp.Cell
import SwitchMib.Snmp.Snapshot
import SwitchMib.Snmp.Value
import SwitchMib.Text.Real

/-!
# The sensor table

Readings of the sensors in transceivers. A transceiver is numbered by the index of its port times a
thousand, a sensor in it by a part number added to that.

* `SensorKind`: what is measured, with the unit codes and the precision of the table.
* `SensorKind.encode`: a reading as a fixed-point number.
* `sensorId`: the number of a sensor.
* `Sensors`: the table. Its refresh takes the encoding of readings as a parameter.
-/

namespace SwitchMib.Mib
set_option autoImplicit false

open Identity Snmp Store

/-! ## Kinds of sensors -/

/-- What a sensor measures. -/
inductive SensorKind where
  | temperature
  | voltage
  | rxPower
  | txBias
  | txPower
  deriving DecidableEq, Repr

namespace SensorKind

/-- The code of the unit: volts 4, amperes 5, watts 6, degrees Celsius 8. -/
def unitCode : SensorKind → Int32
  | .voltage => 4
  | .txBias => 5
  | .rxPower | .txPower => 6
  | .temperature => 8

/-- The code of the scale: thousandths 8, units 9. -/
def scaleCode : SensorKind → Int32
  | .temperature | .voltage => 9
  | .rxPower | .txBias | .txPower => 8

/-- The number of decimal places of the fixed-point number. -/
def precision : SensorKind → Nat
  | .temperature => 6
  | .voltage | .rxPower | .txBias | .txPower => 4

/-- The quantity of a reading. Powers are read in decibels of a milliwatt. -/
def quantity (kind : SensorKind) (reading : Float) : Float :=
  match kind with
  | .rxPower | .txPower => Float.pow 10.0 (reading / 10.0)
  | .temperature | .voltage | .txBias => reading

def limit : Float := 1000000000.0

def clamp (x : Float) : Float :=
  if x < -limit then -limit else if limit < x then limit else x

/-- A reading as a fixed-point number, halves rounded away from zero. -/
def encode (kind : SensorKind) (raw : String) : Option Int32 :=
  (Text.readFloat (Text.trim raw)).bind fun reading =>
    let quantity := kind.quantity reading
    if quantity.isNaN then none
    else some (clamp (quantity * Float.ofNat (Nat.pow 10 kind.precision)).round).toInt32

end SensorKind

/-! ## Parts -/

/-- The sensors of a transceiver: field, part number and kind. -/
def sensorParts : List (String × UInt32 × SensorKind) :=
  [ ("temperature", 1, .temperature)
  , ("voltage", 2, .voltage)
  , ("rx1power", 11, .rxPower)
  , ("tx1bias", 12, .txBias)
  , ("tx1power", 13, .txPower)
  , ("rx2power", 21, .rxPower)
  , ("tx2bias", 22, .txBias)
  , ("tx2power", 23, .txPower)
  , ("rx3power", 31, .rxPower)
  , ("tx3bias", 32, .txBias)
  , ("tx3power", 33, .txPower)
  , ("rx4power", 41, .rxPower)
  , ("tx4bias", 42, .txBias)
  , ("tx4power", 43, .txPower) ]

/-- An index of 32 bits, if the number is one. -/
def word32? (n : Nat) : Option UInt32 := if n < UInt32.size then some (UInt32.ofNat n) else none

def transceiverId (port : UInt32) : Option UInt32 := word32? (port.toNat * 1000)

def sensorId (port : UInt32) (field : String) : Option UInt32 := do
  let (part, _) ← sensorParts.lookup field
  let transceiver ← transceiverId port
  word32? (transceiver.toNat + part.toNat)

/-! ## Readings -/

structure Reading where
  kind : SensorKind
  value : Int32
  deriving DecidableEq, Repr

/-- A reading of a transceiver from one of its fields. -/
def readingOf (encode : SensorKind → String → Option Int32) (port : UInt32)
    (field : String × String) : Option (UInt32 × Reading) := do
  let (_, kind) ← sensorParts.lookup field.1
  let id ← sensorId port field.1
  let value ← encode kind field.2
  pure (id, { kind, value })

def transceiverLead : String := Schema.tableLead Schema.transceiverInfo '|'

/-- Adds the readings of the transceiver with a key. -/
def addTransceiver (encode : SensorKind → String → Option Int32) (n : Namespaces)
    (ports : PortMaps) (readings : Dict UInt32 Reading) (key : String) :
    Logged (Dict UInt32 Reading) :=
  match Text.after? transceiverLead key with
  | none => pure readings
  | some port =>
    match ports.indexByName.get? port with
    | none => do
      Logged.tell (.transceiverUnknown port)
      pure readings
    | some index => do
      let fields ← (n.getAll .state (Schema.tableKey Schema.transceiverSensors '|' port)).serve
        Schema.transceiverSensors
      pure (readings.insertAll (fields.toList.filterMap (readingOf encode index)))

def readSensors (encode : SensorKind → String → Option Int32) (n : Namespaces)
    (ports : PortMaps) : Logged (Dict UInt32 Reading) := do
  let keys ← (n.keys .state (transceiverLead ++ "*")).serve Schema.transceiverInfo
  keys.foldlM (addTransceiver encode n ports) Dict.empty

/-! ## The table -/

structure Sensors where
  ports : PortMaps
  cell : SnapshotCell (Dict UInt32 Reading)

namespace Sensors

def top : Oid := ⟨[1, 3, 6, 1, 2, 1, 99, 1, 1, 1]⟩

def columns : List UInt32 := [1, 2, 3, 4, 5]

/-- Commits the readings of all transceivers in a given encoding. -/
def refreshWith (encode : SensorKind → String → Option Int32) (out : Outside) (t : Sensors) :
    Logged (Attempt Sensors) := do
  let readings ← readSensors encode out.namespaces t.ports
  pure (.done { t with cell := t.cell.refresh (ε := AgentError) (.ok readings) })

def refresh (out : Outside) (t : Sensors) : Logged (Attempt Sensors) :=
  refreshWith SensorKind.encode out t

def reinit (out : Outside) (t : Sensors) : Logged (Attempt Sensors) := do
  match ← (PortMaps.loadAll out.namespaces).run with
  | .error e => pure (.failed e t)
  | .ok ports => pure (.done { t with ports })

/-- The table with its first snapshot. -/
def build (out : Outside) : Load AgentError Sensors := do
  let ports ← PortMaps.loadAll out.namespaces
  Attempt.toLoad (refresh out ⟨ports, .fresh .empty⟩)

/-- A column of a reading. The status of a sensor is always good, which is 1. -/
def column (reading : Reading) : Nat → Option Int32
  | 1 => some reading.kind.unitCode
  | 2 => some reading.kind.scaleCode
  | 3 => some (Int32.ofNat reading.kind.precision)
  | 4 => some reading.value
  | 5 => some 1
  | _ => none

def valueAt (t : Sensors) (sub : SubId) : Option Value :=
  match sub with
  | [col, id] => ((t.cell.current.get? id).bind (column · col.toNat)).map .integer
  | _ => none

def rowIds (t : Sensors) : List SubId := t.cell.current.keys.map fun id => [id]

def next (t : Sensors) (sub : SubId) : Option SubId := nextCell columns t.rowIds sub

/-- Every cell, in walk order. -/
def cells (t : Sensors) : List SubId := Snmp.cells columns t.rowIds

end Sensors

end SwitchMib.Mib
