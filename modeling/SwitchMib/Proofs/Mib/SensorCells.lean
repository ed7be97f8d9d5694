import Mathlib.Data.List.Nodup
import SwitchMib.Proofs.Identity.PortMaps
import SwitchMib.Proofs.Mib.Cells
import SwitchMib.Proofs.Net.IfName
import SwitchMib.Proofs.Store.Reads

/-!
# Which sensors are listed

All sensors of all transceivers share one space of numbers. The number of a sensor determines the
index of its port and its field, so the cells of the sensor table can be told from the store: which
ports have a transceiver, and which of its fields are readings.

* `sensorId_eq_some_iff`, `sensorId_inj`: the numbers, and that no two sensors share one.
* `Sensed`: a reading of a sensor, with the number of the sensor.
* `Sensors.described`: the codes that describe a field.
* `Sensors.sensed_refreshWith`: the cells of the table after a refresh, for any encoding of
  readings.
-/

namespace SwitchMib
set_option autoImplicit false

open Identity Store

/-! ## Port names -/

theorem Net.IfFamily.Names.newline_not_mem {family : IfFamily} {n : Nat} {name : String}
    (h : family.Names n name) : '\n' ∉ name.toList := by
  obtain ⟨digits, hname, -, hdigits, -⟩ := h
  rw [hname, List.mem_append]
  rintro (hstem | hline)
  · cases family <;> revert hstem <;> decide
  · have hdigit := hdigits '\n' hline
    revert hdigit
    decide

theorem Identity.PortMaps.newline_not_mem_of_index {n : Namespaces} {maps : PortMaps}
    (h : (loadAll n).outcome = .ok maps) {name : String} {index : UInt32}
    (hname : maps.indexByName.get? name = some index) : '\n' ∉ name.toList := by
  rw [← loadAllBy_visit] at h
  obtain ⟨-, hport⟩ := ((inStep_of_loadAllBy h).index_iff name index).1 hname
  rcases portIndex?_eq_some_iff.1 hport with hclass | hclass
  all_goals
    obtain ⟨m, hnames, -⟩ := Net.IfName.classify_eq_some_iff.1 hclass
    exact hnames.newline_not_mem

namespace Mib

open KeyOrder Snmp

/-! ## Numbers of sensors -/

theorem lookup_sensorParts_iff {field : String} {part : UInt32 × SensorKind} :
    sensorParts.lookup field = some part ↔ (field, part) ∈ sensorParts := by
  constructor
  · intro h
    obtain ⟨l₁, l₂, hl, -⟩ := List.lookup_eq_some_iff.1 h
    rw [hl]
    simp
  · intro h
    have hall : ∀ entry ∈ sensorParts, sensorParts.lookup entry.1 = some entry.2 := by decide
    exact hall _ h

theorem word32?_eq_some_iff {n : Nat} {w : UInt32} : word32? n = some w ↔ w.toNat = n := by
  rw [word32?]
  constructor
  · intro h
    split at h
    · rename_i hlt
      rw [← Option.some.inj h]
      exact UInt32.toNat_ofNat_of_lt' hlt
    · cases h
  · rintro rfl
    rw [if_pos w.toNat_lt, UInt32.ofNat_toNat]

theorem sensorId_eq_some_iff {index id : UInt32} {field : String} :
    sensorId index field = some id ↔ ∃ part kind, (field, part, kind) ∈ sensorParts ∧
      id.toNat = index.toNat * 1000 + part.toNat := by
  simp only [sensorId, transceiverId, Option.bind_eq_bind, Option.bind_eq_some_iff, Prod.exists,
    lookup_sensorParts_iff, word32?_eq_some_iff]
  constructor
  · rintro ⟨part, kind, hpart, transceiver, htransceiver, hid⟩
    exact ⟨part, kind, hpart, by rw [hid, htransceiver]⟩
  · rintro ⟨part, kind, hpart, hid⟩
    -- where the sum has 32 bits, so has the product on the way to it
    have hlt := id.toNat_lt
    have hproduct : (UInt32.ofNat (index.toNat * 1000)).toNat = index.toNat * 1000 :=
      UInt32.toNat_ofNat_of_lt' (by simp only [UInt32.size]; omega)
    exact ⟨part, kind, hpart, _, hproduct, by rw [hid, hproduct]⟩

theorem sensorId_inj {index index' id : UInt32} {field field' : String}
    (h : sensorId index field = some id) (h' : sensorId index' field' = some id) :
    index = index' ∧ field = field' := by
  -- part numbers do not reach the next transceiver, and each belongs to one field
  have hsmall : ∀ entry ∈ sensorParts, entry.2.1.toNat < 1000 := by decide
  have hsole : ∀ a ∈ sensorParts, ∀ b ∈ sensorParts, a.2.1.toNat = b.2.1.toNat → a.1 = b.1 := by
    decide
  obtain ⟨part, kind, hpart, hid⟩ := sensorId_eq_some_iff.1 h
  obtain ⟨part', kind', hpart', hid'⟩ := sensorId_eq_some_iff.1 h'
  have hlt := hsmall _ hpart
  have hlt' := hsmall _ hpart'
  simp only at hlt hlt'
  have hindex : index.toNat = index'.toNat := by omega
  have hsame : part.toNat = part'.toNat := by omega
  exact ⟨UInt32.toNat_inj.1 hindex, hsole _ hpart _ hpart' hsame⟩

/-! ## Readings -/

/-- The key of the readings of the transceiver in a port. -/
def sensorsKey (port : String) : String := Schema.tableKey Schema.transceiverSensors '|' port

theorem sensorsKey_ne (port port' : String) : sensorsKey port ≠ transceiverLead ++ port' := by
  intro h
  -- the tables part at the first letter after what both names start with
  have hletter := congrArg (fun s => s.toList[12]?) h
  simp [sensorsKey, Schema.tableKey, Schema.transceiverSensors, transceiverLead, Schema.tableLead,
    Schema.transceiverInfo] at hletter

/-- The port is known, and the field of its readings is that of a sensor with the number and
encodes as the reading. -/
def Senses (encode : SensorKind → String → Option Int32) (n : Namespaces) (ports : PortMaps)
    (port field : String) (id : UInt32) (reading : Reading) : Prop :=
  ∃ index part raw, ports.indexByName.get? port = some index ∧ sensorId index field = some id ∧
    (field, part, reading.kind) ∈ sensorParts ∧
    n.field? .state (sensorsKey port) field = some raw ∧
    encode reading.kind raw = some reading.value

/-- Some member has a transceiver in the port, and the field is a reading of it. -/
def Sensed (encode : SensorKind → String → Option Int32) (n : Namespaces) (ports : PortMaps)
    (port field : String) (id : UInt32) (reading : Reading) : Prop :=
  (∃ ns ∈ n.members, transceiverLead ++ port ∈ (ns.tables .state).keys) ∧
    Senses encode n ports port field id reading

def readingsOf (encode : SensorKind → String → Option Int32) (n : Namespaces) (ports : PortMaps)
    (key : String) : List (UInt32 × Reading) :=
  match Text.after? transceiverLead key with
  | none => []
  | some port =>
    match ports.indexByName.get? port with
    | none => []
    | some index =>
      (n.getAll .state (sensorsKey port)).value.toList.filterMap (readingOf encode index)

section Readings

variable {encode : SensorKind → String → Option Int32} {n : Namespaces} {ports : PortMaps}

theorem readingOf_eq_some_iff {index id : UInt32} {field raw : String} {reading : Reading} :
    readingOf encode index (field, raw) = some (id, reading) ↔ sensorId index field = some id ∧
      ∃ part, (field, part, reading.kind) ∈ sensorParts ∧
        encode reading.kind raw = some reading.value := by
  simp only [readingOf, Option.bind_eq_bind, Option.bind_eq_some_iff, Prod.exists,
    lookup_sensorParts_iff, Option.pure_def, Option.some_inj, Prod.mk.injEq]
  constructor
  · rintro ⟨part, kind, hpart, _, hid, value, hvalue, rfl, rfl⟩
    exact ⟨hid, part, hpart, hvalue⟩
  · rintro ⟨hid, part, hpart, hvalue⟩
    exact ⟨part, reading.kind, hpart, id, hid, reading.value, hvalue, rfl, rfl⟩

theorem mem_readingsOf_iff (h : n.Healthy) {key : String} {id : UInt32} {reading : Reading} :
    (id, reading) ∈ readingsOf encode n ports key ↔
      ∃ port field, key = transceiverLead ++ port ∧ Senses encode n ports port field id reading := by
  rw [readingsOf]
  constructor
  · intro hmem
    split at hmem
    · cases hmem
    · rename_i port hport
      split at hmem
      · cases hmem
      · rename_i index hindex
        obtain ⟨⟨field, raw⟩, hraw, hreading⟩ := List.mem_filterMap.1 hmem
        rw [Dict.mem_toList_iff, Namespaces.get?_getAll h] at hraw
        obtain ⟨hid, part, hpart, hvalue⟩ := readingOf_eq_some_iff.1 hreading
        exact ⟨port, field, Text.after?_eq_some_iff.1 hport, index, part, raw, hindex, hid, hpart,
          hraw, hvalue⟩
  · rintro ⟨port, field, rfl, index, part, raw, hindex, hid, hpart, hraw, hvalue⟩
    simp only [Text.after?_eq_some_iff.2 rfl, hindex, List.mem_filterMap]
    refine ⟨(field, raw), ?_, readingOf_eq_some_iff.2 ⟨hid, part, hpart, hvalue⟩⟩
    rwa [Dict.mem_toList_iff, Namespaces.get?_getAll h]

theorem value_addTransceiver (readings : Dict UInt32 Reading) (key : String) :
    (addTransceiver encode n ports readings key).value =
      readings.insertAll (readingsOf encode n ports key) := by
  rw [addTransceiver, readingsOf]
  cases Text.after? transceiverLead key with
  | none => rfl
  | some port =>
    simp only
    cases ports.indexByName.get? port <;> rfl

theorem value_readSensors :
    (readSensors encode n ports).value = Dict.empty.insertAll
      ((n.keys .state (transceiverLead ++ "*")).value.flatMap (readingsOf encode n ports)) := by
  rw [readSensors, Logged.value_bind, Logged.value_foldlM]
  simp only [value_addTransceiver]
  exact Dict.foldl_insertAll _ _ _

theorem mem_readings_iff (h : n.Healthy)
    (hline : ∀ port index, ports.indexByName.get? port = some index → '\n' ∉ port.toList)
    {id : UInt32} {reading : Reading} :
    (id, reading) ∈ (n.keys .state (transceiverLead ++ "*")).value.flatMap
        (readingsOf encode n ports) ↔
      ∃ port field, Sensed encode n ports port field id reading := by
  have hlead : '\n' ∉ transceiverLead.toList := by decide
  simp only [List.mem_flatMap, mem_readingsOf_iff h]
  constructor
  · rintro ⟨_, hkey, port, field, rfl, hsenses⟩
    exact ⟨port, field, ((Namespaces.mem_keys_lead_iff h hlead port).1 hkey).2, hsenses⟩
  · rintro ⟨port, field, hstored, hsenses⟩
    have hknown := hsenses
    obtain ⟨index, -, -, hindex, -⟩ := hknown
    refine ⟨transceiverLead ++ port, ?_, port, field, rfl, hsenses⟩
    refine (Namespaces.mem_keys_lead_iff h hlead port).2 ⟨?_, hstored⟩
    rw [String.toList_append, List.mem_append, not_or]
    exact ⟨hlead, hline port index hindex⟩

/-- Where no two ports share an index, a number belongs to one sensor. -/
theorem Sensed.unique (hdistinct : ports.indexByName.values.Nodup) {port port' field field' : String}
    {id : UInt32} {reading reading' : Reading} (h : Sensed encode n ports port field id reading)
    (h' : Sensed encode n ports port' field' id reading') :
    port = port' ∧ field = field' ∧ reading = reading' := by
  obtain ⟨-, index, part, raw, hindex, hid, hpart, hraw, hvalue⟩ := h
  obtain ⟨-, index', part', raw', hindex', hid', hpart', hraw', hvalue'⟩ := h'
  obtain ⟨rfl, rfl⟩ := sensorId_inj hid hid'
  have hport : (port, index) = (port', index) :=
    List.inj_on_of_nodup_map hdistinct (Dict.mem_toList_iff.2 hindex)
      (Dict.mem_toList_iff.2 hindex') rfl
  obtain rfl := (Prod.mk.inj hport).1
  rw [← lookup_sensorParts_iff] at hpart hpart'
  rw [hpart] at hpart'
  have hkind : reading.kind = reading'.kind := (Prod.mk.inj (Option.some.inj hpart')).2
  rw [hraw] at hraw'
  rw [← hkind, ← Option.some.inj hraw', hvalue] at hvalue'
  obtain ⟨kind, value⟩ := reading
  obtain ⟨kind', value'⟩ := reading'
  obtain rfl : kind = kind' := hkind
  obtain rfl : value = value' := Option.some.inj hvalue'
  exact ⟨rfl, rfl, rfl⟩

theorem get?_readSensors (h : n.Healthy)
    (hline : ∀ port index, ports.indexByName.get? port = some index → '\n' ∉ port.toList)
    (hdistinct : ports.indexByName.values.Nodup) {id : UInt32} {reading : Reading} :
    (readSensors encode n ports).value.get? id = some reading ↔
      ∃ port field, Sensed encode n ports port field id reading := by
  have hmem := fun reading => @mem_readings_iff encode n ports h hline id reading
  rw [value_readSensors, Dict.get?_insertAll, Dict.get?_empty, Option.or_none,
    Bindings.last?_eq_some_iff_mem, hmem]
  intro r r' hr hr'
  obtain ⟨port, field, hsensed⟩ := (hmem r).1 hr
  obtain ⟨port', field', hsensed'⟩ := (hmem r').1 hr'
  exact (hsensed.unique hdistinct hsensed').2.2

/-! ## What adds nothing -/

theorem sensed_without_iff {unknown : String} (hunknown : ports.indexByName.get? unknown = none)
    {port field : String} {id : UInt32} {reading : Reading} :
    Sensed encode (n.without .state (transceiverLead ++ unknown)) ports port field id reading ↔
      Sensed encode n ports port field id reading := by
  have hne : Senses encode n ports port field id reading → transceiverLead ++ port ≠
      transceiverLead ++ unknown := by
    rintro ⟨index, -, -, hindex, -⟩ hsame
    have hport : port = unknown := by simpa using hsame
    rw [hport, hunknown] at hindex
    cases hindex
  have hsenses : Senses encode (n.without .state (transceiverLead ++ unknown)) ports port field id
      reading ↔ Senses encode n ports port field id reading := by
    simp only [Senses, Namespaces.field?_without (sensorsKey_ne port unknown)]
  rw [Sensed, Sensed, hsenses]
  refine and_congr_left fun hport => ?_
  simp only [Namespaces.members_without, List.mem_map, exists_exists_and_eq_and,
    Namespaces.tables_delete, Dict.mem_keys_erase, and_iff_right (hne hport)]

theorem sensed_withoutField_iff {poor faulty : String}
    (hfaulty : ∀ id reading, ¬ Senses encode n ports poor faulty id reading)
    {port field : String} {id : UInt32} {reading : Reading} :
    Sensed encode (n.withoutField .state (sensorsKey poor) faulty) ports port field id reading ↔
      Sensed encode n ports port field id reading := by
  have hstored : (∃ ns ∈ (n.withoutField .state (sensorsKey poor) faulty).members,
      transceiverLead ++ port ∈ (ns.tables .state).keys) ↔
        ∃ ns ∈ n.members, transceiverLead ++ port ∈ (ns.tables .state).keys := by
    simp only [Namespaces.members_withoutField, List.mem_map, exists_exists_and_eq_and,
      Namespaces.mem_keys_deleteField]
  rw [Sensed, Sensed, hstored]
  refine and_congr_right fun _ => ?_
  by_cases hboth : sensorsKey port = sensorsKey poor ∧ field = faulty
  · obtain ⟨hkey, rfl⟩ := hboth
    have hport : port = poor := by simpa [sensorsKey, Schema.tableKey] using hkey
    subst hport
    refine iff_of_false ?_ (hfaulty id reading)
    rintro ⟨index, part, raw, -, -, -, hraw, -⟩
    rw [Namespaces.field?_withoutField, if_pos ⟨rfl, rfl⟩] at hraw
    cases hraw
  · simp only [Senses, Namespaces.field?_withoutField, if_neg hboth]

end Readings

/-! ## Cells -/

namespace Sensors

/-- The sensors by field: part number, type (volts 4, amperes 5, watts 6, degrees Celsius 8), scale
(thousandths 8, units 9) and number of decimal places. -/
def described : List (String × Nat × Int32 × Int32 × Int32) :=
  [ ("temperature", 1, 8, 9, 6)
  , ("voltage", 2, 4, 9, 4)
  , ("rx1power", 11, 6, 8, 4)
  , ("tx1bias", 12, 5, 8, 4)
  , ("tx1power", 13, 6, 8, 4)
  , ("rx2power", 21, 6, 8, 4)
  , ("tx2bias", 22, 5, 8, 4)
  , ("tx2power", 23, 6, 8, 4)
  , ("rx3power", 31, 6, 8, 4)
  , ("tx3bias", 32, 5, 8, 4)
  , ("tx3power", 33, 6, 8, 4)
  , ("rx4power", 41, 6, 8, 4)
  , ("tx4bias", 42, 5, 8, 4)
  , ("tx4power", 43, 6, 8, 4) ]

theorem mem_described : ∀ entry ∈ sensorParts, (entry.1, entry.2.1.toNat, entry.2.2.unitCode,
    entry.2.2.scaleCode, Int32.ofNat entry.2.2.precision) ∈ described := by
  decide

section Refresh

variable {encode : SensorKind → String → Option Int32} {loaded : Namespaces} {out : Outside}
  {t : Sensors} (hports : (PortMaps.loadAll loaded).outcome = .ok t.ports)
  (hdistinct : t.ports.indexByName.values.Nodup)
include hports hdistinct

theorem get?_refreshWith (h : out.namespaces.Healthy) {id : UInt32} {reading : Reading} :
    (refreshWith encode out t).value.after.cell.current.get? id = some reading ↔
      ∃ port field, Sensed encode out.namespaces t.ports port field id reading :=
  get?_readSensors h (fun _ _ => PortMaps.newline_not_mem_of_index hports) hdistinct

theorem answersAs_of_sensed_iff {out' : Outside} (h : out.namespaces.Healthy)
    (h' : out'.namespaces.Healthy)
    (hsame : ∀ port field id reading, Sensed encode out.namespaces t.ports port field id reading ↔
      Sensed encode out'.namespaces t.ports port field id reading) :
    AnswersAs (.sensors (refreshWith encode out t).value.after)
      (.sensors (refreshWith encode out' t).value.after) := by
  have hrows : (readSensors encode out.namespaces t.ports).value =
      (readSensors encode out'.namespaces t.ports).value := by
    refine Dict.ext_get? fun id => Option.ext fun reading => ?_
    refine (get?_refreshWith hports hdistinct h).trans ?_
    simp only [hsame]
    exact (get?_refreshWith hports hdistinct h').symm
  apply Updater.answersAs_of_committed
  exact congrArg (fun rows => Updater.sensors ⟨.empty, ⟨rows, .seeded⟩⟩) hrows

/-- After a refresh in a world in which all can be read, the table has five cells for every sensor
of a transceiver in a known port whose reading encodes and whose number is not too large, and no
others. They describe that sensor and no other one, by the codes of its field. A transceiver in an
unknown port, and a field that is no reading, might as well not be there. -/
theorem sensed_refreshWith (h : out.namespaces.Healthy) :
    let n := out.namespaces
    let u := (refreshWith encode out t).value.after
    (refreshWith encode out t).value.outcome = .ok () ∧
      (∀ sub, sub ∈ u.cells ↔ ∃ column port field id reading, sub = [column, id] ∧
        1 ≤ column.toNat ∧ column.toNat ≤ 5 ∧ Sensed encode n t.ports port field id reading) ∧
      (∀ sub v, u.valueAt sub = some v → sub ∈ u.cells) ∧
      (∀ port field id reading, Sensed encode n t.ports port field id reading →
        ∃ index part type scale precision, t.ports.indexByName.get? port = some index ∧
          (field, part, type, scale, precision) ∈ described ∧
          id.toNat = index.toNat * 1000 + part ∧
          u.valueAt [1, id] = some (.integer type) ∧ u.valueAt [2, id] = some (.integer scale) ∧
          u.valueAt [3, id] = some (.integer precision) ∧
          u.valueAt [4, id] = some (.integer reading.value) ∧
          u.valueAt [5, id] = some (.integer 1)) ∧
      (∀ port port' field field' id reading reading',
        Sensed encode n t.ports port field id reading →
        Sensed encode n t.ports port' field' id reading' →
          port = port' ∧ field = field' ∧ reading = reading') ∧
      (∀ index index' field field' id, sensorId index field = some id →
        sensorId index' field' = some id → index = index' ∧ field = field') ∧
      (∀ unknown, t.ports.indexByName.get? unknown = none →
        let without : Outside :=
          { out with namespaces := n.without .state (transceiverLead ++ unknown) }
        AnswersAs (.sensors u) (.sensors (refreshWith encode without t).value.after)) ∧
      ∀ port field, (∀ id reading, ¬ Senses encode n t.ports port field id reading) →
        let without : Outside :=
          { out with namespaces := n.withoutField .state (sensorsKey port) field }
        AnswersAs (.sensors u) (.sensors (refreshWith encode without t).value.after) := by
  intro n u
  refine ⟨rfl, fun sub => ?_, fun sub v => u.mem_cells_of_value, ?_,
    fun _ _ _ _ _ _ _ hs hs' => hs.unique hdistinct hs', fun _ _ _ _ _ => sensorId_inj, ?_, ?_⟩
  · rw [mem_cells_iff]
    simp only [Option.isSome_iff_exists, u, get?_refreshWith hports hdistinct h]
    constructor
    · rintro ⟨column, id, rfl, hlow, hhigh, reading, port, field, hsensed⟩
      exact ⟨column, port, field, id, reading, rfl, hlow, hhigh, hsensed⟩
    · rintro ⟨column, port, field, id, reading, rfl, hlow, hhigh, hsensed⟩
      exact ⟨column, id, rfl, hlow, hhigh, reading, port, field, hsensed⟩
  · intro port field id reading hsensed
    have hget : u.cell.current.get? id = some reading :=
      (get?_refreshWith hports hdistinct h).2 ⟨port, field, hsensed⟩
    obtain ⟨-, index, part, raw, hindex, hid, hpart, -⟩ := hsensed
    obtain ⟨part', kind', hpart', hnumber⟩ := sensorId_eq_some_iff.1 hid
    have hsame := (lookup_sensorParts_iff.2 hpart').symm.trans (lookup_sensorParts_iff.2 hpart)
    obtain ⟨rfl, rfl⟩ := Prod.mk.inj (Option.some.inj hsame)
    refine ⟨index, part'.toNat, _, _, _, hindex, mem_described _ hpart, hnumber, ?_⟩
    simp only [valueAt, hget]
    exact ⟨rfl, rfl, rfl, rfl, rfl⟩
  · intro unknown hunknown without
    exact answersAs_of_sensed_iff hports hdistinct h (h.without _ _)
      fun _ _ _ _ => (sensed_without_iff hunknown).symm
  · intro port field hfaulty without
    exact answersAs_of_sensed_iff hports hdistinct h (h.withoutField _ _ _)
      fun _ _ _ _ => (sensed_withoutField_iff hfaulty).symm

end Refresh

/-- Two ports with a transceiver, one of which has a reading that is no number, and a transceiver in
a port that is not known. -/
def worldOfTransceivers : Outside where
  namespaces :=
    let entries : List (Database × String × List (String × String)) :=
      [ (.counters, Schema.portNameMap, [("Ethernet0", "oid:0x1"), ("Ethernet4", "oid:0x2")])
      , (.state, transceiverLead ++ "Ethernet0", [("type", "QSFP28")])
      , (.state, transceiverLead ++ "Ethernet4", [("type", "QSFP28")])
      , (.state, transceiverLead ++ "Ethernet8", [("type", "QSFP28")])
      , (.state, sensorsKey "Ethernet0", [("temperature", "20"), ("voltage", "N/A")])
      , (.state, sensorsKey "Ethernet4",
          [("temperature", "30"), ("voltage", "3"), ("rx1power", "-5"), ("tx1bias", "7")]) ]
    ⟨entries.foldl (fun ns entry => ns.setFields entry.1 entry.2.1 entry.2.2) (.empty ""), []⟩
  neighbours := .ok ""
  platform := ⟨.ok 0, fun _ => .ok false, fun _ => .ok false⟩

/-- With whole numbers for readings, both temperatures are listed, and one voltage, with the codes
of their fields. -/
theorem sensed_refreshWith_of_transceivers :
    let encode := fun (_ : SensorKind) raw => (Text.readInt32 raw).toOption
    let out := worldOfTransceivers
    ∃ t : Sensors, (PortMaps.loadAll out.namespaces).outcome = .ok t.ports ∧
      t.ports.indexByName.values.Nodup ∧ out.namespaces.Healthy ∧
      let u := (refreshWith encode out t).value.after
      let without := { out with
        namespaces := out.namespaces.without .state (transceiverLead ++ "Ethernet8") }
      u.cells.length = 25 ∧
        (∀ row ∈ [(1001, [8, 9, 6, 20, 1]), (5001, [8, 9, 6, 30, 1]), (5002, [4, 9, 4, 3, 1]),
            (5011, [6, 8, 4, -5, 1]), (5012, [5, 8, 4, 7, 1])],
          columns.map (fun column => u.valueAt [column, row.1]) =
            row.2.map fun k => some (.integer k)) ∧
        (∃ port field reading, Sensed encode out.namespaces t.ports port field 5001 reading) ∧
        AnswersAs (.sensors u) (.sensors (refreshWith encode without t).value.after) := by
  intro encode out
  let rows : List (UInt32 × List Int32) :=
    [(1001, [8, 9, 6, 20, 1]), (5001, [8, 9, 6, 30, 1]), (5002, [4, 9, 4, 3, 1]),
      (5011, [6, 8, 4, -5, 1]), (5012, [5, 8, 4, 7, 1])]
  have hloaded : (PortMaps.loadAll out.namespaces).outcome.map (fun ports =>
      let u := (refreshWith encode out ⟨ports, .fresh .empty⟩).value.after
      (ports.indexByName.values, ports.indexByName.get? "Ethernet8", u.cells.length,
        rows.all fun row => columns.map (fun column => u.valueAt [column, row.1]) =
          row.2.map fun k => some (.integer k))) = .ok ([1, 5], none, 25, true) := by
    decide +kernel
  obtain ⟨ports, hports, hread⟩ := exists_eq_ok_of_map hloaded
  simp only [Prod.mk.injEq] at hread
  obtain ⟨hvalues, hunknown, hlength, hrows⟩ := hread
  have hrow := fun row hin => of_decide_eq_true (List.all_eq_true.1 hrows row hin)
  have hdistinct : ports.indexByName.values.Nodup := by
    rw [hvalues]
    decide
  have hhealthy : out.namespaces.Healthy := by
    intro ns hns
    obtain rfl := List.mem_singleton.1 hns
    exact ⟨rfl, rfl⟩
  obtain ⟨-, hcells, hinside, -, -, -, hwithout, -⟩ :=
    @sensed_refreshWith encode _ out ⟨ports, .fresh .empty⟩ hports hdistinct hhealthy
  have hvalue := (List.cons.inj (hrow (5001, [8, 9, 6, 30, 1]) (by decide))).1
  obtain ⟨column, port, field, id, reading, hsub, -, -, hsensed⟩ :=
    (hcells _).1 (hinside _ _ hvalue)
  obtain rfl : 5001 = id := (List.cons.inj (List.cons.inj hsub).2).1
  exact ⟨⟨ports, .fresh .empty⟩, hports, hdistinct, hhealthy, hlength, hrow,
    ⟨port, field, reading, hsensed⟩, hwithout "Ethernet8" hunknown⟩

end Sensors

end Mib

end SwitchMib
