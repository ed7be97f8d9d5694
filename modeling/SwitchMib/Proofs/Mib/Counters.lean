import Mathlib.Algebra.Order.BigOperators.Group.List
import Mathlib.Algebra.Order.Ring.Nat
import SwitchMib.Mib.Interfaces
import SwitchMib.Proofs.Log
import SwitchMib.Proofs.Text.Numeral

/-!
# The counters of the interface table

The columns from 10 to 21 are computed in words: counters are read as words of 64 bits, those of
the members of a group are cut to 32 bits and added, and the sum is cut again. What comes out is
the exact number modulo 2 ^ 32, and the sum over a group never wraps.

* `InterfaceSnapshot.reading`, `InterfaceSnapshot.exactCounter`: counters as numbers without bound.
* `InterfaceSnapshot.memberSum_mod`, `InterfaceSnapshot.toNat_memberSum`: the sum over a group.
* `InterfaceSnapshot.rowCounter_eq`: the counter of a row in words is the exact one.
* `Interfaces.valueAt_counter`: the same for the cells of the table.
-/

namespace SwitchMib.Mib
set_option autoImplicit false

open Snmp Store

namespace InterfaceSnapshot

/-! ## Exact counters -/

/-- The number under a counter of an object, if there is one that reads as one of 64 bits. -/
def reading (counters : Dict String Fields) (id? : Option String) (counter : String) :
    Option Nat := do
  let id ← id?
  let fields ← counters.get? id
  let text ← fields.get? counter
  (Text.readNat (UInt64.size - 1) text).toOption

variable (snap : InterfaceSnapshot)

def portReading (port counter : String) : Option Nat :=
  reading snap.portCounters (snap.identity.ports.idByName.get? port) counter

/-- The errors of the router interface that is bound to an object. -/
def errorReading (id? : Option String) (counter : String) : Nat :=
  ((addedRifCounter.lookup counter).bind fun added =>
    reading snap.rifCounters (id?.bind snap.identity.rifs.rifByPort.get?) added).getD 0

def vlanReading (index : UInt32) (counter : String) : Option Nat :=
  (vlanRifCounter.lookup counter).bind fun mapped =>
    reading snap.rifCounters (snap.identity.vlans.idByIndex.get? index) mapped

/-- The readings of those members of a group that have one. -/
def memberReadings (lag counter : String) : List Nat :=
  (snap.identity.lags.members lag).filterMap fun port => snap.portReading port counter

/-- The counter of a row before it is cut to 32 bits. -/
def exactCounter (index : UInt32) (row : InterfaceRow) (counter : String) : Option Nat :=
  match row.kind with
  | .port =>
    (snap.portReading row.name counter).map fun n =>
      n + snap.errorReading (snap.identity.ports.idByName.get? row.name) counter
  | .lag =>
    some ((snap.memberReadings row.name counter).sum +
      snap.errorReading (snap.identity.lags.idByLag.get? row.name) counter)
  | .vlan => snap.vlanReading index counter
  | .management => none

/-- Only errors are added. -/
theorem errorReading_eq_zero (id? : Option String) {counter : String}
    (hin : counter ≠ "SAI_PORT_STAT_IF_IN_ERRORS") (hout : counter ≠ "SAI_PORT_STAT_IF_OUT_ERRORS") :
    snap.errorReading id? counter = 0 := by
  have hnone : addedRifCounter.lookup counter = none := by
    rw [List.lookup_eq_none_iff]
    simp [addedRifCounter, hin, hout]
  rw [errorReading, hnone]
  rfl

/-! ## Words and numbers -/

theorem toNat_lowHalf (v : UInt64) : (lowHalf v).toNat = v.toNat % 2 ^ 32 := v.toNat_toUInt32

theorem map_toNat_readWord64 (text : String) :
    (Text.readWord64 text).toOption.map UInt64.toNat =
      (Text.readNat (UInt64.size - 1) text).toOption := by
  unfold Text.readWord64
  cases hread : Text.readNat (UInt64.size - 1) text with
  | error fault => rfl
  | ok n =>
    obtain ⟨-, -, -, hn⟩ := Text.readNat_eq_ok_iff.1 hread
    have hpos : 0 < UInt64.size := by decide
    exact congrArg some (UInt64.toNat_ofNat_of_lt' (by omega))

theorem map_toNat_counterIn (fields : Fields) (counter : String) :
    (counterIn fields counter).map UInt64.toNat = (fields.get? counter).bind fun text =>
      (Text.readNat (UInt64.size - 1) text).toOption := by
  simp only [counterIn, Option.map_bind, Function.comp_def, map_toNat_readWord64]

theorem map_toNat_portCounter (port counter : String) :
    (snap.portCounter port counter).map UInt64.toNat = snap.portReading port counter := by
  simp only [portCounter, portReading, reading, Option.bind_eq_bind, Option.map_bind,
    Function.comp_def, map_toNat_counterIn]

theorem map_toNat_rifCounter (rif counter : String) :
    (snap.rifCounter rif counter).map UInt64.toNat =
      reading snap.rifCounters (some rif) counter := by
  simp only [rifCounter, reading, Option.bind_eq_bind, Option.bind_some, Option.map_bind,
    Function.comp_def, map_toNat_counterIn]

theorem reading_bind (counters : Dict String Fields) (id? : Option String) (counter : String) :
    reading counters id? counter = id?.bind fun id => reading counters (some id) counter := by
  cases id? <;> rfl

theorem toNat_rifErrors (id? : Option String) (counter : String) :
    (snap.rifErrors id? counter).toNat = snap.errorReading id? counter := by
  have hmap : ∀ errors : Option UInt64, (errors.getD 0).toNat = (errors.map UInt64.toNat).getD 0 := by
    intro errors
    cases errors <;> rfl
  rw [rifErrors, hmap, errorReading]
  simp only [Option.bind_eq_bind, Option.map_bind, Function.comp_def, map_toNat_rifCounter]
  congr
  funext added
  rw [reading_bind, Option.bind_assoc]

theorem map_toNat_vlanCounter (index : UInt32) (counter : String) :
    ((vlanRifCounter.lookup counter).bind fun mapped =>
      (snap.vlanCounter index mapped).map UInt64.toNat) = snap.vlanReading index counter := by
  rw [vlanReading]
  congr
  funext mapped
  simp only [vlanCounter, Option.bind_eq_bind, Option.map_bind, Function.comp_def,
    map_toNat_rifCounter]
  exact (reading_bind _ _ _).symm

/-! ## The sum over a group -/

/-- The sum of halves is exact modulo the range of words, and no half is lost. -/
theorem toNat_foldr_lowHalf (vs : List UInt64) :
    (vs.foldr (fun v total => (lowHalf v).toUInt64 + total) 0).toNat =
      (vs.map fun v => v.toNat % 2 ^ 32).sum % 2 ^ 64 := by
  induction vs with
  | nil => rfl
  | cons v vs ih =>
    rw [List.foldr_cons, UInt64.toNat_add, ih, UInt32.toNat_toUInt64, toNat_lowHalf, List.map_cons,
      List.sum_cons, Nat.add_mod_mod]

theorem map_toNat_memberCounters (lag counter : String) :
    ((snap.identity.lags.members lag).filterMap fun port => snap.portCounter port counter).map
      UInt64.toNat = snap.memberReadings lag counter := by
  rw [memberReadings, List.map_filterMap]
  simp only [map_toNat_portCounter]

theorem toNat_memberSum_mod (lag counter : String) :
    (snap.memberSum (snap.identity.lags.members lag) counter).toNat =
      ((snap.memberReadings lag counter).map (· % 2 ^ 32)).sum % 2 ^ 64 := by
  rw [memberSum, toNat_foldr_lowHalf, ← map_toNat_memberCounters, List.map_map]
  rfl

/-- With fewer members than a word of 32 bits counts, the sum does not wrap. -/
theorem toNat_memberSum {lag : String} (counter : String)
    (hfew : (snap.identity.lags.members lag).length < 2 ^ 32) :
    (snap.memberSum (snap.identity.lags.members lag) counter).toNat =
      ((snap.memberReadings lag counter).map (· % 2 ^ 32)).sum := by
  rw [toNat_memberSum_mod]
  apply Nat.mod_eq_of_lt
  have hhalf : ∀ n ∈ (snap.memberReadings lag counter).map (· % 2 ^ 32), n ≤ 2 ^ 32 := by
    intro n hn
    obtain ⟨m, -, rfl⟩ := List.mem_map.1 hn
    exact (Nat.mod_lt m (by decide)).le
  have hsum := List.sum_le_card_nsmul _ _ hhalf
  have hlength : (snap.memberReadings lag counter).length ≤ _ := List.length_filterMap_le _ _
  rw [List.length_map, nsmul_eq_mul, Nat.cast_id] at hsum
  omega

/-- The cuts of the members lose nothing that a cut of the sum keeps. -/
theorem memberSum_mod (lag counter : String) :
    (snap.memberSum (snap.identity.lags.members lag) counter).toNat % 2 ^ 32 =
      (snap.memberReadings lag counter).sum % 2 ^ 32 := by
  have hdvd : 2 ^ 32 ∣ 2 ^ 64 := by decide
  rw [toNat_memberSum_mod, Nat.mod_mod_of_dvd _ hdvd, ← List.sum_nat_mod]

/-! ## The counter of a row -/

theorem lowHalf_add_eq {v w : UInt64} {m : Nat} (h : v.toNat % 2 ^ 32 = m % 2 ^ 32) :
    lowHalf (v + w) = UInt32.ofNat ((m + w.toNat) % 2 ^ 32) := by
  have hdvd : 2 ^ 32 ∣ 2 ^ 64 := by decide
  apply UInt32.toNat_inj.1
  rw [toNat_lowHalf, UInt64.toNat_add, Nat.mod_mod_of_dvd _ hdvd, UInt32.toNat_ofNat',
    Nat.mod_mod, Nat.add_mod, h, ← Nat.add_mod]

theorem lowHalf_eq (v : UInt64) : lowHalf v = UInt32.ofNat (v.toNat % 2 ^ 32) := by
  apply UInt32.toNat_inj.1
  rw [toNat_lowHalf, UInt32.toNat_ofNat', Nat.mod_mod]

theorem rowCounter_eq (index : UInt32) (row : InterfaceRow) (counter : String) :
    snap.rowCounter index row counter =
      (snap.exactCounter index row counter).map fun n => UInt32.ofNat (n % 2 ^ 32) := by
  unfold rowCounter exactCounter
  cases row.kind with
  | port =>
    simp only [← map_toNat_portCounter, ← toNat_rifErrors, Option.map_map, Function.comp_def]
    congr
    funext v
    exact lowHalf_add_eq rfl
  | lag =>
    simp only [← toNat_rifErrors, Option.map_some]
    rw [lowHalf_add_eq (snap.memberSum_mod row.name counter)]
  | vlan =>
    have hcut : lowHalf = fun v => UInt32.ofNat (v.toNat % 2 ^ 32) := funext lowHalf_eq
    simp only [← map_toNat_vlanCounter, Option.map_bind, Option.map_map, Function.comp_def, hcut]
  | management => rfl

/-! ## The counter columns -/

/-- A word as a counter column shows it: the length of a queue is a gauge, all else counts. -/
def shownWord (column : Nat) (v : UInt32) : Value :=
  if column = 21 then .gauge32 v else .counter32 v

theorem rowColumn_eq_of_counter {column : Nat} (hlow : 10 ≤ column) (hhigh : column ≤ 21)
    (index : UInt32) (row : InterfaceRow) :
    snap.rowColumn column index row = (counterOfColumn.lookup column).bind fun counter =>
      (snap.rowCounter index row counter).map (shownWord column) := by
  unfold rowColumn
  split
  case h_11 => rfl
  all_goals omega

theorem exists_counter_of_column {column : Nat} (hlow : 10 ≤ column) (hhigh : column ≤ 21) :
    ∃ counter, counterOfColumn.lookup column = some counter ∧
      (column ≠ 14 → counter ≠ "SAI_PORT_STAT_IF_IN_ERRORS") ∧
      (column ≠ 20 → counter ≠ "SAI_PORT_STAT_IF_OUT_ERRORS") := by
  have hall : ∀ c < 22, 10 ≤ c → ∃ counter ∈ counterOfColumn.lookup c,
      (c ≠ 14 → counter ≠ "SAI_PORT_STAT_IF_IN_ERRORS") ∧
      (c ≠ 20 → counter ≠ "SAI_PORT_STAT_IF_OUT_ERRORS") := by decide
  exact hall column (by omega) hlow

theorem valueAt_cell (column index : UInt32) :
    snap.valueAt [2, 1, column, index] = snap.column column index := by
  have hne : ([2, 1, column, index] : SubId) ≠ countCell := by simp [countCell]
  rw [valueAt, if_neg hne]
  rfl

end InterfaceSnapshot

namespace Interfaces

open InterfaceSnapshot

/-- A counter column of a row shows the exact counter modulo 2 ^ 32, or nothing where there is
none. Errors of router interfaces count in the columns of errors only, and the sum over a group of
fewer than 2 ^ 32 members is exact in 64 bits. -/
theorem valueAt_counter (t : Interfaces) {column index : UInt32} {row : InterfaceRow}
    (hrow : t.cell.current.rows.get? index = some row)
    (hlow : 10 ≤ column.toNat) (hhigh : column.toNat ≤ 21) :
    ∃ counter, counterOfColumn.lookup column.toNat = some counter ∧
      t.valueAt [2, 1, column, index] =
        (t.cell.current.exactCounter index row counter).map
          (fun n => shownWord column.toNat (UInt32.ofNat (n % 2 ^ 32))) ∧
      (column.toNat ≠ 14 → column.toNat ≠ 20 →
        ∀ id?, t.cell.current.errorReading id? counter = 0) ∧
      ∀ lag, (t.cell.current.identity.lags.members lag).length < 2 ^ 32 →
        (t.cell.current.memberSum (t.cell.current.identity.lags.members lag) counter).toNat =
          ((t.cell.current.memberReadings lag counter).map (· % 2 ^ 32)).sum := by
  obtain ⟨counter, hcounter, hin, hout⟩ := exists_counter_of_column hlow hhigh
  refine ⟨counter, hcounter, ?_, ?_, ?_⟩
  · rw [valueAt, valueAt_cell, InterfaceSnapshot.column, hrow, Option.bind_some,
      rowColumn_eq_of_counter _ hlow hhigh, hcounter, Option.bind_some, rowCounter_eq,
      Option.map_map]
    rfl
  · intro hne hne' id?
    exact errorReading_eq_zero _ id? (hin hne) (hout hne')
  · intro lag hfew
    exact toNat_memberSum _ counter hfew

/-- A group of two ports with a router interface, and a VLAN interface. One port has counted past
2 ^ 32, and so has the VLAN interface. -/
def ofTwoMembers : Interfaces :=
  let counters (id counter text : String) : String × Fields :=
    (id, Dict.ofList [(counter, text)])
  let errors := "SAI_PORT_STAT_IF_IN_ERRORS"
  let identity : Identity.InterfaceMaps :=
    { Identity.InterfaceMaps.empty with
      ports := { Identity.PortMaps.empty with
        idByName := Dict.ofList [("Ethernet0", "10"), ("Ethernet4", "11")] }
      lags := { Identity.LagMaps.empty with
        membersByLag := Dict.ofList [("PortChannel01", ["Ethernet0", "Ethernet4", "Ethernet8"])]
        idByLag := Dict.ofList [("PortChannel01", "20")] }
      vlans := { Identity.VlanMaps.empty with idByIndex := Dict.ofList [(3000, "40")] }
      rifs := { Identity.RifMaps.empty with rifByPort := Dict.ofList [("20", "30")] } }
  let snap : InterfaceSnapshot :=
    { identity
      rows := Dict.ofList
        [(1001, ⟨.lag, "PortChannel01", .empty⟩), (3000, ⟨.vlan, "Vlan1000", .empty⟩)]
      portCounters := Dict.ofList
        [counters "10" errors "4294967301", counters "11" errors "10"]
      rifCounters := Dict.ofList
        [counters "30" "SAI_ROUTER_INTERFACE_STAT_IN_ERROR_PACKETS" "3",
          counters "40" "SAI_ROUTER_INTERFACE_STAT_IN_PACKETS" "4294967303"] }
  ⟨identity, ⟨snap, .seeded⟩, .fresh⟩

/-- The ports have counted 2 ^ 32 + 5 and 10 errors and the router interface 3. A third member has
no counters. The packets of the VLAN interface are those of its router interface. -/
theorem valueAt_counter_of_two_members :
    (∃ row, ofTwoMembers.cell.current.rows.get? 1001 = some row ∧ row.kind = .lag ∧
      ofTwoMembers.cell.current.exactCounter 1001 row "SAI_PORT_STAT_IF_IN_ERRORS" =
        some (2 ^ 32 + 18) ∧
      ofTwoMembers.valueAt [2, 1, 14, 1001] = some (.counter32 18)) ∧
    ∃ row, ofTwoMembers.cell.current.rows.get? 3000 = some row ∧ row.kind = .vlan ∧
      ofTwoMembers.cell.current.exactCounter 3000 row "SAI_PORT_STAT_IF_IN_UCAST_PKTS" =
        some (2 ^ 32 + 7) ∧
      ofTwoMembers.valueAt [2, 1, 11, 3000] = some (.counter32 7) := by
  have hexact : ofTwoMembers.cell.current.exactCounter 1001 ⟨.lag, "PortChannel01", .empty⟩
      "SAI_PORT_STAT_IF_IN_ERRORS" = some (2 ^ 32 + 18) := by decide +kernel
  have hvlan : ofTwoMembers.cell.current.exactCounter 3000 ⟨.vlan, "Vlan1000", .empty⟩
      "SAI_PORT_STAT_IF_IN_UCAST_PKTS" = some (2 ^ 32 + 7) := by decide +kernel
  constructor
  · have hrow : ofTwoMembers.cell.current.rows.get? 1001 =
        some ⟨.lag, "PortChannel01", .empty⟩ := by decide +kernel
    refine ⟨_, hrow, rfl, hexact, ?_⟩
    obtain ⟨counter, hcounter, hvalue, -⟩ :=
      @valueAt_counter ofTwoMembers 14 1001 _ hrow (by decide) (by decide)
    obtain rfl : "SAI_PORT_STAT_IF_IN_ERRORS" = counter := Option.some.inj hcounter
    rw [hvalue, hexact]
    decide
  · have hrow : ofTwoMembers.cell.current.rows.get? 3000 =
        some ⟨.vlan, "Vlan1000", .empty⟩ := by decide +kernel
    refine ⟨_, hrow, rfl, hvlan, ?_⟩
    obtain ⟨counter, hcounter, hvalue, -⟩ :=
      @valueAt_counter ofTwoMembers 11 3000 _ hrow (by decide) (by decide)
    obtain rfl : "SAI_PORT_STAT_IF_IN_UCAST_PKTS" = counter := Option.some.inj hcounter
    rw [hvalue, hvlan]
    decide

end Interfaces

end SwitchMib.Mib
