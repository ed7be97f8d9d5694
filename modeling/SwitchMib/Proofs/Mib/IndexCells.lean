import Mathlib.Order.Interval.Finset.Nat
import SwitchMib.Proofs.Identity.PortMaps
import SwitchMib.Proofs.Mib.InterfaceRows
import SwitchMib.Proofs.Mib.Session
import SwitchMib.Proofs.Net.IfName

/-!
# The count of interfaces and the cells of their indexes

An index is a word of 32 bits, and names can have any index that is one. The index column shows it
as a signed number of 32 bits, so the indexes from 2 ^ 31 on have a row, which is counted, but no
value in the first column of it.

* `IfName.one_le_of_index?`: no interface has the index zero.
* `InterfaceMaps.loadBy_eq_ok`: the parts of an identity, in whatever order it is loaded.
* `InterfaceMaps.Numbered`, `InterfaceMaps.numbered_of_loadBy`: interfaces are found under the index
  of their name.
* `InterfaceSnapshot.Committed`, `Interfaces.committed_run`: what a table has committed.
* `MibTree.walk_exact`, `MibTree.get_append_iff`: what a walk lists of one table.
* `indexCells`: the cells of the index column that a walk lists.
* `Counted`: the count of interfaces is that of these cells, each of which answers its index.
* `counted_iff_below`: when that is so.
-/

namespace SwitchMib
set_option autoImplicit false

open KeyOrder Store

/-! ## Interfaces under the index of their name -/

theorem Net.IfName.one_le_of_index? {name : String} {i : UInt32} (h : index? name = some i) :
    1 ≤ i.toNat := by
  obtain ⟨⟨family, j⟩, hclass, rfl⟩ := Option.map_eq_some_iff.1 h
  obtain ⟨n, -, hlt, rfl⟩ := classify_eq_some_iff.1 hclass
  have hbase : 1 ≤ family.base := by cases family <;> decide
  rw [UInt32.toNat_ofNat_of_lt' hlt]
  omega

namespace Identity

/-- Every name that is found by an index has that index. -/
def ByIndex (names : Dict UInt32 String) : Prop :=
  ∀ i name, names.get? i = some name → Net.IfName.index? name = some i

section Load

variable {visit : Visit} {visits : Namespace → Visit} {ns : Namespace} {n : Namespaces}

theorem PortMaps.byIndex_of_loadAllBy {maps : PortMaps}
    (h : (loadAllBy visits n).outcome = .ok maps) : ByIndex maps.nameByIndex := by
  intro i name hname
  have hstep := inStep_of_loadAllBy h
  have hindex := hstep.index_of_name i name hname
  exact index?_of_portIndex? ((hstep.index_iff name i).1 hindex).2

theorem LagMaps.byIndex_of_loadAll {maps : LagMaps} (h : (loadAll n).outcome = .ok maps) :
    ByIndex maps.lagByIndex := by
  intro i lag hlag
  obtain ⟨ns, -, part, hload, hpart⟩ := Load.exists_part_of_merged h (fun _ _ => rfl) rfl hlag
  exact (group_of_lagByIndex hload hpart).2

theorem VlanMaps.byIndex_of_loadBy {maps : VlanMaps} (h : (loadBy visit ns).outcome = .ok maps) :
    ByIndex maps.nameByIndex := by
  intro i name hname
  obtain ⟨hash, -, hrest⟩ := Load.outcome_bind_eq_ok_iff.1 h
  obtain ⟨types, -, hmaps⟩ := Load.outcome_bind_eq_ok_iff.1 hrest
  rw [← Except.ok.inj hmaps, ofEntries,
    Dict.get?_foldl_insert nameByIndex _ (binds_addEntry types).1] at hname
  obtain ⟨entry, -, hpair⟩ := List.mem_filterMap.1
    (Bindings.mem_of_last? (Option.or_none.symm.trans hname))
  obtain ⟨vlan, hvlan, hpair⟩ := Option.map_eq_some_iff.1 hpair
  obtain ⟨rfl, rfl⟩ := Prod.mk.inj hpair
  obtain ⟨index, hindex, rfl⟩ := Option.map_eq_some_iff.1 hvlan
  refine index?_of_vlanIndex? ?_
  split at hindex
  · exact hindex
  · cases hindex

/-- The VLAN interfaces of all members, the hashes of each visited in an order of its own. -/
def VlanMaps.loadAllBy (visits : Namespace → Visit) (n : Namespaces) : Load AgentError VlanMaps :=
  n.members.foldlM (fun maps ns => do pure (maps.merge (← loadBy (visits ns) ns))) empty

theorem VlanMaps.byIndex_of_loadAllBy {maps : VlanMaps}
    (h : (loadAllBy visits n).outcome = .ok maps) : ByIndex maps.nameByIndex := by
  intro i name hname
  obtain ⟨ns, -, part, hload, hpart⟩ := Load.exists_part_of_merged h (fun _ _ => rfl) rfl hname
  exact byIndex_of_loadBy hload i name hpart

theorem ManagementMaps.byIndex_of_load {maps : ManagementMaps}
    (h : (load ns).outcome = .ok maps) : ByIndex maps.nameByIndex := by
  obtain ⟨keys, -, hloop⟩ := Load.outcome_bind_eq_ok_iff.1 h
  refine Load.foldlM_induction (P := fun maps => ByIndex maps.nameByIndex)
    (fun _ _ h => by cases h) (fun maps hmaps key _ next hadd => ?_) hloop
  unfold addKey at hadd
  split at hadd
  · exact Except.ok.inj hadd ▸ hmaps
  · split at hadd
    · exact Except.ok.inj hadd ▸ hmaps
    · rename_i name index hindex
      obtain ⟨entry, -, hnext⟩ := Load.outcome_bind_eq_ok_iff.1 hadd
      rw [← Except.ok.inj hnext]
      intro i other hget
      simp only [Dict.get?_insert, same_iff] at hget
      split at hget
      · rename_i hi
        rw [← Option.some.inj hget, hi]
        exact hindex
      · exact hmaps i other hget

theorem InterfaceMaps.loadBy_eq_ok {maps : InterfaceMaps}
    (h : (loadBy visits n).outcome = .ok maps) :
    (PortMaps.loadAllBy visits n).outcome = .ok maps.ports ∧
      (LagMaps.loadAll n).outcome = .ok maps.lags ∧
      (VlanMaps.loadAllBy visits n).outcome = .ok maps.vlans ∧
      (RifMaps.loadAll n).outcome = .ok maps.rifs ∧
      (ManagementMaps.load n.host).outcome = .ok maps.management := by
  obtain ⟨ports, hports, h⟩ := Load.outcome_bind_eq_ok_iff.1 h
  obtain ⟨lags, hlags, h⟩ := Load.outcome_bind_eq_ok_iff.1 h
  obtain ⟨vlans, hvlans, h⟩ := Load.outcome_bind_eq_ok_iff.1 h
  obtain ⟨rifs, hrifs, h⟩ := Load.outcome_bind_eq_ok_iff.1 h
  obtain ⟨management, hmanagement, h⟩ := Load.outcome_bind_eq_ok_iff.1 h
  obtain rfl := Except.ok.inj h
  exact ⟨hports, hlags, hvlans, hrifs, hmanagement⟩

end Load

/-- Every interface is found under the index of its name. -/
structure InterfaceMaps.Numbered (maps : InterfaceMaps) : Prop where
  ports : ByIndex maps.ports.nameByIndex
  lags : ByIndex maps.lags.lagByIndex
  vlans : ByIndex maps.vlans.nameByIndex
  management : ByIndex maps.management.nameByIndex

theorem InterfaceMaps.numbered_of_loadBy {visits : Namespace → Visit} {n : Namespaces}
    {maps : InterfaceMaps} (h : (loadBy visits n).outcome = .ok maps) : maps.Numbered := by
  obtain ⟨hports, hlags, hvlans, -, hmanagement⟩ := loadBy_eq_ok h
  exact ⟨PortMaps.byIndex_of_loadAllBy hports, LagMaps.byIndex_of_loadAll hlags,
    VlanMaps.byIndex_of_loadAllBy hvlans, ManagementMaps.byIndex_of_load hmanagement⟩

end Identity

namespace Mib

open Identity Snmp

namespace InterfaceSnapshot

/-- What a refresh commits: the rows that are read for an identity, whenever and in whatever order
of the hashes that was loaded. -/
def Committed (snap : InterfaceSnapshot) : Prop :=
  ∃ visits loaded maps n, (InterfaceMaps.loadBy visits loaded).outcome = .ok maps ∧
    snap = (read n maps).value

theorem Committed.index?_of_row {snap : InterfaceSnapshot} (h : Committed snap) {i : UInt32}
    {row : InterfaceRow} (hrow : snap.rows.get? i = some row) :
    Net.IfName.index? row.name = some i := by
  obtain ⟨visits, loaded, maps, n, hload, rfl⟩ := h
  have hnumbered := InterfaceMaps.numbered_of_loadBy hload
  rw [get?_rows] at hrow
  obtain ⟨⟨kind, name⟩, hshown, rfl⟩ := Option.map_eq_some_iff.1 hrow
  have hholds := shownAt_eq_some_iff.1 hshown
  cases kind with
  | port => exact hnumbered.ports i name hholds.2.2.2
  | lag => exact hnumbered.lags i name hholds.2.2
  | vlan => exact hnumbered.vlans i name hholds.2
  | management => exact hnumbered.management i name hholds

end InterfaceSnapshot

/-- A reinit keeps the identity or has loaded another. -/
theorem Interfaces.identity_reinit (out : Outside) (t : Interfaces) :
    (t.reinit out).value.after.identity = t.identity ∨
      (InterfaceMaps.load out.namespaces).outcome = .ok (t.reinit out).value.after.identity := by
  rw [reinit, Load.outcome, Logged.value_bind]
  cases (InterfaceMaps.load out.namespaces).run.value with
  | error e => exact .inl rfl
  | ok identity =>
    simp only
    split
    · exact .inl rfl
    · exact .inr rfl

/-- Whatever happens around a table, a refresh has read what it has committed, for an identity that
had been loaded. -/
theorem Interfaces.committed_run {s : Session} (hs : s.Opened .interfaces) (turns : List Turn)
    {t : Interfaces} (ht : (s.run turns).table = .interfaces t) :
    InterfaceSnapshot.Committed t.cell.current := by
  let Loaded (maps : InterfaceMaps) : Prop :=
    ∃ visits loaded, (InterfaceMaps.loadBy visits loaded).outcome = .ok maps
  suffices hall : ∀ t, (s.run turns).table = .interfaces t →
      Loaded t.identity ∧ InterfaceSnapshot.Committed t.cell.current from (hall t ht).2
  refine Session.run_induction (P := fun u => ∀ t, u = .interfaces t →
    Loaded t.identity ∧ InterfaceSnapshot.Committed t.cell.current) ?_ ?_ ?_ ?_ turns
  · rintro out (t' | _ | _ | _ | _ | _ | _ | _) h t ht <;> cases ht
    obtain ⟨⟨visits, loaded, hload⟩, -⟩ := h t' rfl
    exact ⟨⟨visits, loaded, hload⟩, visits, loaded, _, _, hload, rfl⟩
  · rintro out (t' | _ | _ | _ | _ | _ | _ | _) h t ht <;> cases ht
    obtain ⟨hloaded, hcommitted⟩ := h t' rfl
    show Loaded (t'.reinit out).value.after.identity ∧
      InterfaceSnapshot.Committed (t'.reinit out).value.after.cell.current
    rw [Interfaces.cell_reinit]
    refine ⟨?_, hcommitted⟩
    rcases t'.identity_reinit out with hsame | hload
    · rwa [hsame]
    · exact ⟨Namespace.visit, _, hload⟩
  · rintro sub (t' | _ | _ | _ | _ | _ | _ | _) h t ht <;> cases ht
    exact h t' rfl
  · intro t ht
    obtain ⟨table, hbuild, htable⟩ := Load.outcome_bind_eq_ok_iff.1 hs
    obtain ⟨identity, hload, hfirst⟩ :=
      Load.outcome_bind_eq_ok_iff.1 (Load.outcome_lift_eq_ok_iff.1 hbuild)
    obtain rfl := Updater.interfaces.inj (ht.symm.trans (Except.ok.inj htable).symm)
    rw [← Except.ok.inj hfirst]
    exact ⟨⟨Namespace.visit, _, hload⟩, Namespace.visit, _, _, _, hload, rfl⟩

end Mib

/-! ## Walks -/

namespace Snmp.MibTree

variable {υ : Type} [Mib υ] {tree : MibTree υ}

theorem walk_exact (harr : Arranged tree.mibs) (hs : ∀ u ∈ tree.mibs, Serves u) :
    tree.walk.Pairwise (fun a b => before a.1 b.1 = true) ∧
      ∀ o v, (o, v) ∈ tree.walk ↔ tree.get o = some v := by
  have hsteps : (keysAbove tree.objects Oid.root).length < tree.cellCount + 1 := by
    rw [← length_objects]
    exact Nat.lt_succ_of_le (length_keysAbove_le _ _)
  obtain ⟨hsorted, hrows⟩ := (walkFrom_walks harr hs hsteps).exact (getNext_finds harr hs)
  exact ⟨hsorted, fun o v =>
    (hrows o v).trans (and_iff_right_of_imp (before_root_of_get harr hs))⟩

/-- What the tree answers below the root of a table is what the table answers. -/
theorem get_append_iff (harr : Arranged tree.mibs) {u : υ} (hu : u ∈ tree.mibs) {sub : SubId}
    {v : Value} : tree.get ((Mib.top u).append sub) = some v ↔ Mib.valueAt u sub = some v := by
  rw [get_eq_some_iff harr]
  constructor
  · rintro ⟨w, hw, hshows⟩
    by_cases hsame : w = u
    · rw [hsame] at hshows
      exact showsIn_append.1 hshows
    · obtain ⟨sub', hsub', -⟩ := hshows
      have hapart : (tree.mibs).Pairwise fun a b => overlaps (Mib.top a) (Mib.top b) = false :=
        harr.imp fun h => h.2
      have : Std.Symm fun a b : υ => overlaps (Mib.top a) (Mib.top b) = false :=
        ⟨fun a b h => (overlaps_comm _ _).trans h⟩
      have hnot := hapart.forall hu hw (Ne.symm hsame)
      rw [overlaps_of_append hsub'] at hnot
      cases hnot
  · exact fun hv => ⟨u, hu, showsIn_append.2 hv⟩

end Snmp.MibTree

namespace Mib

open Identity Snmp

/-! ## The index column -/

/-- The index column of the interface table. -/
def indexColumn : Oid := Interfaces.top.append [2, 1, 1]

/-- The cells of the index column that a walk lists, with their values. -/
def indexCells (tree : MibTree Updater) : List (Oid × Value) :=
  tree.walk.filter fun p => p.1.startsWith indexColumn

/-- A cell of the index column that answers its index. -/
def indexCell (i : UInt32) : Oid × Value :=
  (indexColumn.append [i], .integer (Int32.ofNat i.toNat))

theorem indexCell_injective : Function.Injective indexCell := by
  intro i j h
  have harcs := List.append_cancel_left (congrArg Oid.arcs (Prod.mk.inj h).1)
  exact (List.cons.inj harcs).1

namespace Interfaces

variable {t : Interfaces}

theorem valueAt_index_iff {sub : SubId} {v : Value} :
    t.valueAt ([2, 1, 1] ++ sub) = some v ↔
      ∃ i ∈ t.cell.current.rows.keys, i.toNat < 0x80000000 ∧ sub = [i] ∧
        v = .integer (Int32.ofNat i.toNat) := by
  have hcell : ∀ i, t.valueAt [2, 1, 1, i] = some v ↔ i ∈ t.cell.current.rows.keys ∧
      i.toNat < 0x80000000 ∧ v = .integer (Int32.ofNat i.toNat) := by
    intro i
    rw [valueAt, t.cell.current.valueAt_cell, InterfaceSnapshot.column, Option.bind_eq_some_iff,
      Dict.mem_keys_iff, Option.isSome_iff_exists, ← Value.ofIndex_eq_some_iff]
    show (∃ row, t.cell.current.rows.get? i = some row ∧ Value.ofIndex i.toNat = some v) ↔ _
    exact exists_and_right
  constructor
  · intro hv
    rcases t.cell.current.mem_cells_iff.1 (t.cell.current.mem_cells_of_value hv) with
      hcount | ⟨column, i, hsub, -⟩
    · cases hcount
    · cases hsub
      obtain ⟨hrow, hfits, hvalue⟩ := (hcell i).1 hv
      exact ⟨i, hrow, hfits, rfl, hvalue⟩
  · rintro ⟨i, hrow, hfits, rfl, hvalue⟩
    exact (hcell i).2 ⟨hrow, hfits, hvalue⟩

theorem valueAt_count_iff {v : Value} :
    t.valueAt [1, 0] = some v ↔ t.cell.current.rows.keys.length < 0x80000000 ∧
      v = .integer (Int32.ofNat t.cell.current.rows.keys.length) := by
  rw [← Value.ofIndex_eq_some_iff, Dict.keys, List.length_map]
  rfl

theorem nodup_rows (t : Interfaces) : t.cell.current.rows.keys.Nodup :=
  t.cell.current.rows.keys_ascending.imp fun hbefore => ne_of_before hbefore

end Interfaces

section Walk

variable {us : List Updater} {tree : MibTree Updater} {t : Interfaces}
  (hreg : us.foldlM MibTree.register .empty = .ok tree) (ht : Updater.interfaces t ∈ us)

include hreg ht

theorem get_interfaces_iff {sub : SubId} {v : Value} :
    tree.get (Interfaces.top.append sub) = some v ↔ t.valueAt sub = some v := by
  obtain ⟨harr, hmem⟩ := MibTree.arranged_of_registers List.Pairwise.nil hreg
  exact MibTree.get_append_iff harr ((hmem _).2 (.inl ht))

variable (hkept : ∀ u ∈ us, WellKept u)

include hkept

/-- A walk lists the cells of the indexes that are shown, each once. -/
theorem indexCells_perm :
    (indexCells tree).Perm
      ((t.cell.current.rows.keys.filter fun i => i.toNat < 0x80000000).map indexCell) := by
  obtain ⟨harr, hmem⟩ := MibTree.arranged_of_registers List.Pairwise.nil hreg
  have hserves : ∀ u ∈ tree.mibs, Serves u := by
    intro u hu
    exact Updater.serves_of_wellKept (hkept u (((hmem u).1 hu).resolve_right List.not_mem_nil))
  obtain ⟨hsorted, hwalk⟩ := MibTree.walk_exact harr hserves
  have hnodup : (indexCells tree).Nodup := by
    refine (hsorted.imp fun hbefore hsame => ?_).filter _
    exact ne_of_before hbefore (congrArg Prod.fst hsame)
  refine (List.perm_ext_iff_of_nodup hnodup
    ((t.nodup_rows.filter _).map indexCell_injective)).2 ?_
  rintro ⟨o, v⟩
  rw [indexCells, List.mem_filter, hwalk, Oid.startsWith_iff, List.mem_map]
  constructor
  · rintro ⟨hget, sub, rfl⟩
    obtain ⟨i, hrow, hfits, rfl, rfl⟩ :=
      Interfaces.valueAt_index_iff.1 ((get_interfaces_iff hreg ht).1 hget)
    exact ⟨i, List.mem_filter.2 ⟨hrow, decide_eq_true hfits⟩, rfl⟩
  · rintro ⟨i, hi, hcell⟩
    obtain ⟨rfl, rfl⟩ := Prod.mk.inj hcell
    obtain ⟨hrow, hfits⟩ := List.mem_filter.1 hi
    refine ⟨(get_interfaces_iff hreg ht).2 ?_, [i], rfl⟩
    exact Interfaces.valueAt_index_iff.2 ⟨i, hrow, of_decide_eq_true hfits, rfl, rfl⟩

theorem mem_indexCells_iff {p : Oid × Value} :
    p ∈ indexCells tree ↔
      ∃ i ∈ t.cell.current.rows.keys, i.toNat < 0x80000000 ∧ p = indexCell i := by
  rw [(indexCells_perm hreg ht hkept).mem_iff, List.mem_map]
  simp only [List.mem_filter, decide_eq_true_eq, and_assoc, eq_comm (a := p)]

theorem length_rows_eq :
    t.cell.current.rows.keys.length = (indexCells tree).length +
      t.cell.current.rows.keys.countP fun i => 0x80000000 ≤ i.toNat := by
  have hsplit := t.cell.current.rows.keys.length_eq_countP_add_countP
    fun i => decide (i.toNat < 0x80000000)
  rw [(indexCells_perm hreg ht hkept).length_eq, List.length_map, ← List.countP_eq_length_filter,
    hsplit]
  simp

end Walk

/-! ## The count and the cells -/

/-- The count of interfaces is the number of the cells of the index column that a walk lists, each
of these answers its index, and every row has one. -/
structure Counted (tree : MibTree Updater) (t : Interfaces) : Prop where
  count : ∃ n : Int32, tree.get (Interfaces.top.append [1, 0]) = some (.integer n) ∧
    n.toInt = (indexCells tree).length
  answers : ∀ p ∈ indexCells tree, ∃ (i : UInt32) (n : Int32),
    p = (indexColumn.append [i], .integer n) ∧ n.toInt = i.toNat
  shown : ∀ i ∈ t.cell.current.rows.keys, ∃ v, (indexColumn.append [i], v) ∈ indexCells tree

/-- There are less than 2 ^ 31 numbers that are below 2 ^ 31 and not zero. -/
theorem length_lt_of_below {words : List UInt32} (hnodup : words.Nodup)
    (h : ∀ i ∈ words, 1 ≤ i.toNat ∧ i.toNat < 0x80000000) : words.length < 0x80000000 := by
  have hnumbers : (words.map UInt32.toNat).Nodup := hnodup.map fun _ _ => UInt32.toNat_inj.1
  have hsub : (words.map UInt32.toNat).toFinset ⊆ Finset.Ico 1 0x80000000 := by
    intro k hk
    obtain ⟨i, hi, rfl⟩ := List.mem_map.1 (List.mem_toFinset.1 hk)
    exact Finset.mem_Ico.2 (h i hi)
  have hcard := Finset.card_le_card hsub
  rw [List.toFinset_card_of_nodup hnumbers, List.length_map, Nat.card_Ico] at hcard
  omega

/-- The rows are fewer than there are numbers, because no interface has the index zero. -/
theorem InterfaceSnapshot.Committed.length_rows_lt {t : Interfaces}
    (hsnap : Committed t.cell.current)
    (hbelow : ∀ i ∈ t.cell.current.rows.keys, i.toNat < 0x80000000) :
    t.cell.current.rows.keys.length < 0x80000000 := by
  refine length_lt_of_below t.nodup_rows fun i hi => ⟨?_, hbelow i hi⟩
  obtain ⟨row, hrow⟩ := Option.isSome_iff_exists.1 (Dict.mem_keys_iff.1 hi)
  exact Net.IfName.one_le_of_index? (hsnap.index?_of_row hrow)

section Counts

variable {us : List Updater} {tree : MibTree Updater} {t : Interfaces}
  (hreg : us.foldlM MibTree.register .empty = .ok tree) (ht : Updater.interfaces t ∈ us)

include hreg ht

theorem toInt_count_eq {n : Int32}
    (hn : tree.get (Interfaces.top.append [1, 0]) = some (.integer n)) :
    n.toInt = t.cell.current.rows.keys.length := by
  obtain ⟨hfits, hvalue⟩ := Interfaces.valueAt_count_iff.1 ((get_interfaces_iff hreg ht).1 hn)
  rw [Value.integer.inj hvalue, Int32.toInt_ofNat_of_lt hfits]

variable (hkept : ∀ u ∈ us, WellKept u)

include hkept

theorem Counted.below (h : Counted tree t) :
    ∀ i ∈ t.cell.current.rows.keys, i.toNat < 0x80000000 := by
  intro i hi
  obtain ⟨v, hv⟩ := h.shown i hi
  obtain ⟨j, -, hfits, hcell⟩ := (mem_indexCells_iff hreg ht hkept).1 hv
  have harcs := List.append_cancel_left (congrArg Oid.arcs (Prod.mk.inj hcell).1)
  rw [(List.cons.inj harcs).1]
  exact hfits

theorem counted_of_below (hsnap : InterfaceSnapshot.Committed t.cell.current)
    (hbelow : ∀ i ∈ t.cell.current.rows.keys, i.toNat < 0x80000000) : Counted tree t := by
  have hfew := hsnap.length_rows_lt hbelow
  have hnone : t.cell.current.rows.keys.countP (fun i => 0x80000000 ≤ i.toNat) = 0 := by
    rw [List.countP_eq_zero]
    intro i hi
    simpa using hbelow i hi
  have hlength := length_rows_eq hreg ht hkept
  rw [hnone, Nat.add_zero] at hlength
  refine ⟨⟨_, (get_interfaces_iff hreg ht).2 (Interfaces.valueAt_count_iff.2 ⟨hfew, rfl⟩), ?_⟩,
    fun p hp => ?_, fun i hi => ?_⟩
  · rw [Int32.toInt_ofNat_of_lt hfew, hlength]
  · obtain ⟨i, -, hfits, rfl⟩ := (mem_indexCells_iff hreg ht hkept).1 hp
    exact ⟨i, _, rfl, Int32.toInt_ofNat_of_lt hfits⟩
  · exact ⟨_, (mem_indexCells_iff hreg ht hkept).2 ⟨i, hi, hbelow i hi, rfl⟩⟩

end Counts

/-- In a tree of tables every row of the interface table is that of a name with its index. A walk
lists the index cells of just those rows whose index is below 2 ^ 31, each with its index, while the
count of interfaces is that of all rows. So the two agree, and every row that is counted has an
index cell, just when all indexes are below 2 ^ 31. The snapshots spoken of are all that a table has
committed at any time of its life. -/
theorem counted_iff_below {us : List Updater} {tree : MibTree Updater} {t : Interfaces}
    (hreg : us.foldlM MibTree.register .empty = .ok tree) (ht : Updater.interfaces t ∈ us)
    (hkept : ∀ u ∈ us, WellKept u) (hsnap : InterfaceSnapshot.Committed t.cell.current) :
    let rows := t.cell.current.rows
    (∀ i row, rows.get? i = some row → ∃ family n,
      Net.IfName.classify row.name = some (family, i) ∧ family.Names n row.name ∧
        i.toNat = n + family.base) ∧
    (∀ p, p ∈ indexCells tree ↔ ∃ i ∈ rows.keys, i.toNat < 0x80000000 ∧ p = indexCell i) ∧
    (∀ n : Int32, tree.get (Interfaces.top.append [1, 0]) = some (.integer n) →
      n.toInt = (indexCells tree).length + rows.keys.countP fun i => 0x80000000 ≤ i.toNat) ∧
    (Counted tree t ↔ ∀ i ∈ rows.keys, i.toNat < 0x80000000) ∧
    ∀ (s : Session) (turns : List Turn) (t' : Interfaces), s.Opened .interfaces →
      (s.run turns).table = .interfaces t' → InterfaceSnapshot.Committed t'.cell.current := by
  intro rows
  refine ⟨fun i row hrow => ?_, fun p => mem_indexCells_iff hreg ht hkept, fun n hn => ?_,
    ⟨fun hcounted => hcounted.below hreg ht hkept, counted_of_below hreg ht hkept hsnap⟩,
    fun s turns t' hs ht' => Interfaces.committed_run hs turns ht'⟩
  · obtain ⟨⟨family, j⟩, hclass, rfl⟩ := Option.map_eq_some_iff.1 (hsnap.index?_of_row hrow)
    obtain ⟨n, hnames, hlt, rfl⟩ := Net.IfName.classify_eq_some_iff.1 hclass
    exact ⟨family, n, hclass, hnames, UInt32.toNat_ofNat_of_lt' hlt⟩
  · rw [toInt_count_eq hreg ht hn, length_rows_eq hreg ht hkept]
    exact Int.natCast_add _ _

/-- A device with ports. -/
def worldOfPorts (ports : List (String × String)) : Outside :=
  worldOf (PortMaps.chipOfPorts "" ports)

/-- The greatest index that is shown. -/
theorem counted_of_greatest_index :
    let out := worldOfPorts [("Ethernet0", "oid:0x1"), ("Ethernet2147483646", "oid:0x2")]
    ∃ (t : Interfaces) (tree : MibTree Updater), (Interfaces.build out).outcome = .ok t ∧
      [Updater.interfaces t].foldlM MibTree.register .empty = .ok tree ∧
      (∀ u ∈ [Updater.interfaces t], WellKept u) ∧ InterfaceSnapshot.Committed t.cell.current ∧
      t.cell.current.rows.keys = [1, 2147483647] ∧ Counted tree t := by
  intro out
  have hbuilt : (Interfaces.build out).outcome.map (·.cell.current.rows.keys) =
      .ok [1, 2147483647] := by decide +kernel
  obtain ⟨t, hbuild, hrows⟩ := exists_eq_ok_of_map hbuilt
  let s : Session := ⟨out, .interfaces t⟩
  have hs : s.Opened .interfaces :=
    Load.outcome_bind_eq_ok_iff.2 ⟨t, Load.outcome_lift_eq_ok_iff.2 hbuild, rfl⟩
  have hsnap : InterfaceSnapshot.Committed t.cell.current := Interfaces.committed_run hs [] rfl
  have hkept : ∀ u ∈ [Updater.interfaces t], WellKept u := by
    intro u hu
    obtain rfl := List.mem_singleton.1 hu
    trivial
  have hreg : [Updater.interfaces t].foldlM MibTree.register .empty =
      .ok (⟨[.interfaces t]⟩ : MibTree Updater) := rfl
  obtain ⟨-, -, -, hiff, -⟩ := counted_iff_below hreg List.mem_cons_self hkept hsnap
  refine ⟨t, _, hbuild, hreg, hkept, hsnap, hrows, hiff.2 fun i hi => ?_⟩
  rw [hrows, List.mem_pair] at hi
  rcases hi with rfl | rfl <;> decide

/-- The port with the next index is counted, but a walk comes to no index of it. -/
theorem not_counted_of_next_index :
    let out := worldOfPorts [("Ethernet0", "oid:0x1"), ("Ethernet2147483647", "oid:0x2")]
    Net.IfName.classify "Ethernet2147483647" = some (.ethernet, 2147483648) ∧
    (∃ (t : Interfaces) (tree : MibTree Updater), (Interfaces.build out).outcome = .ok t ∧
      [Updater.interfaces t].foldlM MibTree.register .empty = .ok tree ∧
      InterfaceSnapshot.Committed t.cell.current ∧
      tree.get (Interfaces.top.append [1, 0]) = some (.integer 2) ∧
      indexCells tree = [(indexColumn.append [1], .integer 1)] ∧
      tree.get (indexColumn.append [2147483648]) = none ∧ ¬ Counted tree t) ∧
    ¬ ∀ (t : Interfaces) (tree : MibTree Updater),
      [Updater.interfaces t].foldlM MibTree.register .empty = .ok tree →
        InterfaceSnapshot.Committed t.cell.current → Counted tree t := by
  intro out
  have hname : Net.IfName.classify "Ethernet2147483647" = some (.ethernet, 2147483648) := by
    decide +kernel
  have hbuilt : (Interfaces.build out).outcome.map (fun t =>
      let tree : MibTree Updater := ⟨[.interfaces t]⟩
      (tree.get (Interfaces.top.append [1, 0]), indexCells tree,
        tree.get (indexColumn.append [2147483648]))) =
      .ok (some (.integer 2), [(indexColumn.append [1], .integer 1)], none) := by
    decide +kernel
  obtain ⟨t, hbuild, hshown⟩ := exists_eq_ok_of_map hbuilt
  obtain ⟨hcount, hcells, hnone⟩ : _ ∧ _ ∧ _ := by simpa using hshown
  let s : Session := ⟨out, .interfaces t⟩
  have hs : s.Opened .interfaces :=
    Load.outcome_bind_eq_ok_iff.2 ⟨t, Load.outcome_lift_eq_ok_iff.2 hbuild, rfl⟩
  have hsnap : InterfaceSnapshot.Committed t.cell.current := Interfaces.committed_run hs [] rfl
  have hreg : [Updater.interfaces t].foldlM MibTree.register .empty =
      .ok (⟨[.interfaces t]⟩ : MibTree Updater) := rfl
  have hnot : ¬ Counted ⟨[.interfaces t]⟩ t := by
    rintro ⟨⟨n, hn, hlength⟩, -, -⟩
    rw [hcount] at hn
    rw [← Value.integer.inj (Option.some.inj hn), hcells] at hlength
    exact absurd hlength (by decide)
  exact ⟨hname, ⟨t, _, hbuild, hreg, hsnap, hcount, hcells, hnone, hnot⟩,
    fun hall => hnot (hall t _ hreg hsnap)⟩

end Mib

end SwitchMib
