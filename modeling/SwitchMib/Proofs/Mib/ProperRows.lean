import SwitchMib.Proofs.Mib.Session
import SwitchMib.Proofs.Order.Successor

/-!
# Rows have sub-identifiers

No table ever commits a row at its own root, and no power supply is numbered beyond the words that
arcs are made of. Both hold because of how rows are named, whatever the stores say.

* `Proper`: an index without a row at the root.
* `WellKept`: what holds of the committed snapshot of each table.
* `Session.wellKept_run`: it holds at every moment of the life of a table.
-/

namespace SwitchMib.Mib
set_option autoImplicit false

open Identity Snmp Store

/-- No row of an index has the empty sub-identifier. -/
def Proper {ν : Type} (index : SubIdIndex ν) : Prop := [] ∉ index.keys

section Proper

variable {ν : Type} {index : SubIdIndex ν}

theorem proper_empty : Proper (.empty : SubIdIndex ν) := List.not_mem_nil

theorem Proper.insert (h : Proper index) {sub : SubId} (hsub : sub ≠ []) (v : ν) :
    Proper (index.insert sub v) := by
  rw [Proper, Dict.mem_keys_insert]
  rintro (hnil | hmem)
  · exact hsub hnil.symm
  · exact h hmem

theorem Proper.insertAll (h : Proper index) {rows : List (SubId × ν)}
    (hrows : ∀ row ∈ rows, row.1 ≠ []) : Proper (index.insertAll rows) := by
  rw [Proper, Dict.mem_keys_insertAll]
  rintro (hmem | hmem)
  · obtain ⟨row, hrow, hnil⟩ := List.mem_map.1 hmem
    exact hrows row hrow hnil
  · exact h hmem

end Proper

/-! ## What is read -/

theorem Neighbours.proper_rowsOf (text : String) : Proper (rowsOf text) := by
  refine proper_empty.insertAll fun row hrow => ?_
  obtain ⟨n, -, hn⟩ := List.mem_filterMap.1 hrow
  obtain ⟨index, -, rfl⟩ := Option.map_eq_some_iff.1 hn
  exact List.cons_ne_nil _ _

/-- An entry has a row when its key can be read, it leads to an interface and has a VLAN. -/
theorem resolve_eq_ok_iff {n : Namespaces} {maps : ForwardingMaps} {key : String}
    {row : SubId × UInt32} :
    (resolve n maps key).value = .ok row ↔ ∃ parsed mac index vlan,
      readKey key = .ok (parsed, mac) ∧ learnedOn maps (n.getAll .asic key).value = .ok index ∧
      (readVlan n parsed).value = some vlan ∧ row = (vlan.arc :: mac.arcs, index) := by
  rw [resolve]
  constructor
  · intro h
    cases hkey : readKey key with
    | error skip =>
      rw [hkey] at h
      cases h
    | ok found =>
      obtain ⟨parsed, mac⟩ := found
      simp only [hkey, Logged.value_bind] at h
      cases hport : learnedOn maps (n.getAll .asic key).value with
      | error skip =>
        rw [Aggregated.serve, hport] at h
        cases h
      | ok index =>
        rw [Aggregated.serve, hport] at h
        simp only [Logged.value_bind] at h
        cases hvlan : (readVlan n parsed).value with
        | none =>
          rw [hvlan] at h
          cases h
        | some vlan =>
          rw [hvlan] at h
          exact ⟨parsed, mac, index, vlan, rfl, rfl, hvlan, (Except.ok.inj h).symm⟩
  · rintro ⟨parsed, mac, index, vlan, hkey, hport, hvlan, rfl⟩
    simp only [hkey, Logged.value_bind, Aggregated.serve, hport, hvlan, Logged.value_pure]

theorem ne_nil_of_resolve {n : Namespaces} {maps : ForwardingMaps} {key : String} {sub : SubId}
    {index : UInt32} (h : (resolve n maps key).value = .ok (sub, index)) : sub ≠ [] := by
  obtain ⟨_, _, _, _, -, -, -, hrow⟩ := resolve_eq_ok_iff.1 h
  rw [(Prod.mk.inj hrow).1]
  exact List.cons_ne_nil _ _

theorem proper_readForwarding (n : Namespaces) (maps : ForwardingMaps) (warned : Once String) :
    Proper (readForwarding n maps warned).value.rows := by
  rw [readForwarding, Logged.value_bind]
  refine Logged.foldlM_induction (P := fun acc : ForwardingRows => Proper acc.rows)
    proper_empty ?_
  intro acc hacc key _
  rw [value_addForwarding]
  cases hrow : (resolve n maps key).value with
  | error skip => exact hacc
  | ok row => exact hacc.insert (ne_nil_of_resolve hrow) row.2

theorem proper_hops (members : List Namespace) :
    Proper (members.foldlM addHops Dict.empty).value := by
  refine Logged.foldlM_induction proper_empty ?_
  intro rows hrows ns _
  rw [addHops]
  cases ns.getAll .appl defaultRouteKey with
  | error e => exact hrows
  | ok entry =>
    refine hrows.insertAll fun row hrow => ?_
    obtain ⟨hop, -, rfl⟩ := List.mem_map.1 hrow
    exact List.cons_ne_nil _ _

theorem proper_readQueues (n : Namespaces) (maps : QueueMaps) (warned : Once String) :
    Proper (readQueues n maps warned).value.after.rows := by
  rw [after_readQueues]
  refine List.foldlRecOn (motive := fun acc : QueueRows => Proper acc.rows) _ _ proper_empty ?_
  intro acc hacc r _
  rw [QueueRead.value_enter]
  cases hrow : r.row? n with
  | none => exact hacc
  | some row =>
    obtain ⟨v, -, hplace⟩ := Option.bind_eq_some_iff.1 hrow
    obtain ⟨arcs, harcs, rfl⟩ := Option.map_eq_some_iff.1 hplace
    have hsub : arcs ≠ [] := (queueCounterArcs?_eq_some_iff.1 harcs).2 ▸ List.cons_ne_nil _ _
    exact hacc.insert hsub v

theorem ne_nil_of_overlayPlace {top : Oid} {key : String} {sub : SubId}
    (h : overlayPlace top key = some sub) : sub ≠ [] := by
  simp only [overlayPlace, Option.bind_eq_bind, Option.bind_eq_some_iff] at h
  obtain ⟨oid, -, below, -, hsub⟩ := h
  cases below with
  | nil => simp at hsub
  | cons a rest =>
    obtain rfl : a :: rest = sub := by simpa using hsub
    exact List.cons_ne_nil a rest

theorem proper_addOverlay (host : Namespace) (top : Oid) {acc : OverlayRows}
    (h : Proper acc.rows) (key : String) : Proper (addOverlay host top acc key).1.rows := by
  unfold addOverlay
  cases hplace : overlayPlace top key with
  | none => exact h
  | some sub =>
    cases host.getAll .overlay key with
    | error e => exact h
    | ok entry =>
      simp only
      cases decodeOverlay entry with
      | error fault => exact h
      | ok value => exact h.insert (ne_nil_of_overlayPlace hplace) value

theorem proper_addOverlays (host : Namespace) (top : Oid) {acc : OverlayRows}
    (h : Proper acc.rows) (keys : List String) :
    Proper (addOverlays host top acc keys).1.rows := by
  induction keys generalizing acc with
  | nil => exact h
  | cons key keys ih =>
    have hadd := proper_addOverlay host top h key
    rw [addOverlays_cons]
    generalize addOverlay host top acc key = added at hadd
    obtain ⟨next, outcome⟩ := added
    cases outcome with
    | error e => exact hadd
    | ok _ => exact ih hadd

theorem proper_readOverlay (host : Namespace) (top : Oid) :
    Proper (readOverlay host top).1.rows := by
  rw [readOverlay]
  cases host.keys .overlay "*" with
  | error e => exact proper_empty
  | ok keys => exact proper_addOverlays host top proper_empty keys

theorem length_pollAll_lt (source : PowerSource) :
    (pollAll source).value.length < UInt32.size := by
  rw [pollAll, Logged.value_bind, Logged.value_mapM, List.length_map, List.length_range',
    countSupplies]
  cases source.count with
  | error e =>
    show 0 < UInt32.size
    decide
  | ok count =>
    show count.toNat < UInt32.size
    exact count.toNat_lt

/-! ## What is kept -/

/-- What holds of the committed snapshot of a table. -/
def WellKept : Updater → Prop
  | .interfaces _ => True
  | .neighbours t => Proper t.cell.current
  | .forwarding t => Proper t.cell.current
  | .routes t => Proper t.cell.current
  | .sensors _ => True
  | .queueStats t => Proper t.cell.current
  | .power t => t.cell.current.length < UInt32.size
  | .overlay t => Proper t.cell.current

theorem wellKept_blank (b : Blueprint) : WellKept b.blank := by
  cases b with
  | interfaces => trivial
  | sensors => trivial
  | power origin => exact (by decide : 0 < UInt32.size)
  | _ => exact proper_empty

theorem SnapshotCell.refresh_induction {σ ε : Type} {P : σ → Prop} {cell : SnapshotCell σ}
    {built : Except ε σ} (hcell : P cell.current) (hbuilt : ∀ next, built = .ok next → P next) :
    P (cell.refresh built).current := by
  cases built with
  | error e => exact hcell
  | ok next => exact hbuilt next rfl

theorem WellKept.refresh (out : Outside) (u : Updater) (h : WellKept u) :
    WellKept (u.refresh out).value.after := by
  cases u with
  | interfaces t => trivial
  | neighbours t =>
    refine SnapshotCell.refresh_induction (P := Proper) h ?_
    intro rows hrows
    cases hfile : out.neighbours with
    | error e =>
      rw [hfile] at hrows
      cases hrows
    | ok text =>
      rw [hfile] at hrows
      cases hrows
      exact Neighbours.proper_rowsOf text
  | forwarding t => exact proper_readForwarding out.namespaces t.identity t.warned
  | routes t => exact proper_hops out.namespaces.members
  | sensors t => trivial
  | queueStats t =>
    show Proper (t.refresh out).value.after.cell.current
    rw [QueueStats.cell_refresh]
    refine SnapshotCell.refresh_induction h fun rows hrows => ?_
    obtain ⟨_, -, rfl⟩ := exists_eq_ok_of_map hrows
    exact proper_readQueues out.namespaces t.queues .fresh
  | power t => exact length_pollAll_lt (t.origin.source out)
  | overlay t =>
    show Proper (t.refresh out).value.after.cell.current
    rw [Overlay.cell_refresh]
    have hread := proper_readOverlay out.namespaces.host t.top
    generalize readOverlay out.namespaces.host t.top = read at hread
    refine SnapshotCell.refresh_induction h fun rows hrows => ?_
    obtain ⟨found, done⟩ := read
    cases done with
    | error e => cases hrows
    | ok _ =>
      cases hrows
      exact hread

theorem wellKept_committed (u : Updater) : WellKept u.committed ↔ WellKept u := by
  cases u <;> exact Iff.rfl

theorem WellKept.reinit (out : Outside) (u : Updater) (h : WellKept u) :
    WellKept (u.reinit out).value.after := by
  rw [← wellKept_committed, Updater.committed_reinit, wellKept_committed]
  exact h

theorem WellKept.noteRead (sub : SubId) (u : Updater) (h : WellKept u) :
    WellKept (u.noteRead sub).value := by
  rw [← wellKept_committed, Updater.committed_noteRead, wellKept_committed]
  exact h

/-- The snapshot of a table is well kept at every moment of its life. -/
theorem Session.wellKept_run {s : Session} {b : Blueprint} (hs : s.Opened b)
    (turns : List Turn) : WellKept (s.run turns).table :=
  life_induction (wellKept_blank b) WellKept.refresh WellKept.reinit WellKept.noteRead hs turns

end SwitchMib.Mib
