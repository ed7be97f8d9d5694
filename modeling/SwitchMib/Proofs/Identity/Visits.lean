import SwitchMib.Proofs.Identity.Strict
import SwitchMib.Proofs.Mib.ChipQueues

/-!
# Hashes visited in any order

Nothing says in which order the fields of a hash are visited. Ports, VLAN interfaces and queues are
entered one by one from the fields of a hash of names, and of several that share a key the one that
is visited last counts. So the order does not matter just when no two of them share a key, or when
the load fails whatever the order.

* `Dict.field_foldl_perm`: a map that is filled in any order.
* `Load.outcome_foldlM_perm`: a loop of loads in any order.
* `Visit.through`: a load that goes on with the fields of a hash, visited in an order.
* `PortMaps.loadBy`, `PortMaps.AnyOrder` and so on: the loads that visit a hash in a given order,
  and that the order does not matter to them.
* `PortMaps.Unambiguous` and so on: no two entries share a key.
* `anyOrder_iff_unambiguous`: when the order does not matter, and what follows for a reinit.
-/

namespace SwitchMib
set_option autoImplicit false

open Store

/-! ## Steps in any order -/

namespace Dict

variable {κ ν α ρ : Type} [KeyOrder κ]

theorem insert_comm (d : Dict κ ν) {k k' : κ} {v v' : ν} (h : k = k' → v = v') :
    (d.insert k v).insert k' v' = (d.insert k' v').insert k v := by
  apply ext_get?
  intro j
  simp only [get?_insert]
  by_cases hk : j = k
  · by_cases hk' : j = k'
    · simp [← hk, ← hk', h (hk.symm.trans hk')]
    · simp [← hk, KeyOrder.same_eq_false_iff.2 hk']
  · simp [KeyOrder.same_eq_false_iff.2 hk]

theorem isEmpty_insert (d : Dict κ ν) (k : κ) (v : ν) : (d.insert k v).isEmpty = false := by
  have hmem : (k, v) ∈ (d.insert k v).toList := by
    rw [mem_toList_iff, get?_insert, if_pos (KeyOrder.same_self k)]
  cases hlist : (d.insert k v).toList with
  | nil =>
    rw [hlist] at hmem
    cases hmem
  | cons p l =>
    rw [isEmpty, hlist]
    rfl

/-- A step of a loop finds something to enter in a field of a record, or leaves the field alone. -/
def Binds {τ : Type} (field : ρ → Dict κ ν) (find? : α → Option τ) (row : τ → κ × ν)
    (step : ρ → α → ρ) : Prop :=
  ∀ acc a, field (step acc a) = match (find? a).map row with
    | some (k, v) => (field acc).insert k v
    | none => field acc

section Binds

variable {τ : Type} {field : ρ → Dict κ ν} {find? : α → Option τ} {row : τ → κ × ν}
  {step : ρ → α → ρ}

/-- Where no key is bound to different values, the order of the steps does not matter. -/
theorem field_foldl_perm (hstep : Binds field find? row step) {l l' : List α} (hp : l.Perm l')
    (hsame : ∀ x ∈ l.filterMap find?, ∀ y ∈ l.filterMap find?,
      (row x).1 = (row y).1 → (row x).2 = (row y).2) (start : ρ) :
    field (l.foldl step start) = field (l'.foldl step start) := by
  let bindRow (d : Dict κ ν) (a : α) : Dict κ ν := match (find? a).map row with
    | some (k, v) => d.insert k v
    | none => d
  have hfield : ∀ l : List α, field (l.foldl step start) = l.foldl bindRow (field start) :=
    fun l => (List.foldl_hom field fun acc a => (hstep acc a).symm).symm
  rw [hfield, hfield]
  refine hp.foldl_eq' (fun a ha a' ha' d => ?_) _
  simp only [bindRow]
  cases hfound : find? a with
  | none => rfl
  | some x =>
    cases hfound' : find? a' with
    | none => rfl
    | some y =>
      exact insert_comm d (hsame x (List.mem_filterMap.2 ⟨a, ha, hfound⟩) y
        (List.mem_filterMap.2 ⟨a', ha', hfound'⟩))

/-- What is bound last stays. -/
theorem get?_field_foldl_concat (hstep : Binds field find? row step) (l : List α) {a : α} {x : τ}
    (ha : find? a = some x) (start : ρ) :
    (field ((l ++ [a]).foldl step start)).get? (row x).1 = some (row x).2 := by
  rw [List.foldl_append, List.foldl_cons, List.foldl_nil, hstep, ha]
  simp [get?_insert, KeyOrder.same_self]

end Binds

end Dict

namespace Load

variable {α β γ : Type}

theorem outcome_foldlM (f : β → α → Load AgentError β) (l : List α) (b : β) :
    (l.foldlM f b).outcome = l.foldl (fun x a => x >>= fun b => (f b a).outcome) (.ok b) := by
  have hfailed : ∀ (l : List α) (e : AgentError),
      l.foldl (fun x a => x >>= fun b => (f b a).outcome) (.error e) = .error e := by
    intro l e
    induction l with
    | nil => rfl
    | cons a l ih => exact ih
  induction l generalizing b with
  | nil => rfl
  | cons a l ih =>
    rw [List.foldlM_cons, outcome_bind, List.foldl_cons]
    show _ = l.foldl _ (f b a).outcome
    cases (f b a).outcome with
    | error e => exact (hfailed l e).symm
    | ok c => exact ih c

/-- Where any two steps can be exchanged, the order of the steps does not matter. -/
theorem outcome_foldlM_perm {f : β → α → Load AgentError β} {l l' : List α} (hp : l.Perm l')
    (hcomm : ∀ a ∈ l, ∀ a' ∈ l, ∀ b, ((f b a).outcome >>= fun c => (f c a').outcome) =
      (f b a').outcome >>= fun c => (f c a).outcome) (b : β) :
    (l.foldlM f b).outcome = (l'.foldlM f b).outcome := by
  rw [outcome_foldlM, outcome_foldlM]
  refine hp.foldl_eq' (fun a ha a' ha' x => ?_) _
  cases x with
  | error e => rfl
  | ok b => exact hcomm a ha a' ha' b

theorem outcome_foldlM_congr {f g : β → α → Load AgentError β} {l : List α}
    (h : ∀ b, ∀ a ∈ l, (f b a).outcome = (g b a).outcome) (b : β) :
    (l.foldlM f b).outcome = (l.foldlM g b).outcome := by
  induction l generalizing b with
  | nil => rfl
  | cons a l ih =>
    rw [List.foldlM_cons, List.foldlM_cons, outcome_bind, outcome_bind, h b a List.mem_cons_self]
    exact congrArg _ (funext fun c => ih (fun b a ha => h b a (List.mem_cons_of_mem _ ha)) c)

/-- A loop that is a loop on a part of what is loaded. -/
theorem outcome_foldlM_map {f : β → α → Load AgentError β} {g : γ → α → Load AgentError γ}
    {part : β → γ}
    (h : ∀ b a, (g (part b) a).outcome = (f b a).outcome.map part) (l : List α) (b : β) :
    (l.foldlM g (part b)).outcome = (l.foldlM f b).outcome.map part := by
  induction l generalizing b with
  | nil => rfl
  | cons a l ih =>
    rw [List.foldlM_cons, List.foldlM_cons, outcome_bind, outcome_bind, h]
    cases (f b a).outcome with
    | error e => rfl
    | ok c => exact ih c

end Load

/-! ## Visits -/

namespace Store.Visit

/-- A given order for one hash. -/
def ofPerm {hash : Fields} {visited : List (String × String)} (hp : hash.toList.Perm visited) :
    Visit where
  order other := if other = hash then visited else other.toList
  perm other := by
    split
    · rename_i hsame
      exact hsame ▸ hp.symm
    · exact .refl _

/-- No two entries have one name. -/
def OnePerName (entries : List (String × String)) : Prop :=
  ∀ a ∈ entries, ∀ b ∈ entries, a.1 = b.1 → a = b

theorem onePerName_order (visit : Visit) (hash : Fields) : OnePerName (visit.order hash) := by
  intro a ha b hb h
  have ha := Dict.mem_toList_iff.1 ((visit.perm hash).mem_iff.1 ha)
  have hb := Dict.mem_toList_iff.1 ((visit.perm hash).mem_iff.1 hb)
  rw [h, hb] at ha
  exact Prod.ext h (Option.some.inj ha).symm

theorem reachable_of_getAll {ns : Namespace} {db : Database} {key : String} {hash : Fields}
    (h : ns.getAll db key = .ok hash) : ns.reachable = true := by
  obtain ⟨_, hgate, -⟩ := exists_eq_ok_of_map h
  exact (Namespace.gate_eq_ok_iff.1 hgate).1

/-- A load that goes on with the fields of a hash, visited in order. -/
def through {β : Type} (visit : Visit) (map : String)
    (rest : List (String × String) → Load AgentError β) (ns : Namespace) : Load AgentError β := do
  let entries ← Load.ofRead (ns.getAll .counters map)
  rest (visit.order entries)

/-- The order of the visit does not matter just when that of the list does not. -/
theorem through_anyOrder_iff {β : Type} (usual : Visit) {map : String}
    {rest : List (String × String) → Load AgentError β} {ns : Namespace}
    {P : List (String × String) → Prop}
    (h : ∀ entries, OnePerName entries → ns.reachable = true →
      ((∀ visited, entries.Perm visited → (rest visited).outcome = (rest entries).outcome) ↔
        ((rest entries).outcome.isOk = true → P entries))) :
    (∀ visit : Visit, (visit.through map rest ns).outcome = (usual.through map rest ns).outcome) ↔
      ((usual.through map rest ns).outcome.isOk = true →
        P (usual.order (ns.hash .counters map))) := by
  cases hread : ns.getAll .counters map with
  | error e =>
    have herror : ∀ visit : Visit, (visit.through map rest ns).outcome = .error (.store e) := by
      intro visit
      rw [through, Load.outcome_bind, hread]
      rfl
    simp [herror, Except.isOk, Except.toBool]
  | ok hash =>
    have hrest : ∀ visit : Visit, (visit.through map rest ns).outcome =
        (rest (visit.order hash)).outcome := by
      intro visit
      rw [through, Load.outcome_bind, hread]
      rfl
    rw [← Namespace.eq_hash_of_getAll hread]
    simp only [hrest]
    refine Iff.trans ?_ (h _ (usual.onePerName_order hash) (reachable_of_getAll hread))
    constructor
    · intro hany visited hp
      have hp := (usual.perm hash).symm.trans hp
      have hvisit := hany (ofPerm hp)
      rwa [show (ofPerm hp).order hash = visited from if_pos rfl] at hvisit
    · exact fun hall visit => hall _ ((usual.perm hash).trans (visit.perm hash).symm)

end Store.Visit

namespace Identity

theorem perm_erase_concat {α : Type} [DecidableEq α] {l : List α} {a : α} (h : a ∈ l) :
    l.Perm (l.erase a ++ [a]) :=
  (List.perm_cons_erase h).trans (List.perm_append_singleton a _).symm

/-! ## Ports -/

namespace PortMaps

/-- The ports of a namespace whose hashes are visited in a given order. -/
def loadBy (visit : Visit) (ns : Namespace) : Load AgentError PortMaps := load (ns.visitedBy visit)

theorem loadBy_eq (visit : Visit) (ns : Namespace) :
    loadBy visit ns = visit.through Schema.portNameMap (ofEntries ns) ns := rfl

theorem loadBy_visit (ns : Namespace) : loadBy ns.visit ns = load ns := rfl

/-- The ports of a namespace do not depend on the order in which its port name map is visited. -/
def AnyOrder (ns : Namespace) : Prop :=
  ∀ visit, (loadBy visit ns).outcome = (load ns).outcome

/-- No index and no identifier is that of two ports. -/
def Unambiguous (ns : Namespace) : Prop :=
  ∀ a ∈ portsIn ns, ∀ b ∈ portsIn ns, a.index = b.index ∨ a.id = b.id → a.name = b.name

/-- The alias of one port, entered among those of others. -/
def readAlias (ns : Namespace) (aliases : Dict String String) (name : String) :
    Load AgentError (Dict String String) := do
  let entry ← Load.ofRead (ns.getAll .appl (Schema.tableKey Schema.portTable ':' name))
  pure (aliases.insert name ((entry.get? Schema.aliasField).getD name))

theorem outcome_foldlM_addAlias (ns : Namespace) (names : List String) (maps : PortMaps) :
    (names.foldlM (addAlias ns) maps).outcome =
      (names.foldlM (readAlias ns) maps.aliasByName).outcome.map
        fun aliases => { maps with aliasByName := aliases } := by
  let entered (aliases : Dict String String) : PortMaps := { maps with aliasByName := aliases }
  have hstep : ∀ aliases name, (addAlias ns (entered aliases) name).outcome =
      (readAlias ns aliases name).outcome.map entered := by
    intro aliases name
    rw [addAlias, readAlias, Load.outcome_bind, Load.outcome_bind]
    cases (Load.ofRead (ns.getAll .appl (Schema.tableKey Schema.portTable ':' name))).outcome <;>
      rfl
  exact Load.outcome_foldlM_map hstep names maps.aliasByName

/-- The entries decide what is entered, and only the names among it decide which aliases are
read. -/
theorem outcome_ofEntries (ns : Namespace) (entries : List (String × String)) :
    (ofEntries ns entries).outcome =
      if (entries.foldl addEntry empty).isEmpty then
        .error (.incoherent Schema.portNameMap (.noPorts ns.name))
      else
        ((entries.foldl addEntry empty).indexByName.keys.foldlM (readAlias ns)
          .empty).outcome.map
            fun aliases => { entries.foldl addEntry empty with aliasByName := aliases } := by
  have haliases := outcome_foldlM_addAlias ns
    (entries.foldl addEntry empty).indexByName.keys (entries.foldl addEntry empty)
  rw [aliasByName_foldl] at haliases
  unfold ofEntries
  by_cases hnone : (entries.foldl addEntry empty).isEmpty = true
  · rw [if_pos hnone, if_pos hnone]
    rfl
  · rw [if_neg hnone, if_neg hnone]
    refine Eq.trans ?_ haliases
    by_cases hdropped : (!(droppedNames entries).isEmpty) = true
    · rw [if_pos hdropped]
      rfl
    · rw [if_neg hdropped]

theorem isEmpty_foldl_addEntry (entries : List (String × String)) (maps : PortMaps) :
    (entries.foldl addEntry maps).isEmpty =
      (maps.isEmpty && (entries.filterMap portOf?).isEmpty) := by
  induction entries generalizing maps with
  | nil => simp
  | cons entry entries ih =>
    rw [List.foldl_cons, ih, addEntry]
    cases hindex : portIndex? entry.1 with
    | none => simp [portOf?, hindex]
    | some index => simp [portOf?, hindex, isEmpty, Dict.isEmpty_insert]

/-- What a step enters in each of the maps. -/
theorem binds_addEntry :
    Dict.Binds indexByName portOf? (fun port => (port.name, port.index)) addEntry ∧
      Dict.Binds nameByIndex portOf? (fun port => (port.index, port.name)) addEntry ∧
      Dict.Binds idByName portOf? (fun port => (port.name, port.id)) addEntry ∧
      Dict.Binds nameById portOf? (fun port => (port.id, port.name)) addEntry := by
  refine ⟨?_, ?_, ?_, ?_⟩ <;>
  · intro maps entry
    simp only [addEntry, portOf?]
    cases portIndex? entry.1 <;> rfl

section Order

variable {ns : Namespace} {entries visited : List (String × String)}

section OnePerName

variable (hone : Visit.OnePerName entries)

include hone

/-- There is one port for each name. -/
theorem eq_of_mem_of_port_name {x y : Port} (hx : x ∈ entries.filterMap portOf?)
    (hy : y ∈ entries.filterMap portOf?) (h : x.name = y.name) : x = y := by
  obtain ⟨a, ha, hx⟩ := List.mem_filterMap.1 hx
  obtain ⟨b, hb, hy⟩ := List.mem_filterMap.1 hy
  obtain ⟨i, -, rfl⟩ := Option.map_eq_some_iff.1 hx
  obtain ⟨j, -, rfl⟩ := Option.map_eq_some_iff.1 hy
  obtain rfl := hone a ha b hb h
  exact Option.some.inj (hx.symm.trans hy)

theorem indexByName_perm (hp : entries.Perm visited) :
    (entries.foldl addEntry empty).indexByName = (visited.foldl addEntry empty).indexByName := by
  refine Dict.field_foldl_perm binds_addEntry.1 hp (fun x hx y hy hkey => ?_) empty
  rw [eq_of_mem_of_port_name hone hx hy hkey]

theorem foldl_addEntry_perm (hp : entries.Perm visited)
    (h : ∀ a ∈ entries.filterMap portOf?, ∀ b ∈ entries.filterMap portOf?,
      a.index = b.index ∨ a.id = b.id → a.name = b.name) :
    entries.foldl addEntry empty = visited.foldl addEntry empty := by
  obtain ⟨-, hindexes, hids, hnames⟩ := binds_addEntry
  have hname := indexByName_perm hone hp
  have hindex := Dict.field_foldl_perm hindexes hp (fun x hx y hy hkey => h x hx y hy (.inl hkey))
    empty
  have hid := Dict.field_foldl_perm hids hp (fun x hx y hy hkey => by
    rw [eq_of_mem_of_port_name hone hx hy hkey]) empty
  have hback := Dict.field_foldl_perm hnames hp (fun x hx y hy hkey => h x hx y hy (.inr hkey))
    empty
  have halias := (aliasByName_foldl entries empty).trans (aliasByName_foldl visited empty).symm
  generalize visited.foldl addEntry empty = maps at *
  generalize entries.foldl addEntry empty = maps' at *
  cases maps
  cases maps'
  simp_all

end OnePerName

/-- A port that is visited last is found by its index and by its identifier. -/
theorem get?_of_last {maps : PortMaps} {others : List (String × String)} {entry : String × String}
    {port : Port} (hport : portOf? entry = some port)
    (h : (ofEntries ns (others ++ [entry])).outcome = .ok maps) :
    maps.nameByIndex.get? port.index = some port.name ∧
      maps.nameById.get? port.id = some port.name := by
  obtain ⟨-, hindexes, -, hnames⟩ := binds_addEntry
  rw [outcome_ofEntries] at h
  split at h
  · cases h
  · obtain ⟨aliases, -, rfl⟩ := exists_eq_ok_of_map h
    exact ⟨Dict.get?_field_foldl_concat hindexes others hport empty,
      Dict.get?_field_foldl_concat hnames others hport empty⟩

theorem ofEntries_perm_iff (ns : Namespace) (hone : Visit.OnePerName entries) :
    (∀ visited, entries.Perm visited →
        (ofEntries ns visited).outcome = (ofEntries ns entries).outcome) ↔
      ((ofEntries ns entries).outcome.isOk = true →
        ∀ a ∈ entries.filterMap portOf?, ∀ b ∈ entries.filterMap portOf?,
          a.index = b.index ∨ a.id = b.id → a.name = b.name) := by
  constructor
  · intro hall hok a ha b hb hshared
    obtain ⟨maps, hmaps⟩ := exists_eq_ok_of_isOk hok
    have hfound : ∀ port ∈ entries.filterMap portOf?,
        maps.nameByIndex.get? port.index = some port.name ∧
          maps.nameById.get? port.id = some port.name := by
      intro port hport
      obtain ⟨entry, hentry, hport⟩ := List.mem_filterMap.1 hport
      exact get?_of_last hport ((hall _ (perm_erase_concat hentry)).trans hmaps)
    obtain ⟨haIndex, haId⟩ := hfound a ha
    obtain ⟨hbIndex, hbId⟩ := hfound b hb
    rcases hshared with hindex | hid
    · rw [hindex] at haIndex
      exact Option.some.inj (haIndex.symm.trans hbIndex)
    · rw [hid] at haId
      exact Option.some.inj (haId.symm.trans hbId)
  · intro h visited hp
    -- whether the load fails depends on the names alone, which are entered in any order
    rw [outcome_ofEntries, isEmpty_foldl_addEntry, (hp.filterMap portOf?).isEmpty_eq.symm,
      ← isEmpty_foldl_addEntry, ← indexByName_perm hone hp]
    rw [outcome_ofEntries] at h ⊢
    by_cases hnone : (entries.foldl addEntry empty).isEmpty = true
    · rw [if_pos hnone, if_pos hnone]
    · rw [if_neg hnone] at h ⊢
      rw [if_neg hnone]
      cases haliases : ((entries.foldl addEntry empty).indexByName.keys.foldlM (readAlias ns)
          .empty : Load AgentError _).outcome with
      | error e => rfl
      | ok aliases =>
        rw [haliases] at h
        rw [foldl_addEntry_perm hone hp (h rfl)]

end Order

theorem anyOrder_iff (ns : Namespace) :
    AnyOrder ns ↔ ((load ns).outcome.isOk = true → Unambiguous ns) := by
  simp only [AnyOrder, ← loadBy_visit, loadBy_eq]
  exact ns.visit.through_anyOrder_iff fun entries hone _ => ofEntries_perm_iff ns hone

end PortMaps

/-! ## VLAN interfaces -/

namespace VlanMaps

/-- The VLAN interfaces of a namespace whose hashes are visited in a given order. -/
def loadBy (visit : Visit) (ns : Namespace) : Load AgentError VlanMaps := load (ns.visitedBy visit)

theorem loadBy_eq (visit : Visit) (ns : Namespace) :
    loadBy visit ns = visit.through Schema.rifNameMap (fun entries => do
      let types ← Load.ofRead (ns.getAll .counters Schema.rifTypeMap)
      pure (ofEntries types entries)) ns := rfl

theorem loadBy_visit (ns : Namespace) : loadBy ns.visit ns = load ns := rfl

/-- The VLAN interfaces of a namespace do not depend on the order in which the names of its router
interfaces are visited. -/
def AnyOrder (ns : Namespace) : Prop :=
  ∀ visit, (loadBy visit ns).outcome = (load ns).outcome

/-- The index of an entry that is a VLAN interface, with the entry. -/
def vlanOf? (types : Fields) (entry : String × String) : Option (UInt32 × (String × String)) :=
  (if types.get? entry.2 = some Schema.rifTypeVlan then vlanIndex? entry.1 else none).map (·, entry)

def vlansIn (ns : Namespace) : List (UInt32 × (String × String)) :=
  (ns.visit.order (ns.hash .counters Schema.rifNameMap)).filterMap
    (vlanOf? (ns.hash .counters Schema.rifTypeMap))

/-- No index is that of two VLAN interfaces. -/
def Unambiguous (ns : Namespace) : Prop :=
  ∀ a ∈ vlansIn ns, ∀ b ∈ vlansIn ns, a.1 = b.1 → a.2.1 = b.2.1

theorem binds_addEntry (types : Fields) :
    Dict.Binds nameByIndex (vlanOf? types) (fun vlan => (vlan.1, vlan.2.1)) (addEntry types) ∧
      Dict.Binds idByIndex (vlanOf? types) (fun vlan => (vlan.1, Schema.bareId vlan.2.2))
        (addEntry types) := by
  refine ⟨?_, ?_⟩ <;>
  · intro maps entry
    simp only [addEntry, vlanOf?]
    split
    · cases vlanIndex? entry.1 <;> rfl
    · rfl

theorem ofEntries_perm_iff (types : Fields) {entries : List (String × String)}
    (hone : Visit.OnePerName entries) :
    (∀ visited, entries.Perm visited → ofEntries types visited = ofEntries types entries) ↔
      ∀ a ∈ entries.filterMap (vlanOf? types), ∀ b ∈ entries.filterMap (vlanOf? types),
        a.1 = b.1 → a.2.1 = b.2.1 := by
  obtain ⟨hnames, hids⟩ := binds_addEntry types
  constructor
  · intro hall a ha b hb hindex
    have hfound : ∀ vlan ∈ entries.filterMap (vlanOf? types),
        (ofEntries types entries).nameByIndex.get? vlan.1 = some vlan.2.1 := by
      intro vlan hvlan
      obtain ⟨entry, hentry, hvlan⟩ := List.mem_filterMap.1 hvlan
      rw [← hall _ (perm_erase_concat hentry)]
      exact Dict.get?_field_foldl_concat hnames _ hvlan empty
    have haName := hfound a ha
    rw [hindex] at haName
    exact Option.some.inj (haName.symm.trans (hfound b hb))
  · intro h visited hp
    have hentry : ∀ a ∈ entries.filterMap (vlanOf? types),
        ∀ b ∈ entries.filterMap (vlanOf? types), a.1 = b.1 → a.2 = b.2 := by
      intro a ha b hb hindex
      have hname := h a ha b hb hindex
      obtain ⟨x, hx, hax⟩ := List.mem_filterMap.1 ha
      obtain ⟨y, hy, hby⟩ := List.mem_filterMap.1 hb
      obtain ⟨i, -, rfl⟩ := Option.map_eq_some_iff.1 hax
      obtain ⟨j, -, rfl⟩ := Option.map_eq_some_iff.1 hby
      exact hone _ hx _ hy hname
    have hname := Dict.field_foldl_perm hnames hp h empty
    have hid := Dict.field_foldl_perm hids hp (fun a ha b hb hindex => by
      rw [hentry a ha b hb hindex]) empty
    rw [ofEntries, ofEntries]
    generalize visited.foldl (addEntry types) empty = maps at *
    generalize entries.foldl (addEntry types) empty = maps' at *
    cases maps
    cases maps'
    simp_all

theorem anyOrder_iff (ns : Namespace) :
    AnyOrder ns ↔ ((load ns).outcome.isOk = true → Unambiguous ns) := by
  simp only [AnyOrder, ← loadBy_visit, loadBy_eq]
  refine ns.visit.through_anyOrder_iff (P := fun entries =>
    ∀ a ∈ entries.filterMap (vlanOf? (ns.hash .counters Schema.rifTypeMap)),
      ∀ b ∈ entries.filterMap (vlanOf? (ns.hash .counters Schema.rifTypeMap)),
        a.1 = b.1 → a.2.1 = b.2.1) fun entries hone _ => ?_
  cases hread : ns.getAll .counters Schema.rifTypeMap with
  | error e =>
    constructor
    · intro _ hok
      cases hok
    · intro _ visited _
      rfl
  | ok types =>
    rw [← Namespace.eq_hash_of_getAll hread, ← ofEntries_perm_iff types hone]
    constructor
    · intro hall _ visited hp
      exact Except.ok.inj (hall visited hp)
    · intro hall visited hp
      exact congrArg Except.ok (hall rfl visited hp)

end VlanMaps

/-! ## Queues -/

namespace QueueMaps

/-- The queues of a namespace whose hashes are visited in a given order. -/
def loadBy (visit : Visit) (ns : Namespace) : Load AgentError QueueMaps := load (ns.visitedBy visit)

theorem loadBy_eq (visit : Visit) (ns : Namespace) :
    loadBy visit ns = visit.through Schema.queueNameMap (ofEntries ns) ns := rfl

theorem loadBy_visit (ns : Namespace) : loadBy ns.visit ns = load ns := rfl

/-- The queues of a namespace do not depend on the order in which its queue name map is visited. -/
def AnyOrder (ns : Namespace) : Prop :=
  ∀ visit, (loadBy visit ns).outcome = (load ns).outcome

/-- No queue has two identifiers. -/
def Unambiguous (ns : Namespace) : Prop :=
  ∀ a ∈ queuesIn ns, ∀ b ∈ queuesIn ns, a.1 = b.1 → a.2 = b.2

/-! ### Numbers of a port -/

theorem insertNumber_comm (n m : UInt32) (l : List UInt32) :
    insertNumber n (insertNumber m l) = insertNumber m (insertNumber n l) := by
  induction l with
  | nil => grind [insertNumber, KeyOrder.asymm, KeyOrder.connex]
  | cons first rest ih =>
    grind [insertNumber, KeyOrder.asymm, KeyOrder.connex, KeyOrder.trans]

theorem get?_addNumbers (lists : Dict UInt32 (List UInt32)) (port j : UInt32) (n : UInt32) :
    (addNumbers lists port [n]).get? j =
      if j = port then some (insertNumber n ((lists.get? j).getD [])) else lists.get? j := by
  rw [addNumbers, Dict.get?_insert]
  by_cases hj : j = port
  · simp [hj]
  · simp [hj, KeyOrder.same_eq_false_iff.2 hj]

theorem addNumbers_comm (lists : Dict UInt32 (List UInt32)) (p q : QueueId) :
    addNumbers (addNumbers lists p.port [p.queue]) q.port [q.queue] =
      addNumbers (addNumbers lists q.port [q.queue]) p.port [p.queue] := by
  apply Dict.ext_get?
  intro j
  simp only [get?_addNumbers]
  by_cases hp : j = p.port
  · by_cases hq : j = q.port
    · simp [← hp, ← hq, insertNumber_comm p.queue q.queue]
    · simp [← hp, hq]
  · simp [hp]

theorem queuesByPort_perm {l l' : List (QueueId × String)} (hp : l.Perm l') (start : QueueMaps) :
    (l.foldl addPair start).queuesByPort = (l'.foldl addPair start).queuesByPort := by
  have hlists : ∀ l : List (QueueId × String), (l.foldl addPair start).queuesByPort =
      l.foldl (fun lists p => addNumbers lists p.1.port [p.1.queue]) start.queuesByPort :=
    fun l => (List.foldl_hom queuesByPort fun _ _ => rfl).symm
  rw [hlists, hlists]
  exact hp.foldl_eq' (fun p _ q _ lists => addNumbers_comm lists p.1 q.1) _

/-! ### What is entered, and whether there are counters -/

def queueOf? (entry : String × String) : Option (QueueId × String) :=
  (queueOfName entry.1).toOption.map (·, entry.2)

theorem binds_addPair : Dict.Binds idByQueue some id addPair := fun _ _ => rfl

theorem foldl_addPair_perm {l l' : List (QueueId × String)} (hp : l.Perm l')
    (h : ∀ a ∈ l, ∀ b ∈ l, a.1 = b.1 → a.2 = b.2) (start : QueueMaps) :
    l.foldl addPair start = l'.foldl addPair start := by
  have hids : (l.foldl addPair start).idByQueue = (l'.foldl addPair start).idByQueue :=
    Dict.field_foldl_perm binds_addPair hp (by simpa using h) start
  have hlists := queuesByPort_perm hp start
  generalize l.foldl addPair start = maps at *
  generalize l'.foldl addPair start = maps' at *
  cases maps
  cases maps'
  simp_all

/-- Notes whether the queue of an entry has counters. -/
def noteEntry (ns : Namespace) (counted : Bool) (entry : String × String) : Load AgentError Bool :=
  match queueOfName entry.1 with
  | .error e => do
    Load.tell e
    pure counted
  | .ok _ => do
    let found ← Load.ofRead (ns.has .counters (Schema.queueCounterKey entry.2))
    pure (counted || found)

section Order

variable {ns : Namespace}

theorem outcome_noteEntry (acc : QueueMaps × Bool) (entry : String × String) :
    (noteEntry ns acc.2 entry).outcome = (addEntry ns acc entry).outcome.map Prod.snd := by
  unfold noteEntry addEntry
  cases queueOfName entry.1 with
  | error e => rfl
  | ok q =>
    simp only [Load.outcome_bind]
    cases (Load.ofRead (ns.has .counters (Schema.queueCounterKey entry.2))).outcome <;> rfl

theorem eq_entered_of_addEntry (acc : QueueMaps × Bool) (entry : String × String)
    (acc' : QueueMaps × Bool) (h : (addEntry ns acc entry).outcome = .ok acc') :
    acc' = entered ns acc entry := by
  unfold addEntry at h
  unfold entered
  cases hq : queueOfName entry.1 with
  | error e =>
    simp only [hq] at h
    exact (Except.ok.inj h).symm
  | ok q =>
    simp only [hq] at h
    obtain ⟨found, hfound, hadded⟩ := Load.outcome_bind_eq_ok_iff.1 h
    obtain ⟨-, -, rfl⟩ := exists_eq_ok_of_map (Load.outcome_ofRead_eq_ok_iff.1 hfound)
    exact (Except.ok.inj hadded).symm

theorem fst_eq_of_outcome {entries : List (String × String)} {maps : QueueMaps} {counted : Bool}
    (h : (entries.foldlM (addEntry ns) (empty, false)).outcome = .ok (maps, counted)) :
    maps = (entries.filterMap queueOf?).foldl addPair empty := by
  have hentered := Load.eq_foldl_of_outcome eq_entered_of_addEntry h
  exact (congrArg Prod.fst hentered).trans (foldl_entered_fst ns entries (empty, false))

/-- A namespace that can be reached has one way to refuse an answer. -/
theorem has_error (hreach : ns.reachable = true) {db : Database} {key : String} {e : StoreError}
    (h : ns.has db key = .error e) : e = .notConfigured db ns.name := by
  have hgate := eq_error_of_map h
  unfold Namespace.gate at hgate
  split at hgate
  · exact (Except.error.inj hgate).symm
  · simp [hreach] at hgate

theorem noteEntry_comm (hreach : ns.reachable = true) (a b : String × String) (counted : Bool) :
    ((noteEntry ns counted a).outcome >>= fun c => (noteEntry ns c b).outcome) =
      (noteEntry ns counted b).outcome >>= fun c => (noteEntry ns c a).outcome := by
  unfold noteEntry
  cases queueOfName a.1 with
  | error e =>
    cases queueOfName b.1 with
    | error e' => rfl
    | ok q =>
      simp only [Load.outcome_bind]
      cases (Load.ofRead (ns.has .counters (Schema.queueCounterKey b.2))).outcome <;> rfl
  | ok p =>
    cases queueOfName b.1 with
    | error e =>
      simp only [Load.outcome_bind]
      cases (Load.ofRead (ns.has .counters (Schema.queueCounterKey a.2))).outcome <;> rfl
    | ok q =>
      simp only [Load.outcome_bind]
      cases ha : ns.has .counters (Schema.queueCounterKey a.2) with
      | error e =>
        cases hb : ns.has .counters (Schema.queueCounterKey b.2) with
        | error e' => rw [has_error hreach ha, has_error hreach hb]
        | ok found => rfl
      | ok found =>
        cases hb : ns.has .counters (Schema.queueCounterKey b.2) with
        | error e => rfl
        | ok found' => exact congrArg Except.ok (Bool.or_right_comm counted found found')

/-- What the loop over the entries finds out of counters does not depend on their order. -/
theorem outcome_snd_perm (hreach : ns.reachable = true) {entries visited : List (String × String)}
    (hp : entries.Perm visited) :
    (entries.foldlM (addEntry ns) (empty, false)).outcome.map Prod.snd =
      (visited.foldlM (addEntry ns) (empty, false)).outcome.map Prod.snd := by
  rw [← Load.outcome_foldlM_map outcome_noteEntry, ← Load.outcome_foldlM_map outcome_noteEntry]
  exact Load.outcome_foldlM_perm hp (fun a _ b _ => noteEntry_comm hreach a b) false

/-- Whether queues are loaded depends on what the loop over the entries finds out of counters. -/
theorem outcome_ofEntries (entries : List (String × String)) :
    (ofEntries ns entries).outcome =
      if entries.isEmpty then .error (.incoherent Schema.queueNameMap (.noQueues ns.name))
      else (entries.foldlM (addEntry ns) (empty, false)).outcome >>= fun found =>
        if found.2 then .ok found.1
        else .error (.incoherent Schema.queueNameMap (.noQueueCounters ns.name)) := by
  unfold ofEntries
  by_cases hnone : entries.isEmpty = true
  · rw [if_pos hnone, if_pos hnone]
    rfl
  · rw [if_neg hnone, if_neg hnone]
    refine (Load.outcome_bind _ _).trans (congrArg _ (funext fun found => ?_))
    obtain ⟨maps, counted⟩ := found
    cases counted <;> rfl

/-- What is loaded are the queues of the names, entered one by one. -/
theorem eq_foldl_of_ofEntries {maps : QueueMaps} {entries : List (String × String)}
    (h : (ofEntries ns entries).outcome = .ok maps) :
    maps = (entries.filterMap queueOf?).foldl addPair empty := by
  rw [outcome_ofEntries] at h
  split at h
  · cases h
  · cases hloop : (entries.foldlM (addEntry ns) (empty, false)).outcome with
    | error e =>
      rw [hloop] at h
      cases h
    | ok found =>
      rw [hloop] at h
      obtain ⟨found, counted⟩ := found
      cases counted with
      | false => cases h
      | true => exact Except.ok.inj h ▸ fst_eq_of_outcome hloop

/-- A queue that is visited last has its identifier. -/
theorem get?_of_last {maps : QueueMaps} {others : List (String × String)} {entry : String × String}
    {p : QueueId × String} (hqueue : queueOf? entry = some p)
    (h : (ofEntries ns (others ++ [entry])).outcome = .ok maps) :
    maps.idByQueue.get? p.1 = some p.2 := by
  rw [eq_foldl_of_ofEntries h, List.filterMap_append, List.filterMap_cons_some hqueue]
  exact Dict.get?_field_foldl_concat binds_addPair _ rfl empty

theorem ofEntries_perm_iff (hreach : ns.reachable = true) (entries : List (String × String)) :
    (∀ visited, entries.Perm visited →
        (ofEntries ns visited).outcome = (ofEntries ns entries).outcome) ↔
      ((ofEntries ns entries).outcome.isOk = true →
        ∀ a ∈ entries.filterMap queueOf?, ∀ b ∈ entries.filterMap queueOf?,
          a.1 = b.1 → a.2 = b.2) := by
  constructor
  · intro hall hok a ha b hb hsame
    obtain ⟨maps, hmaps⟩ := exists_eq_ok_of_isOk hok
    have hfound : ∀ p ∈ entries.filterMap queueOf?, maps.idByQueue.get? p.1 = some p.2 := by
      intro p hp
      obtain ⟨entry, hentry, hqueue⟩ := List.mem_filterMap.1 hp
      exact get?_of_last hqueue ((hall _ (perm_erase_concat hentry)).trans hmaps)
    have haId := hfound a ha
    rw [hsame] at haId
    exact Option.some.inj (haId.symm.trans (hfound b hb))
  · intro h visited hp
    have hcounted := outcome_snd_perm hreach hp
    rw [outcome_ofEntries] at h
    rw [outcome_ofEntries, outcome_ofEntries, ← hp.isEmpty_eq]
    by_cases hnone : entries.isEmpty = true
    · rw [if_pos hnone, if_pos hnone]
    · rw [if_neg hnone] at h ⊢
      rw [if_neg hnone]
      cases hloop : (entries.foldlM (addEntry ns) (empty, false)).outcome with
      | error e =>
        rw [hloop] at hcounted
        rw [eq_error_of_map hcounted.symm]
      | ok found =>
        rw [hloop] at hcounted h
        obtain ⟨found', hloop', hsnd⟩ := exists_eq_ok_of_map hcounted.symm
        rw [hloop']
        obtain ⟨maps, counted⟩ := found
        obtain ⟨maps', counted'⟩ := found'
        obtain rfl : counted' = counted := hsnd
        cases counted' with
        | false => rfl
        | true =>
          rw [fst_eq_of_outcome hloop, fst_eq_of_outcome hloop',
            foldl_addPair_perm (hp.filterMap queueOf?) (h rfl)]

end Order

theorem anyOrder_iff (ns : Namespace) :
    AnyOrder ns ↔ ((load ns).outcome.isOk = true → Unambiguous ns) := by
  simp only [AnyOrder, ← loadBy_visit, loadBy_eq]
  exact ns.visit.through_anyOrder_iff fun entries _ hreach => ofEntries_perm_iff hreach entries

end QueueMaps

/-! ## Reinits -/

section All

variable {n : Namespaces}

/-- Parts that are loaded in any order are merged to the same. -/
theorem outcome_merged_congr {β : Type} {load load' : Namespace → Load AgentError β}
    (merge : β → β → β)
    {members : List Namespace} (h : ∀ ns ∈ members, (load ns).outcome = (load' ns).outcome)
    (start : β) :
    let all (load : Namespace → Load AgentError β) : Load AgentError β :=
      members.foldlM (fun maps ns => do pure (merge maps (← load ns))) start
    (all load).outcome = (all load').outcome :=
  Load.outcome_foldlM_congr (fun maps ns hns => by
    rw [Load.outcome_bind, Load.outcome_bind, h ns hns]) start

/-- The identity of the interfaces, the hashes of every namespace visited in an order of its own. -/
def InterfaceMaps.loadBy (visits : Namespace → Visit) (n : Namespaces) :
    Load AgentError InterfaceMaps := do
  let ports ← n.members.foldlM
    (fun maps ns => do pure (maps.merge (← PortMaps.loadBy (visits ns) ns))) PortMaps.empty
  let lags ← LagMaps.loadAll n
  let vlans ← n.members.foldlM
    (fun maps ns => do pure (maps.merge (← VlanMaps.loadBy (visits ns) ns))) VlanMaps.empty
  let rifs ← RifMaps.loadAll n
  let management ← ManagementMaps.loadHost n
  pure { ports, lags, vlans, rifs, management }

def QueueMaps.loadAllBy (visits : Namespace → Visit) (n : Namespaces) : Load AgentError QueueMaps :=
  n.members.foldlM (fun maps ns => do pure (maps.merge (← loadBy (visits ns) ns))) empty

theorem InterfaceMaps.outcome_loadBy (visits : Namespace → Visit)
    (h : ∀ ns ∈ n.members, PortMaps.AnyOrder ns ∧ VlanMaps.AnyOrder ns) :
    (loadBy visits n).outcome = (load n).outcome := by
  have hports := outcome_merged_congr PortMaps.merge (fun ns hns => (h ns hns).1 (visits ns)) .empty
  have hvlans := outcome_merged_congr VlanMaps.merge (fun ns hns => (h ns hns).2 (visits ns)) .empty
  simp only [loadBy, load, Load.outcome_bind, PortMaps.loadAll, VlanMaps.loadAll]
  rw [hports]
  refine congrArg _ (funext fun ports => congrArg _ (funext fun lags => ?_))
  rw [hvlans]

theorem QueueMaps.outcome_loadAllBy (visits : Namespace → Visit)
    (h : ∀ ns ∈ n.members, QueueMaps.AnyOrder ns) :
    (loadAllBy visits n).outcome = (loadAll n).outcome :=
  outcome_merged_congr QueueMaps.merge (fun ns hns => h ns hns (visits ns)) empty

end All

end Identity

namespace Mib

open Identity

/-- A reinit that finds the known identity leaves the table alone and tells nothing of its own. -/
theorem Interfaces.reinit_of_same {out : Outside} {t : Interfaces}
    (h : (InterfaceMaps.load out.namespaces).outcome = .ok t.identity) :
    t.reinit out = ⟨.done t, (InterfaceMaps.load out.namespaces).events⟩ := by
  unfold reinit Load.events
  unfold Load.outcome at h
  generalize (InterfaceMaps.load out.namespaces).run = found at h ⊢
  obtain ⟨value, events⟩ := found
  obtain rfl : value = .ok t.identity := h
  show (⟨(if t.identity = t.identity then _ else _ : Logged _).value,
    events ++ (if t.identity = t.identity then _ else _ : Logged _).events⟩ : Logged _) = _
  rw [if_pos rfl]
  simp

theorem QueueStats.reinit_of_same {out : Outside} {t : QueueStats}
    (h : (QueueMaps.loadAll out.namespaces).outcome = .ok t.queues) :
    t.reinit out = ⟨.done t, (QueueMaps.loadAll out.namespaces).events⟩ := by
  unfold reinit Load.events
  unfold Load.outcome at h
  generalize (QueueMaps.loadAll out.namespaces).run = found at h ⊢
  obtain ⟨value, events⟩ := found
  obtain rfl : value = .ok t.queues := h
  show (⟨(if t.queues = t.queues then _ else _ : Logged _).value,
    events ++ (if t.queues = t.queues then _ else _ : Logged _).events⟩ : Logged _) = _
  rw [if_pos rfl]
  simp

end Mib

namespace Identity

open Mib

/-- The order in which hashes of names are visited does not matter just when no load that goes
through enters two names, or two identifiers, under one key. Where it does not matter, a reinit of
the interfaces or of the queues finds the identity that was loaded from the same store in whatever
order, and tells nothing but what the load itself tells. -/
theorem anyOrder_iff_unambiguous (ns : Namespace) (out : Outside) (visits : Namespace → Visit) :
    (PortMaps.AnyOrder ns ↔ ((PortMaps.load ns).outcome.isOk = true → PortMaps.Unambiguous ns)) ∧
    (VlanMaps.AnyOrder ns ↔ ((VlanMaps.load ns).outcome.isOk = true → VlanMaps.Unambiguous ns)) ∧
    (QueueMaps.AnyOrder ns ↔
      ((QueueMaps.load ns).outcome.isOk = true → QueueMaps.Unambiguous ns)) ∧
    (∀ t : Interfaces,
      (∀ ns ∈ out.namespaces.members, PortMaps.AnyOrder ns ∧ VlanMaps.AnyOrder ns) →
      (InterfaceMaps.loadBy visits out.namespaces).outcome = .ok t.identity →
        (∀ later, (InterfaceMaps.loadBy later out.namespaces).outcome = .ok t.identity) ∧
        t.reinit out = ⟨.done t, (InterfaceMaps.load out.namespaces).events⟩) ∧
    ∀ t : QueueStats,
      (∀ ns ∈ out.namespaces.members, QueueMaps.AnyOrder ns) →
      (QueueMaps.loadAllBy visits out.namespaces).outcome = .ok t.queues →
        (∀ later, (QueueMaps.loadAllBy later out.namespaces).outcome = .ok t.queues) ∧
        t.reinit out = ⟨.done t, (QueueMaps.loadAll out.namespaces).events⟩ := by
  refine ⟨PortMaps.anyOrder_iff ns, VlanMaps.anyOrder_iff ns, QueueMaps.anyOrder_iff ns,
    fun t hany hload => ?_, fun t hany hload => ?_⟩
  · have hsame := (InterfaceMaps.outcome_loadBy visits hany).symm.trans hload
    exact ⟨fun later => (InterfaceMaps.outcome_loadBy later hany).trans hsame,
      Interfaces.reinit_of_same hsame⟩
  · have hsame := (QueueMaps.outcome_loadAllBy visits hany).symm.trans hload
    exact ⟨fun later => (QueueMaps.outcome_loadAllBy later hany).trans hsame,
      QueueStats.reinit_of_same hsame⟩

/-- A device of one chip with two ports, two VLAN interfaces and two queues of a port. -/
def chipOfTwo (ports vlans queues : String × String) : Namespace :=
  let named := (Namespace.empty "").setFields .counters Schema.portNameMap
    [(ports.1, "oid:0x1"), (ports.2, "oid:0x2")]
  let routed := (named.setFields .counters Schema.rifNameMap
    [(vlans.1, "oid:0x3"), (vlans.2, "oid:0x4")]).setFields .counters Schema.rifTypeMap
      [("oid:0x3", Schema.rifTypeVlan), ("oid:0x4", Schema.rifTypeVlan)]
  (routed.setFields .counters Schema.queueNameMap
    [("Ethernet0:" ++ queues.1, "oid:0x5"), ("Ethernet0:" ++ queues.2, "oid:0x6")]).setFields
      .counters (Schema.queueCounterKey "oid:0x5") [("SAI_QUEUE_STAT_PACKETS", "7")]

def worldOf (ns : Namespace) : Outside where
  namespaces := ⟨ns, []⟩
  neighbours := .ok ""
  platform := ⟨.ok 0, fun _ => .ok false, fun _ => .ok false⟩

/-- Where all keys differ, what was loaded backwards is found again. -/
theorem anyOrder_of_separate_keys :
    let out := worldOf (chipOfTwo ("Ethernet0", "Ethernet4") ("Vlan1", "Vlan2") ("UC0", "UC1"))
    ∃ (t : Interfaces) (q : QueueStats),
      (InterfaceMaps.loadBy (fun _ => .backwards) out.namespaces).outcome = .ok t.identity ∧
      (QueueMaps.loadAllBy (fun _ => .backwards) out.namespaces).outcome = .ok q.queues ∧
      t.identity.ports.nameByIndex.get? 5 = some "Ethernet4" ∧
      q.queues.idByQueue.get? ⟨1, 1⟩ = some "oid:0x6" ∧
      (t.reinit out).value = .done t ∧ (q.reinit out).value = .done q := by
  intro out
  obtain ⟨hports, hvlans, hnames, hinterfaces, hqueues⟩ :=
    anyOrder_iff_unambiguous out.namespaces.host out (fun _ => .backwards)
  have hany : ∀ ns ∈ out.namespaces.members,
      PortMaps.AnyOrder ns ∧ VlanMaps.AnyOrder ns ∧ QueueMaps.AnyOrder ns := by
    intro ns hns
    obtain rfl := List.mem_singleton.1 hns
    refine ⟨hports.2 fun _ => ?_, hvlans.2 fun _ => ?_, hnames.2 fun _ => ?_⟩
    · unfold PortMaps.Unambiguous
      decide +kernel
    · unfold VlanMaps.Unambiguous
      decide +kernel
    · unfold QueueMaps.Unambiguous
      decide +kernel
  have hidentity : (InterfaceMaps.loadBy (fun _ => .backwards) out.namespaces).outcome.map
      (·.ports.nameByIndex.get? 5) = .ok (some "Ethernet4") := by decide +kernel
  have hids : (QueueMaps.loadAllBy (fun _ => .backwards) out.namespaces).outcome.map
      (·.idByQueue.get? ⟨1, 1⟩) = .ok (some "oid:0x6") := by decide +kernel
  obtain ⟨identity, hidentity, hport⟩ := exists_eq_ok_of_map hidentity
  obtain ⟨queues, hids, hqueue⟩ := exists_eq_ok_of_map hids
  let t : Interfaces := ⟨identity, .fresh .empty, .fresh⟩
  let q : QueueStats := ⟨queues, .fresh .empty, .fresh⟩
  obtain ⟨-, ht⟩ := hinterfaces t (fun ns hns => ⟨(hany ns hns).1, (hany ns hns).2.1⟩) hidentity
  obtain ⟨-, hq⟩ := hqueues q (fun ns hns => (hany ns hns).2.2) hids
  exact ⟨t, q, hidentity, hids, hport, hqueue, congrArg Logged.value ht, congrArg Logged.value hq⟩

/-- Where two names share a key, the one that is visited last is found under it, and a reinit tells
of a change that is none. -/
theorem not_anyOrder_of_shared_keys :
    let ns := chipOfTwo ("Ethernet1", "Ethernet01") ("Vlan1", "Vlan01") ("UC0", "MC0")
    ((PortMaps.load ns).outcome.map (·.nameByIndex.get? 2) = .ok (some "Ethernet1") ∧
      (PortMaps.loadBy .backwards ns).outcome.map (·.nameByIndex.get? 2) =
        .ok (some "Ethernet01")) ∧
    ((VlanMaps.load ns).outcome.map (·.nameByIndex.get? 2001) = .ok (some "Vlan1") ∧
      (VlanMaps.loadBy .backwards ns).outcome.map (·.nameByIndex.get? 2001) =
        .ok (some "Vlan01")) ∧
    ((QueueMaps.load ns).outcome.map (·.idByQueue.get? ⟨1, 0⟩) = .ok (some "oid:0x5") ∧
      (QueueMaps.loadBy .backwards ns).outcome.map (·.idByQueue.get? ⟨1, 0⟩) =
        .ok (some "oid:0x6")) ∧
    (∃ t : Interfaces,
      (InterfaceMaps.loadBy (fun _ => .backwards) ⟨ns, []⟩).outcome = .ok t.identity ∧
        .interfacesChanged ∈ (t.reinit (worldOf ns)).events) ∧
    (∃ t : QueueStats, (QueueMaps.loadAllBy (fun _ => .backwards) ⟨ns, []⟩).outcome = .ok t.queues ∧
      .queuesChanged ∈ (t.reinit (worldOf ns)).events) ∧
    (¬ ∀ ns, PortMaps.AnyOrder ns) ∧ (¬ ∀ ns, VlanMaps.AnyOrder ns) ∧
      ¬ ∀ ns, QueueMaps.AnyOrder ns := by
  intro ns
  have hports : (PortMaps.load ns).outcome.map (·.nameByIndex.get? 2) = .ok (some "Ethernet1") ∧
      (PortMaps.loadBy .backwards ns).outcome.map (·.nameByIndex.get? 2) =
        .ok (some "Ethernet01") := by decide +kernel
  have hvlans : (VlanMaps.load ns).outcome.map (·.nameByIndex.get? 2001) = .ok (some "Vlan1") ∧
      (VlanMaps.loadBy .backwards ns).outcome.map (·.nameByIndex.get? 2001) =
        .ok (some "Vlan01") := by decide +kernel
  have hqueues : (QueueMaps.load ns).outcome.map (·.idByQueue.get? ⟨1, 0⟩) = .ok (some "oid:0x5") ∧
      (QueueMaps.loadBy .backwards ns).outcome.map (·.idByQueue.get? ⟨1, 0⟩) =
        .ok (some "oid:0x6") := by decide +kernel
  have htold : (InterfaceMaps.loadBy (fun _ => .backwards) ⟨ns, []⟩).outcome.map (fun maps =>
      decide (.interfacesChanged ∈
        (Interfaces.reinit (worldOf ns) ⟨maps, .fresh .empty, .fresh⟩).events)) = .ok true := by
    decide +kernel
  have htold' : (QueueMaps.loadAllBy (fun _ => .backwards) ⟨ns, []⟩).outcome.map (fun maps =>
      decide (.queuesChanged ∈
        (QueueStats.reinit (worldOf ns) ⟨maps, .fresh .empty, .fresh⟩).events)) = .ok true := by
    decide +kernel
  obtain ⟨identity, hidentity, htold⟩ := exists_eq_ok_of_map htold
  obtain ⟨queues, hids, htold'⟩ := exists_eq_ok_of_map htold'
  refine ⟨hports, hvlans, hqueues, ⟨_, hidentity, of_decide_eq_true htold⟩,
    ⟨_, hids, of_decide_eq_true htold'⟩, fun hall => ?_, fun hall => ?_, fun hall => ?_⟩
  · have hsame := hports.2
    rw [hall ns .backwards, hports.1] at hsame
    exact absurd hsame (by decide)
  · have hsame := hvlans.2
    rw [hall ns .backwards, hvlans.1] at hsame
    exact absurd hsame (by decide)
  · have hsame := hqueues.2
    rw [hall ns .backwards, hqueues.1] at hsame
    exact absurd hsame (by decide)

end Identity

end SwitchMib
