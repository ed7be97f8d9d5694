import SwitchMib.Proofs.Identity.Visits

/-!
# The five maps of the ports

The ports of the members are entered one by one into five maps, each by its own key, and what the
members give is merged map by map. Names, indexes and identifiers may be those of several ports.
Since the index of a port follows from its name, the maps stay in step all the same.

* `PortMaps.Named`: a port name of a namespace with its index.
* `PortMaps.InStep`: the maps have the same names and lead back to them. `InStep.addEntry` and
  `InStep.merge`: what one entry and one merge keep.
* `PortMaps.loadAllBy`: the ports of all members, the hashes of each visited in an order of its own.
* `PortMaps.loadAllBy_inStep`: the maps of all members.
-/

namespace SwitchMib
set_option autoImplicit false

open Store

theorem Dict.mem_keys_merge {κ ν : Type} [KeyOrder κ] {a b : Dict κ ν} {k : κ} :
    k ∈ (a.merge b).keys ↔ k ∈ a.keys ∨ k ∈ b.keys := by
  rw [mem_keys_iff, get?_merge, Option.isSome_or, Bool.or_eq_true, ← mem_keys_iff,
    ← mem_keys_iff, or_comm]

theorem Dict.isEmpty_eq_false_iff {κ ν : Type} [KeyOrder κ] {d : Dict κ ν} :
    d.isEmpty = false ↔ ∃ k, k ∈ d.keys := by
  rw [isEmpty, List.isEmpty_eq_false_iff_exists_mem, keys]
  simp

theorem Store.Namespaces.members_ne_nil (n : Namespaces) : n.members ≠ [] := by
  obtain ⟨host, chips⟩ := n
  cases chips <;> exact List.cons_ne_nil _ _

namespace Identity.PortMaps

/-- The port name map of a namespace has the name, which is that of a front-panel or a backplane
port with the index. -/
def Named (ns : Namespace) (name : String) (i : UInt32) : Prop :=
  name ∈ (ns.hash .counters Schema.portNameMap).keys ∧
    (Net.IfName.classify name = some (.ethernet, i) ∨
      Net.IfName.classify name = some (.backplane, i))

theorem portIndex?_eq_some_iff {name : String} {i : UInt32} :
    portIndex? name = some i ↔ Net.IfName.classify name = some (.ethernet, i) ∨
      Net.IfName.classify name = some (.backplane, i) := by
  unfold portIndex?
  cases hclass : Net.IfName.classify name with
  | none => simp
  | some found =>
    obtain ⟨family, j⟩ := found
    cases family <;> simp [Net.IfFamily.isPort]

/-! ## Maps in step -/

/-- The ports among the names are known by name with the index of the name, and just these have an
identifier; every index leads to a port with it, and every identifier to a port. -/
structure InStep (names : List String) (maps : PortMaps) : Prop where
  index_iff : ∀ name i,
    maps.indexByName.get? name = some i ↔ name ∈ names ∧ portIndex? name = some i
  id_iff : ∀ name, name ∈ maps.idByName.keys ↔ name ∈ maps.indexByName.keys
  index_of_name : ∀ i name, maps.nameByIndex.get? i = some name →
    maps.indexByName.get? name = some i
  name_of_index : ∀ name i, maps.indexByName.get? name = some i → i ∈ maps.nameByIndex.keys
  name_of_id : ∀ id name, maps.nameById.get? id = some name → name ∈ maps.indexByName.keys

theorem inStep_empty : InStep [] empty := by
  constructor <;> simp [empty, Dict.mem_keys_iff]

namespace InStep

variable {names others : List String} {maps maps' : PortMaps}

theorem of_mem_iff (h : InStep names maps) (hnames : ∀ name, name ∈ names ↔ name ∈ others) :
    InStep others maps where
  __ := h
  index_iff name i := by rw [h.index_iff, hnames]

theorem withAliases (h : InStep names maps) (aliases : Dict String String) :
    InStep names { maps with aliasByName := aliases } := ⟨h.1, h.2, h.3, h.4, h.5⟩

/-- What is entered for a name leads to the name and back, whatever it replaces: the index of a
name is always the same. -/
theorem addEntry (h : InStep names maps) (entry : String × String) :
    InStep (names ++ [entry.1]) (maps.addEntry entry) := by
  unfold PortMaps.addEntry
  cases hport : portIndex? entry.1 with
  | none =>
    refine { h with index_iff := fun name i => ?_ }
    rw [h.index_iff, List.mem_append, List.mem_singleton]
    refine and_congr_left fun hname => ⟨.inl, fun hmem => hmem.resolve_right ?_⟩
    rintro rfl
    rw [hport] at hname
    cases hname
  | some index =>
    have hindex : ∀ name i, (maps.indexByName.insert entry.1 index).get? name = some i ↔
        name ∈ names ++ [entry.1] ∧ portIndex? name = some i := by
      intro name i
      simp only [Dict.get?_insert, KeyOrder.same_iff, List.mem_append, List.mem_singleton]
      by_cases hname : name = entry.1
      · simp [hname, hport]
      · simp [hname, h.index_iff]
    refine ⟨hindex, fun name => ?_, fun i name hget => ?_, fun name i hget => ?_,
      fun id name hget => ?_⟩
    · simp only [Dict.mem_keys_insert, h.id_iff]
    · simp only [Dict.get?_insert, KeyOrder.same_iff] at hget
      split at hget
      · obtain rfl := Option.some.inj hget
        exact (hindex _ _).2 ⟨by simp, by simp [*]⟩
      · obtain ⟨hname, hi⟩ := (h.index_iff _ _).1 (h.index_of_name _ _ hget)
        exact (hindex _ _).2 ⟨List.mem_append_left _ hname, hi⟩
    · simp only [Dict.get?_insert, KeyOrder.same_iff] at hget
      split at hget
      · exact Dict.mem_keys_insert.2 (.inl (Option.some.inj hget).symm)
      · exact Dict.mem_keys_insert.2 (.inr (h.name_of_index _ _ hget))
    · simp only [Dict.get?_insert, KeyOrder.same_iff] at hget
      split at hget
      · exact Dict.mem_keys_insert.2 (.inl (Option.some.inj hget).symm)
      · exact Dict.mem_keys_insert.2 (.inr (h.name_of_id _ _ hget))

theorem foldl_addEntry (h : InStep names maps) (entries : List (String × String)) :
    InStep (names ++ entries.map Prod.fst) (entries.foldl PortMaps.addEntry maps) := by
  induction entries generalizing names maps with
  | nil => simpa using h
  | cons entry entries ih =>
    have hrest := ih (h.addEntry entry)
    rwa [List.append_assoc] at hrest

/-- What is replaced by a merge is replaced by a port with the same index, so the rest still leads
to ports. -/
theorem merge (h : InStep names maps) (h' : InStep others maps') :
    InStep (names ++ others) (maps.merge maps') := by
  have hindex : ∀ name i, (maps.merge maps').indexByName.get? name = some i ↔
      name ∈ names ++ others ∧ portIndex? name = some i := by
    intro name i
    rw [PortMaps.merge, Dict.get?_merge, Option.or_eq_some_iff, h.index_iff, h'.index_iff,
      List.mem_append]
    constructor
    · rintro (⟨hname, hi⟩ | ⟨-, hname, hi⟩)
      · exact ⟨.inr hname, hi⟩
      · exact ⟨.inl hname, hi⟩
    · rintro ⟨hname, hi⟩
      by_cases hother : name ∈ others
      · exact .inl ⟨hother, hi⟩
      · refine .inr ⟨Option.eq_none_iff_forall_ne_some.2 fun j hj => ?_,
          hname.resolve_right hother, hi⟩
        exact hother ((h'.index_iff name j).1 hj).1
  have hleft : ∀ {name i}, maps.indexByName.get? name = some i →
      (maps.merge maps').indexByName.get? name = some i := by
    intro name i hget
    obtain ⟨hname, hi⟩ := (h.index_iff name i).1 hget
    exact (hindex name i).2 ⟨List.mem_append_left _ hname, hi⟩
  have hright : ∀ {name i}, maps'.indexByName.get? name = some i →
      (maps.merge maps').indexByName.get? name = some i := by
    intro name i hget
    obtain ⟨hname, hi⟩ := (h'.index_iff name i).1 hget
    exact (hindex name i).2 ⟨List.mem_append_right _ hname, hi⟩
  refine ⟨hindex, fun name => ?_, fun i name hget => ?_, fun name i hget => ?_,
    fun id name hget => ?_⟩
  · simp only [PortMaps.merge, Dict.mem_keys_merge, h.id_iff, h'.id_iff]
  · rw [PortMaps.merge, Dict.get?_merge, Option.or_eq_some_iff] at hget
    rcases hget with hget | ⟨-, hget⟩
    · exact hright (h'.index_of_name i name hget)
    · exact hleft (h.index_of_name i name hget)
  · rw [PortMaps.merge, Dict.get?_merge, Option.or_eq_some_iff] at hget
    rcases hget with hget | ⟨-, hget⟩
    · exact Dict.mem_keys_merge.2 (.inr (h'.name_of_index name i hget))
    · exact Dict.mem_keys_merge.2 (.inl (h.name_of_index name i hget))
  · rw [PortMaps.merge, Dict.get?_merge, Option.or_eq_some_iff] at hget
    rcases hget with hget | ⟨-, hget⟩
    · exact Dict.mem_keys_merge.2 (.inr (h'.name_of_id id name hget))
    · exact Dict.mem_keys_merge.2 (.inl (h.name_of_id id name hget))

theorem foldl_merge {members : List Namespace} {part : Namespace → PortMaps}
    {namesOf : Namespace → List String}
    (hparts : ∀ ns ∈ members, InStep (namesOf ns) (part ns)) (h : InStep names maps) :
    InStep (names ++ members.flatMap namesOf) ((members.map part).foldl PortMaps.merge maps) := by
  induction members generalizing names maps with
  | nil => simpa using h
  | cons ns members ih =>
    obtain ⟨hns, hmembers⟩ := List.forall_mem_cons.1 hparts
    have hrest := ih hmembers (h.merge hns)
    rwa [List.append_assoc] at hrest

end InStep

/-- Just the ports with an index have an alias. -/
def Aliased (maps : PortMaps) : Prop :=
  ∀ name, name ∈ maps.aliasByName.keys ↔ name ∈ maps.indexByName.keys

theorem Aliased.merge {a b : PortMaps} (ha : Aliased a) (hb : Aliased b) : Aliased (a.merge b) := by
  intro name
  simp only [PortMaps.merge, Dict.mem_keys_merge, ha name, hb name]

/-! ## One namespace -/

theorem mem_keys_of_readAlias {ns : Namespace} {names : List String}
    {aliases aliases' : Dict String String}
    (h : (names.foldlM (readAlias ns) aliases).outcome = .ok aliases') (name : String) :
    name ∈ aliases'.keys ↔ name ∈ names ∨ name ∈ aliases.keys := by
  induction names generalizing aliases with
  | nil =>
    obtain rfl := Except.ok.inj h
    simp
  | cons first names ih =>
    rw [List.foldlM_cons, Load.outcome_bind_eq_ok_iff] at h
    obtain ⟨added, hadded, hrest⟩ := h
    obtain ⟨entry, -, hadded⟩ := Load.outcome_bind_eq_ok_iff.1 hadded
    obtain rfl := Except.ok.inj hadded
    rw [ih hrest, Dict.mem_keys_insert, List.mem_cons, or_assoc, or_left_comm]

section One

variable {visit : Visit} {ns : Namespace} {maps : PortMaps}

/-- What is loaded are the entered ports, of which there is one at least, with their aliases. -/
theorem loadBy_eq_ok (h : (loadBy visit ns).outcome = .ok maps) :
    ∃ visited aliases, (ns.hash .counters Schema.portNameMap).toList.Perm visited ∧
      maps = { visited.foldl addEntry empty with aliasByName := aliases } ∧
      maps.isEmpty = false ∧ Aliased maps := by
  obtain ⟨hash, hread, hrest⟩ := Load.outcome_bind_eq_ok_iff.1 h
  obtain rfl := Namespace.eq_hash_of_getAll (Load.outcome_ofRead_eq_ok_iff.1 hread)
  rw [outcome_ofEntries] at hrest
  split at hrest
  · cases hrest
  · rename_i hsome
    obtain ⟨aliases, haliases, rfl⟩ := exists_eq_ok_of_map hrest
    refine ⟨_, aliases, (visit.perm _).symm, rfl, Bool.eq_false_iff.2 hsome, fun name => ?_⟩
    rw [mem_keys_of_readAlias haliases]
    exact or_iff_left List.not_mem_nil

theorem inStep_of_loadBy (h : (loadBy visit ns).outcome = .ok maps) :
    InStep (ns.hash .counters Schema.portNameMap).keys maps := by
  obtain ⟨visited, aliases, hperm, rfl, -, -⟩ := loadBy_eq_ok h
  have hnames : ∀ name, name ∈ [] ++ visited.map Prod.fst ↔
      name ∈ (ns.hash .counters Schema.portNameMap).keys :=
    fun name => (hperm.symm.map Prod.fst).mem_iff
  exact ((inStep_empty.foldl_addEntry visited).of_mem_iff hnames).withAliases aliases

/-- A namespace without a port is never loaded. -/
theorem exists_named_of_loadBy (h : (loadBy visit ns).outcome = .ok maps) :
    ∃ name i, Named ns name i := by
  obtain ⟨-, -, -, -, hsome, -⟩ := loadBy_eq_ok h
  have hstep := inStep_of_loadBy h
  obtain ⟨i, hi⟩ := Dict.isEmpty_eq_false_iff.1 hsome
  obtain ⟨name, hname⟩ := Option.isSome_iff_exists.1 (Dict.mem_keys_iff.1 hi)
  obtain ⟨hmem, hindex⟩ := (hstep.index_iff name i).1 (hstep.index_of_name i name hname)
  exact ⟨name, i, hmem, portIndex?_eq_some_iff.1 hindex⟩

end One

/-! ## All namespaces -/

def loadAllBy (visits : Namespace → Visit) (n : Namespaces) : Load AgentError PortMaps :=
  n.members.foldlM (fun maps ns => do pure (maps.merge (← loadBy (visits ns) ns))) empty

theorem loadAllBy_visit (n : Namespaces) : loadAllBy Namespace.visit n = loadAll n := rfl

section All

variable {visits : Namespace → Visit} {n : Namespaces} {maps : PortMaps}

theorem inStep_of_loadAllBy (h : (loadAllBy visits n).outcome = .ok maps) :
    InStep (n.members.flatMap fun ns => (ns.hash .counters Schema.portNameMap).keys) maps := by
  obtain ⟨part, hpart, rfl⟩ := Load.exists_merged_of_outcome h
  exact inStep_empty.foldl_merge fun ns hns => inStep_of_loadBy (hpart ns hns)

theorem aliased_of_loadAllBy (h : (loadAllBy visits n).outcome = .ok maps) : Aliased maps := by
  refine Load.foldlM_induction (P := Aliased) (fun name => Iff.rfl) ?_ h
  intro merged hmerged ns _ next hnext
  obtain ⟨part, hpart, hmerge⟩ := Load.outcome_bind_eq_ok_iff.1 hnext
  obtain ⟨-, -, -, -, -, haliased⟩ := loadBy_eq_ok hpart
  rw [← Except.ok.inj hmerge]
  exact hmerged.merge haliased

theorem exists_named_of_loadAllBy (h : (loadAllBy visits n).outcome = .ok maps) {ns : Namespace}
    (hns : ns ∈ n.members) : ∃ name i, Named ns name i := by
  obtain ⟨part, hpart, -⟩ := Load.exists_merged_of_outcome h
  exact exists_named_of_loadBy (hpart ns hns)

/-- Whatever the order in which hashes are visited, and whatever names, indexes and identifiers the
namespaces share, the ports of a device that can be loaded are in step: there is one at least, in
every namespace; the ports with an index, an identifier and an alias are the port names of the
namespaces, each with the index of its name; and every index and identifier leads to a port. So the
identity finds every name under the index that the name itself tells. -/
theorem loadAllBy_inStep (h : (loadAllBy visits n).outcome = .ok maps) :
    maps.isEmpty = false ∧
    (∀ name i, maps.indexByName.get? name = some i ↔ ∃ ns ∈ n.members, Named ns name i) ∧
    (∀ name, name ∈ maps.idByName.keys ↔ name ∈ maps.indexByName.keys) ∧
    (∀ name, name ∈ maps.aliasByName.keys ↔ name ∈ maps.indexByName.keys) ∧
    (∀ i name, maps.nameByIndex.get? i = some name → maps.indexByName.get? name = some i) ∧
    (∀ name i, maps.indexByName.get? name = some i → i ∈ maps.nameByIndex.keys) ∧
    (∀ id name, maps.nameById.get? id = some name → name ∈ maps.indexByName.keys) ∧
    (∀ identity : InterfaceMaps, identity.ports = maps →
      ∀ name, identity.indexOf name = Net.IfName.index? name) ∧
    ∀ ns ∈ n.members, ∃ name i, Named ns name i := by
  have hstep := inStep_of_loadAllBy h
  have hnamed : ∀ name i, maps.indexByName.get? name = some i ↔
      ∃ ns ∈ n.members, Named ns name i := by
    intro name i
    rw [hstep.index_iff, List.mem_flatMap, portIndex?_eq_some_iff]
    simp only [Named, ← and_assoc, exists_and_right]
  refine ⟨?_, hnamed, hstep.id_iff, aliased_of_loadAllBy h, hstep.index_of_name,
    hstep.name_of_index, hstep.name_of_id, ?_, fun ns hns => exists_named_of_loadAllBy h hns⟩
  · obtain ⟨ns, hns⟩ := List.exists_mem_of_ne_nil _ n.members_ne_nil
    obtain ⟨name, i, hport⟩ := exists_named_of_loadAllBy h hns
    have hindex := (hnamed name i).2 ⟨ns, hns, hport⟩
    exact Dict.isEmpty_eq_false_iff.2 ⟨i, hstep.name_of_index name i hindex⟩
  · rintro identity rfl name
    rw [InterfaceMaps.indexOf]
    cases hindex : identity.ports.indexByName.get? name with
    | none => rfl
    | some i =>
      have hport := ((hstep.index_iff name i).1 hindex).2
      exact (index?_of_portIndex? hport).symm

end All

/-- A chip with a port name map. -/
def chipOfPorts (name : String) (ports : List (String × String)) : Namespace :=
  (Namespace.empty name).setFields .counters Schema.portNameMap ports

/-- Two chips that share a name, an index and an identifier, one of which also has two ports with
one index and a name that is no port name. -/
theorem loadAllBy_inStep_of_shared_keys :
    let n : Namespaces := ⟨.empty "", [
      chipOfPorts "asic0" [("Ethernet01", "oid:0x1"), ("Ethernet1", "oid:0x2"),
        ("Ethernet8999", "oid:0x3"), ("Loopback0", "oid:0x4")],
      chipOfPorts "asic1" [("Ethernet-BP0", "oid:0x3"), ("Ethernet1", "oid:0x1")]]⟩
    ∃ maps, (loadAllBy (fun _ => .backwards) n).outcome = .ok maps ∧
      maps.nameByIndex.toList = [(2, "Ethernet1"), (9000, "Ethernet-BP0")] ∧
      maps.nameById.toList = [("1", "Ethernet1"), ("2", "Ethernet1"), ("3", "Ethernet-BP0")] ∧
      maps.indexByName.keys = ["Ethernet-BP0", "Ethernet01", "Ethernet1", "Ethernet8999"] ∧
      (∃ ns ∈ n.members, Named ns "Ethernet8999" 9000) ∧
      (∀ i name, maps.nameByIndex.get? i = some name → maps.indexByName.get? name = some i) ∧
      ∀ id name, maps.nameById.get? id = some name → name ∈ maps.indexByName.keys := by
  intro n
  have hloaded : (loadAllBy (fun _ => .backwards) n).outcome.map (fun maps =>
      (maps.nameByIndex.toList, maps.nameById.toList, maps.indexByName.keys,
        maps.indexByName.get? "Ethernet8999")) =
      .ok ([(2, "Ethernet1"), (9000, "Ethernet-BP0")],
        [("1", "Ethernet1"), ("2", "Ethernet1"), ("3", "Ethernet-BP0")],
        ["Ethernet-BP0", "Ethernet01", "Ethernet1", "Ethernet8999"], some 9000) := by
    decide +kernel
  obtain ⟨maps, hmaps, hshown⟩ := exists_eq_ok_of_map hloaded
  obtain ⟨hindexes, hids, hnames, hport⟩ : _ ∧ _ ∧ _ ∧ _ := by simpa using hshown
  obtain ⟨-, hnamed, -, -, hindex, -, hid, -⟩ := loadAllBy_inStep hmaps
  exact ⟨maps, hmaps, hindexes, hids, hnames, (hnamed _ _).1 hport, hindex, hid⟩

end Identity.PortMaps

end SwitchMib
