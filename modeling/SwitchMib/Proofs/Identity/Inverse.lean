import SwitchMib.Identity.Ports
import SwitchMib.Identity.Rifs
import SwitchMib.Proofs.Store.Reads

/-!
# Identifiers both ways

Ports are known by name and by identifier, router interfaces by their own identifier and by that of
their port. Both directions are filled from the same pairs, but each keeps the last pair of its own
key, so a pair that has been replaced one way can live on the other way.

* `RebindsBoth`, `Bindings.last?_inverse_iff`: when two maps of one list of pairs agree.
* `PortMaps.get?_loadAll`: the maps of the ports of all namespaces, each by its own key.
* `PortMaps.bindings`, `RifMaps.bindings`: the pairs of all namespaces.
* `inverse_iff_rebindsBoth`: when the loaded maps agree both ways.
-/

namespace SwitchMib
set_option autoImplicit false

/-! ## Two maps of one list of pairs -/

/-- A later pair that replaces a pair by its first component goes with one that replaces it by its
second. -/
def RebindsBoth {α β : Type} (pairs : List (α × β)) : Prop :=
  ∀ earlier a b later, pairs = earlier ++ (a, b) :: later → a ∈ later.map Prod.fst →
    b ∈ later.map Prod.snd

section Pairs

variable {α β : Type}

theorem map_fst_swap (l : List (α × β)) : (l.map Prod.swap).map Prod.fst = l.map Prod.snd := by
  rw [List.map_map]
  rfl

theorem rebindsBoth_of_nodup {pairs : List (α × β)} (h : (pairs.map Prod.fst).Nodup) :
    RebindsBoth pairs := by
  rintro earlier a b later rfl ha
  rw [List.map_append, List.map_cons] at h
  have hrest := (List.nodup_append.1 h).2.1
  exact absurd ha (List.nodup_cons.1 hrest).1

/-- What is found backwards is found forwards just when every replacement is made both ways. -/
theorem Bindings.last?_inverse_iff [KeyOrder α] [KeyOrder β] {pairs : List (α × β)} :
    (∀ b a, Bindings.last? b (pairs.map Prod.swap) = some a → Bindings.last? a pairs = some b) ↔
      RebindsBoth pairs := by
  constructor
  · intro hinverse earlier a b later hpairs ha
    by_contra hb
    have hback : Bindings.last? b (pairs.map Prod.swap) = some a := by
      refine Bindings.last?_eq_some_iff.2 ⟨earlier.map Prod.swap, later.map Prod.swap, ?_, ?_⟩
      · simp [hpairs]
      · rwa [map_fst_swap]
    have hforth := hinverse b a hback
    -- the pair that replaces `(a, b)` the one way is `(a, b)` itself
    obtain ⟨b', hlater⟩ : ∃ b', Bindings.last? a later = some b' := by
      rw [← Option.ne_none_iff_exists', ne_eq, Bindings.last?_eq_none_iff, not_not]
      exact ha
    rw [hpairs, Bindings.last?_append, Bindings.last?, hlater, Option.some_or,
      Option.some_or] at hforth
    obtain rfl := Option.some.inj hforth
    obtain ⟨before, after, rfl, -⟩ := Bindings.last?_eq_some_iff.1 hlater
    simp at hb
  · intro hboth b a hback
    obtain ⟨earlier, later, hswapped, hb⟩ := Bindings.last?_eq_some_iff.1 hback
    have hpairs : pairs = earlier.map Prod.swap ++ (a, b) :: later.map Prod.swap := by
      have h := congrArg (List.map Prod.swap) hswapped
      simpa using h
    refine Bindings.last?_eq_some_iff.2 ⟨_, _, hpairs, fun ha => hb ?_⟩
    have hlater := hboth _ _ _ _ hpairs ha
    rwa [List.map_map] at hlater

end Pairs

namespace Identity

open Store

/-! ## Ports -/

/-- A port as one namespace has it. -/
structure Port where
  index : UInt32
  name : String
  id : String

namespace PortMaps

/-- The port of an entry of the port name map. -/
def portOf? (entry : String × String) : Option Port :=
  (portIndex? entry.1).map fun index => ⟨index, entry.1, Schema.bareId entry.2⟩

/-- The ports of a namespace, in the order in which they are visited. -/
def portsIn (ns : Namespace) : List Port :=
  (ns.visit.order (ns.hash .counters Schema.portNameMap)).filterMap portOf?

/-- The ports of a namespace without their aliases. -/
def entered (ns : Namespace) : PortMaps :=
  (ns.visit.order (ns.hash .counters Schema.portNameMap)).foldl addEntry empty

theorem mem_portsIn_iff {ns : Namespace} {port : Port} :
    port ∈ portsIn ns ↔
      ∃ entry ∈ (ns.hash .counters Schema.portNameMap).toList, portOf? entry = some port := by
  rw [portsIn, List.mem_filterMap]
  simp only [(ns.visit.perm _).mem_iff]

theorem aliasByName_foldl (entries : List (String × String)) (maps : PortMaps) :
    (entries.foldl addEntry maps).aliasByName = maps.aliasByName := by
  induction entries generalizing maps with
  | nil => rfl
  | cons entry entries ih =>
    rw [List.foldl_cons, ih, addEntry]
    cases portIndex? entry.1 <;> rfl

/-- A load enters the ports one by one and then finds their aliases. -/
theorem load_eq_ok {ns : Namespace} {maps : PortMaps} (h : (load ns).outcome = .ok maps) :
    ∃ aliases, maps = { entered ns with aliasByName := aliases } ∧
      ∀ name ∈ aliases.keys, name ∈ (entered ns).indexByName.keys := by
  obtain ⟨entries, hread, hrest⟩ := Load.outcome_bind_eq_ok_iff.1 h
  obtain rfl := Namespace.eq_hash_of_getAll (Load.outcome_ofRead_eq_ok_iff.1 hread)
  rw [entered]
  generalize ns.visit.order (ns.hash .counters Schema.portNameMap) = entries at hrest ⊢
  have hloop : ((entries.foldl addEntry empty).indexByName.keys.foldlM (addAlias ns)
      (entries.foldl addEntry empty) : Load AgentError PortMaps).outcome = .ok maps := by
    unfold ofEntries at hrest
    by_cases hnone : (entries.foldl addEntry empty).isEmpty = true
    · rw [if_pos hnone] at hrest
      cases hrest
    · rw [if_neg hnone] at hrest
      by_cases hdropped : (!(droppedNames entries).isEmpty) = true
      · rw [if_pos hdropped] at hrest
        exact hrest
      · rw [if_neg hdropped] at hrest
        exact hrest
  refine Load.foldlM_induction (P := fun maps => ∃ aliases, maps =
    { entries.foldl addEntry empty with aliasByName := aliases } ∧
      ∀ name ∈ aliases.keys, name ∈ (entries.foldl addEntry empty).indexByName.keys)
    ⟨_, rfl, ?_⟩ ?_ hloop
  · rw [aliasByName_foldl]
    exact fun name hname => absurd hname List.not_mem_nil
  · rintro _ ⟨aliases, rfl, hnames⟩ name hname maps hadd
    obtain ⟨entry, -, hmaps⟩ := Load.outcome_bind_eq_ok_iff.1 hadd
    refine ⟨_, (Except.ok.inj hmaps).symm, fun other hother => ?_⟩
    rcases Dict.mem_keys_insert.1 hother with rfl | hother
    · exact hname
    · exact hnames other hother

theorem index?_of_portIndex? {name : String} {index : UInt32} (h : portIndex? name = some index) :
    Net.IfName.index? name = some index := by
  unfold portIndex? at h
  rw [Net.IfName.index?]
  cases hclass : Net.IfName.classify name with
  | none =>
    rw [hclass] at h
    cases h
  | some found =>
    obtain ⟨family, index'⟩ := found
    simp only [hclass] at h
    split at h
    · exact h
    · cases h

theorem index?_of_mem_portsIn {ns : Namespace} {port : Port} (h : port ∈ portsIn ns) :
    Net.IfName.index? port.name = some port.index := by
  obtain ⟨entry, -, hport⟩ := mem_portsIn_iff.1 h
  obtain ⟨index, hindex, rfl⟩ := Option.map_eq_some_iff.1 hport
  exact index?_of_portIndex? hindex

section All

variable {κ ν : Type} [KeyOrder κ] {field : PortMaps → Dict κ ν} {row : Port → κ × ν}
  {n : Namespaces} {maps : PortMaps}

/-- Each map of a namespace but that of the aliases has a row for every port. -/
theorem get?_load
    (hadd : ∀ maps entry, field (addEntry maps entry) = match (portOf? entry).map row with
      | some (k, v) => (field maps).insert k v
      | none => field maps)
    (halias : ∀ maps aliases, field { maps with aliasByName := aliases } = field maps)
    (hempty : field empty = Dict.empty) {ns : Namespace} (h : (load ns).outcome = .ok maps)
    (k : κ) : (field maps).get? k = Bindings.last? k ((portsIn ns).map row) := by
  obtain ⟨aliases, rfl, -⟩ := load_eq_ok h
  rw [halias, entered, Dict.get?_foldl_insert field (fun entry => (portOf? entry).map row) hadd,
    hempty, portsIn, List.map_filterMap]
  exact Option.or_none

/-- The last port of all namespaces with a key counts. -/
theorem get?_loadAll (hmerge : ∀ a b, field (merge a b) = (field a).merge (field b))
    (hadd : ∀ maps entry, field (addEntry maps entry) = match (portOf? entry).map row with
      | some (k, v) => (field maps).insert k v
      | none => field maps)
    (halias : ∀ maps aliases, field { maps with aliasByName := aliases } = field maps)
    (hempty : field empty = Dict.empty) (h : (loadAll n).outcome = .ok maps) (k : κ) :
    (field maps).get? k = Bindings.last? k ((n.members.flatMap portsIn).map row) := by
  rw [List.map_flatMap, Bindings.last?_flatMap]
  exact Load.get?_merged h hmerge (by rw [hempty]; rfl) fun ns part hload =>
    get?_load hadd halias hempty hload k

theorem get?_nameByIndex_loadAll (h : (loadAll n).outcome = .ok maps) (index : UInt32) :
    maps.nameByIndex.get? index =
      Bindings.last? index
        ((n.members.flatMap portsIn).map fun port => (port.index, port.name)) := by
  refine get?_loadAll (fun _ _ => rfl) (fun maps entry => ?_) (fun _ _ => rfl) rfl h index
  rw [addEntry, portOf?]
  cases portIndex? entry.1 <;> rfl

theorem get?_nameById_loadAll (h : (loadAll n).outcome = .ok maps) (id : String) :
    maps.nameById.get? id =
      Bindings.last? id ((n.members.flatMap portsIn).map fun port => (port.id, port.name)) := by
  refine get?_loadAll (fun _ _ => rfl) (fun maps entry => ?_) (fun _ _ => rfl) rfl h id
  rw [addEntry, portOf?]
  cases portIndex? entry.1 <;> rfl

/-- The names of all ports with their identifiers, in the order in which they are entered. -/
def bindings (n : Namespaces) : List (String × String) :=
  (n.members.flatMap portsIn).map fun port => (port.name, port.id)

theorem get?_idByName_loadAll (h : (loadAll n).outcome = .ok maps) (name : String) :
    maps.idByName.get? name = Bindings.last? name (bindings n) := by
  refine get?_loadAll (fun _ _ => rfl) (fun maps entry => ?_) (fun _ _ => rfl) rfl h name
  rw [addEntry, portOf?]
  cases portIndex? entry.1 <;> rfl

theorem inverse_iff (h : (loadAll n).outcome = .ok maps) :
    (∀ id name, maps.nameById.get? id = some name → maps.idByName.get? name = some id) ↔
      RebindsBoth (bindings n) := by
  have hswap : (n.members.flatMap portsIn).map (fun port => (port.id, port.name)) =
      (bindings n).map Prod.swap := by
    rw [bindings, List.map_map]
    rfl
  simp only [get?_idByName_loadAll h, get?_nameById_loadAll h, hswap]
  exact Bindings.last?_inverse_iff

end All

end PortMaps

/-! ## Router interfaces -/

namespace RifMaps

/-- A router interface of a namespace with its port. -/
def bindingOf? (ns : Namespace) (rif : String) : Option (String × String) :=
  ((ns.hash .asic (rifLead ++ rif)).get? Schema.rifPort).map fun port =>
    (Schema.bareId rif, Schema.bareId port)

def bindingsIn (ns : Namespace) : List (String × String) :=
  (ns.below .asic rifLead).filterMap (bindingOf? ns)

/-- The router interfaces of all namespaces, in the order in which they are bound. -/
def bindings (n : Namespaces) : List (String × String) := n.members.flatMap bindingsIn

def bindPair (maps : RifMaps) (p : String × String) : RifMaps := maps.bind p.1 p.2

theorem addKey_eq_ok {ns : Namespace} {maps maps' : RifMaps} {key : String}
    (h : (addKey ns maps key).outcome = .ok maps') :
    maps' = match Text.after? rifLead key with
      | some rif => match bindingOf? ns rif with
        | some p => maps.bindPair p
        | none => maps
      | none => maps := by
  unfold addKey at h
  cases hkey : Text.after? rifLead key with
  | none =>
    rw [hkey] at h
    exact (Except.ok.inj h).symm
  | some rif =>
    rw [hkey] at h
    obtain ⟨entry, hentry, hbind⟩ := Load.outcome_bind_eq_ok_iff.1 h
    obtain rfl := Namespace.eq_hash_of_getAll (Load.outcome_ofRead_eq_ok_iff.1 hentry)
    obtain rfl := Text.after?_eq_some_iff.1 hkey
    simp only [bindingOf?]
    cases hport : (ns.hash .asic (rifLead ++ rif)).get? Schema.rifPort with
    | none =>
      rw [hport] at hbind
      exact (Except.ok.inj hbind).symm
    | some port =>
      rw [hport] at hbind
      exact (Except.ok.inj hbind).symm

theorem load_eq_ok {ns : Namespace} {maps : RifMaps} (h : (load ns).outcome = .ok maps) :
    maps = (bindingsIn ns).foldl bindPair empty := by
  obtain ⟨keys, hread, hfold⟩ := Load.outcome_bind_eq_ok_iff.1 h
  have hkeys := Namespace.eq_of_keys_eq_ok (Load.outcome_ofRead_eq_ok_iff.1 hread)
  have hrifs : ns.below .asic rifLead = keys.filterMap (Text.after? rifLead) := by
    rw [hkeys]
    rfl
  rw [Load.eq_foldl_of_outcome (fun _ _ _ => addKey_eq_ok) hfold, bindingsIn, hrifs,
    List.foldl_filterMap, List.foldl_filterMap]
  congr
  funext maps key
  cases Text.after? rifLead key with
  | none => rfl
  | some rif => cases hbinding : bindingOf? ns rif <;> simp [hbinding]

section All

variable {n : Namespaces} {maps : RifMaps}

theorem get?_portByRif_loadAll (h : (loadAll n).outcome = .ok maps) (rif : String) :
    maps.portByRif.get? rif = Bindings.last? rif (bindings n) := by
  rw [bindings, Bindings.last?_flatMap]
  refine Load.get?_merged h (fun _ _ => rfl) rfl fun ns part hload => ?_
  rw [load_eq_ok hload, Dict.get?_foldl_insert portByRif some (fun _ _ => rfl), List.filterMap_some]
  exact Option.or_none

theorem get?_rifByPort_loadAll (h : (loadAll n).outcome = .ok maps) (port : String) :
    maps.rifByPort.get? port = Bindings.last? port ((bindings n).map Prod.swap) := by
  rw [bindings, List.map_flatMap, Bindings.last?_flatMap]
  refine Load.get?_merged h (fun _ _ => rfl) rfl fun ns part hload => ?_
  rw [load_eq_ok hload,
    Dict.get?_foldl_insert rifByPort (fun p => some p.swap) (fun _ _ => rfl)]
  simp [empty]

theorem inverse_iff (h : (loadAll n).outcome = .ok maps) :
    (∀ port rif, maps.rifByPort.get? port = some rif → maps.portByRif.get? rif = some port) ↔
      RebindsBoth (bindings n) := by
  simp only [get?_portByRif_loadAll h, get?_rifByPort_loadAll h]
  exact Bindings.last?_inverse_iff

end All

end RifMaps

/-! ## All namespaces -/

/-- Every name found for an identifier has that identifier, and every router interface found for a
port is on that port, just when a later namespace that replaces a pair by its first component
replaces it by its second, too. -/
theorem inverse_iff_rebindsBoth (n : Namespaces) :
    (∀ ports, (PortMaps.loadAll n).outcome = .ok ports →
      ((∀ id name, ports.nameById.get? id = some name → ports.idByName.get? name = some id) ↔
        RebindsBoth (PortMaps.bindings n))) ∧
    (∀ rifs, (RifMaps.loadAll n).outcome = .ok rifs →
      ((∀ port rif, rifs.rifByPort.get? port = some rif → rifs.portByRif.get? rif = some port) ↔
        RebindsBoth (RifMaps.bindings n))) :=
  ⟨fun _ hports => PortMaps.inverse_iff hports, fun _ hrifs => RifMaps.inverse_iff hrifs⟩

/-- A chip with one port, on which one router interface sits. -/
def chipOfPort (name port id rif : String) : Namespace :=
  ((Namespace.empty name).setFields .counters Schema.portNameMap [(port, id)]).setFields .asic
    (RifMaps.rifLead ++ rif) [(Schema.rifPort, id)]

/-- Where the two chips have nothing in common, whatever is found one way is found the other. -/
theorem inverse_of_two_ports :
    let n : Namespaces := ⟨.empty "", [chipOfPort "asic0" "Ethernet0" "oid:0x1" "oid:0xa01",
      chipOfPort "asic1" "Ethernet4" "oid:0x2" "oid:0xa02"]⟩
    ∃ ports rifs, (PortMaps.loadAll n).outcome = .ok ports ∧
      (RifMaps.loadAll n).outcome = .ok rifs ∧
      (∀ id name, ports.nameById.get? id = some name → ports.idByName.get? name = some id) ∧
      (∀ port rif, rifs.rifByPort.get? port = some rif → rifs.portByRif.get? rif = some port) := by
  intro n
  obtain ⟨hportsOk, hrifsOk, hnames, hbound⟩ : (PortMaps.loadAll n).outcome.isOk = true ∧
      (RifMaps.loadAll n).outcome.isOk = true ∧
      ((PortMaps.bindings n).map Prod.fst).Nodup ∧ ((RifMaps.bindings n).map Prod.fst).Nodup := by
    decide +kernel
  obtain ⟨ports, hports⟩ := exists_eq_ok_of_isOk hportsOk
  obtain ⟨rifs, hrifs⟩ := exists_eq_ok_of_isOk hrifsOk
  obtain ⟨hnameIff, hrifIff⟩ := inverse_iff_rebindsBoth n
  exact ⟨ports, rifs, hports, hrifs, (hnameIff ports hports).2 (rebindsBoth_of_nodup hnames),
    (hrifIff rifs hrifs).2 (rebindsBoth_of_nodup hbound)⟩

/-- Where the second chip has the same port and the same router interface under another identifier
of the port, the former identifier still leads to both, but neither leads back to it. -/
theorem not_inverse_of_renumbered_port :
    let n : Namespaces := ⟨.empty "", [chipOfPort "asic0" "Ethernet0" "oid:0x1" "oid:0xa01",
      chipOfPort "asic1" "Ethernet0" "oid:0x2" "oid:0xa01"]⟩
    (∃ ports, (PortMaps.loadAll n).outcome = .ok ports ∧
      ports.nameById.get? "1" = some "Ethernet0" ∧ ports.idByName.get? "Ethernet0" = some "2") ∧
    (∃ rifs, (RifMaps.loadAll n).outcome = .ok rifs ∧
      rifs.rifByPort.get? "1" = some "a01" ∧ rifs.portByRif.get? "a01" = some "2") ∧
    (¬ ∀ (n : Namespaces) (ports : PortMaps), (PortMaps.loadAll n).outcome = .ok ports →
      ∀ id name, ports.nameById.get? id = some name → ports.idByName.get? name = some id) ∧
    ¬ ∀ (n : Namespaces) (rifs : RifMaps), (RifMaps.loadAll n).outcome = .ok rifs →
      ∀ port rif, rifs.rifByPort.get? port = some rif → rifs.portByRif.get? rif = some port := by
  intro n
  have hfound : (PortMaps.loadAll n).outcome.map (fun ports => (ports.nameById.get? "1",
      ports.idByName.get? "Ethernet0")) = .ok (some "Ethernet0", some "2") := by decide +kernel
  have hbound : (RifMaps.loadAll n).outcome.map (fun rifs => (rifs.rifByPort.get? "1",
      rifs.portByRif.get? "a01")) = .ok (some "a01", some "2") := by decide +kernel
  obtain ⟨ports, hports, hfound⟩ := exists_eq_ok_of_map hfound
  obtain ⟨rifs, hrifs, hbound⟩ := exists_eq_ok_of_map hbound
  obtain ⟨hname, hid⟩ := Prod.mk.inj hfound
  obtain ⟨hrif, hport⟩ := Prod.mk.inj hbound
  refine ⟨⟨ports, hports, hname, hid⟩, ⟨rifs, hrifs, hrif, hport⟩, fun hall => ?_, fun hall => ?_⟩
  · have hback := hall n ports hports "1" "Ethernet0" hname
    rw [hid] at hback
    exact absurd hback (by decide)
  · have hback := hall n rifs hrifs "1" "a01" hrif
    rw [hport] at hback
    exact absurd hback (by decide)

end Identity

end SwitchMib
