import SwitchMib.Identity.Interfaces
import SwitchMib.Identity.Queues
import SwitchMib.Proofs.Identity.Inverse
import SwitchMib.Proofs.Log
import SwitchMib.Proofs.Store.Reads

/-!
# Loads of healthy namespaces

Where no read fails, a load can only fail because a namespace is incoherent: it has no port, or no
queue with counters.

* `Load.Succeeds`: a load that gives a result, and the loads made of such.
* `Namespace.HasPort`, `Namespace.HasCountedQueue`: what a coherent namespace has.
* `InterfaceMaps.succeeds_load`: the interfaces of a device of coherent namespaces can be loaded.
* `QueueMaps.outcome_load`: what is loaded of the queues of a coherent namespace.
-/

namespace SwitchMib
set_option autoImplicit false

namespace Load

variable {α β ε : Type}

def Succeeds (x : Load ε α) : Prop := ∃ a, x.outcome = .ok a

theorem succeeds_pure (a : α) : (pure a : Load ε α).Succeeds := ⟨a, rfl⟩

theorem succeeds_tell (e : Event) : (tell e : Load ε Unit).Succeeds := ⟨(), rfl⟩

theorem succeeds_ofRead {x : Except Store.StoreError α} {a : α} (h : x = .ok a) :
    (ofRead x).Succeeds := ⟨a, outcome_ofRead_eq_ok_iff.2 h⟩

theorem Succeeds.bind {x : Load ε α} {f : α → Load ε β} (hx : x.Succeeds)
    (hf : ∀ a, x.outcome = .ok a → (f a).Succeeds) : (x >>= f).Succeeds := by
  obtain ⟨a, ha⟩ := hx
  obtain ⟨b, hb⟩ := hf a ha
  exact ⟨b, outcome_bind_eq_ok_iff.2 ⟨a, ha, hb⟩⟩

theorem succeeds_foldlM {f : β → α → Load ε β} {l : List α} (hf : ∀ b, ∀ a ∈ l, (f b a).Succeeds)
    (b : β) : (l.foldlM f b).Succeeds := by
  induction l generalizing b with
  | nil => exact succeeds_pure b
  | cons a l ih =>
    rw [List.foldlM_cons]
    exact (hf b a List.mem_cons_self).bind fun c _ =>
      ih (fun b a ha => hf b a (List.mem_cons_of_mem _ ha)) c

/-- Parts that can be loaded can be merged. -/
theorem succeeds_merged {load : α → Load ε β} {merge : β → β → β} {l : List α}
    (h : ∀ a ∈ l, (load a).Succeeds) (start : β) :
    (l.foldlM (fun acc a => do pure (merge acc (← load a))) start : Load ε β).Succeeds :=
  succeeds_foldlM (fun acc a ha => (h a ha).bind fun part _ => succeeds_pure (merge acc part)) start

/-- A loop whose steps all succeed has the value of the loop of their results. -/
theorem outcome_foldlM_of_ok {f : β → α → Load ε β} {g : β → α → β}
    (h : ∀ b a, (f b a).outcome = .ok (g b a)) (l : List α) (b : β) :
    (l.foldlM f b).outcome = .ok (l.foldl g b) := by
  induction l generalizing b with
  | nil => rfl
  | cons a l ih =>
    rw [List.foldlM_cons, List.foldl_cons]
    exact outcome_bind_eq_ok_iff.2 ⟨g b a, h b a, ih (g b a)⟩

end Load

namespace Store.Namespace

open Identity

/-- Some name in the port name map is that of a port. -/
def HasPort (ns : Namespace) : Prop :=
  ∃ name ∈ (ns.hash .counters Schema.portNameMap).keys, (PortMaps.portIndex? name).isSome = true

/-- Some queue in the queue name map has counters. -/
def HasCountedQueue (ns : Namespace) : Prop :=
  ∃ entry ∈ (ns.hash .counters Schema.queueNameMap).toList,
    (QueueMaps.queueOfName entry.1).toOption.isSome = true ∧
      (ns.tables .counters).contains (Schema.queueCounterKey entry.2) = true

instance (ns : Namespace) : Decidable ns.HasPort :=
  inferInstanceAs (Decidable (∃ name ∈ _, (PortMaps.portIndex? name).isSome = true))

instance (ns : Namespace) : Decidable ns.HasCountedQueue :=
  inferInstanceAs (Decidable (∃ entry ∈ (ns.hash .counters Schema.queueNameMap).toList,
    (QueueMaps.queueOfName entry.1).toOption.isSome = true ∧
      (ns.tables .counters).contains (Schema.queueCounterKey entry.2) = true))

end Store.Namespace

namespace Identity

open Store

section Healthy

variable {ns : Namespace}

/-! ## Interfaces -/

theorem PortMaps.size_pos_of_port (h : ns.HasPort) :
    ((ns.visit.order (ns.hash .counters Schema.portNameMap)).foldl addEntry empty).isEmpty =
      false := by
  obtain ⟨name, hname, hport⟩ := h
  obtain ⟨index, hindex⟩ := Option.isSome_iff_exists.1 hport
  obtain ⟨entry, hentry, rfl⟩ := List.mem_map.1 hname
  have hentry := (ns.visit.perm _).mem_iff.2 hentry
  generalize ns.visit.order (ns.hash .counters Schema.portNameMap) = entries at hentry ⊢
  have hget : (entries.foldl addEntry empty).nameByIndex.get? index =
      (Bindings.last? index (entries.filterMap fun entry : String × String =>
        (portIndex? entry.1).map (·, entry.1))).or none :=
    Dict.get?_foldl_insert nameByIndex _
      (fun maps entry => by rw [addEntry]; cases portIndex? entry.1 <;> rfl) entries empty index
  have hbound : Bindings.last? index (entries.filterMap fun entry : String × String =>
      (portIndex? entry.1).map (·, entry.1)) ≠ none := by
    rw [ne_eq, Bindings.last?_eq_none_iff, not_not]
    exact List.mem_map.2 ⟨(index, entry.1),
      List.mem_filterMap.2 ⟨entry, hentry, by rw [hindex]; rfl⟩, rfl⟩
  cases hnames : (entries.foldl addEntry empty).nameByIndex.toList with
  | cons p l => rw [isEmpty, Dict.isEmpty, hnames]; rfl
  | nil =>
    rw [Dict.get?, hnames] at hget
    cases hlast : Bindings.last? index (entries.filterMap fun entry : String × String =>
        (portIndex? entry.1).map (·, entry.1)) with
    | none => exact absurd hlast hbound
    | some v =>
      rw [hlast] at hget
      cases hget

theorem PortMaps.succeeds_load (h : ns.Healthy) (hport : ns.HasPort) : (load ns).Succeeds := by
  refine (Load.succeeds_ofRead h.getAll).bind fun entries hentries => ?_
  rw [Load.outcome_ofRead_eq_ok_iff, h.getAll] at hentries
  obtain rfl := Except.ok.inj hentries
  have hsome := size_pos_of_port hport
  have halias : ∀ maps name, (addAlias ns maps name).Succeeds := fun maps name =>
    (Load.succeeds_ofRead h.getAll).bind fun entry _ => Load.succeeds_pure _
  unfold ofEntries
  rw [if_neg (by simp [hsome])]
  dsimp only
  split
  · exact (Load.succeeds_tell _).bind fun _ _ =>
      Load.succeeds_foldlM (fun maps name _ => halias maps name) _
  · exact Load.succeeds_foldlM (fun maps name _ => halias maps name) _

theorem LagMaps.succeeds_load (h : ns.Healthy) : (load ns).Succeeds := by
  refine (Load.succeeds_ofRead (h.keys _)).bind fun keys _ => ?_
  have hids : (readIds ns).Succeeds := by
    unfold readIds
    rw [h.getAll]
    exact Load.succeeds_pure _
  have hkey : ∀ maps key, (addKey ns maps key).Succeeds := by
    intro maps key
    unfold addKey
    split
    · exact Load.succeeds_pure _
    · exact (Load.succeeds_ofRead (h.keys _)).bind fun _ _ => Load.succeeds_pure _
  split
  · exact Load.succeeds_pure _
  · exact hids.bind fun ids _ => Load.succeeds_foldlM (fun maps key _ => hkey maps key) _

theorem VlanMaps.succeeds_load (h : ns.Healthy) : (load ns).Succeeds :=
  (Load.succeeds_ofRead h.getAll).bind fun _ _ =>
    (Load.succeeds_ofRead h.getAll).bind fun _ _ => Load.succeeds_pure _

theorem RifMaps.succeeds_load (h : ns.Healthy) : (load ns).Succeeds := by
  refine (Load.succeeds_ofRead (h.keys _)).bind fun keys _ => ?_
  refine Load.succeeds_foldlM (fun maps key _ => ?_) _
  unfold addKey
  split
  · exact Load.succeeds_pure _
  · refine (Load.succeeds_ofRead h.getAll).bind fun entry _ => ?_
    split <;> exact Load.succeeds_pure _

theorem ManagementMaps.succeeds_load (h : ns.Healthy) : (load ns).Succeeds := by
  refine (Load.succeeds_ofRead (h.keys _)).bind fun keys _ => ?_
  refine Load.succeeds_foldlM (fun maps key _ => ?_) _
  unfold addKey
  split
  · exact Load.succeeds_pure _
  · split
    · exact (Load.succeeds_tell _).bind fun _ _ => Load.succeeds_pure _
    · exact (Load.succeeds_ofRead h.getAll).bind fun _ _ => Load.succeeds_pure _

theorem InterfaceMaps.succeeds_load {n : Namespaces} (h : n.Healthy) (hhost : n.host.Healthy)
    (hports : ∀ ns ∈ n.members, ns.HasPort) : (load n).Succeeds :=
  (Load.succeeds_merged (fun ns hns => PortMaps.succeeds_load (h ns hns) (hports ns hns)) _).bind
    fun _ _ => (Load.succeeds_merged (fun ns hns => LagMaps.succeeds_load (h ns hns)) _).bind
    fun _ _ => (Load.succeeds_merged (fun ns hns => VlanMaps.succeeds_load (h ns hns)) _).bind
    fun _ _ => (Load.succeeds_merged (fun ns hns => RifMaps.succeeds_load (h ns hns)) _).bind
    fun _ _ => (ManagementMaps.succeeds_load hhost).bind fun _ _ => Load.succeeds_pure _

/-! ## Queues -/

namespace QueueMaps

/-- The queues of a namespace with their identifiers, in the order in which they are visited. -/
def queuesIn (ns : Namespace) : List (QueueId × String) :=
  (ns.visit.order (ns.hash .counters Schema.queueNameMap)).filterMap fun entry =>
    (queueOfName entry.1).toOption.map (·, entry.2)

theorem mem_queuesIn_iff {ns : Namespace} {p : QueueId × String} :
    p ∈ queuesIn ns ↔ ∃ entry ∈ (ns.hash .counters Schema.queueNameMap).toList,
      (queueOfName entry.1).toOption.map (·, entry.2) = some p := by
  rw [queuesIn, List.mem_filterMap]
  simp only [(ns.visit.perm _).mem_iff]

def addPair (maps : QueueMaps) (p : QueueId × String) : QueueMaps := maps.addQueue p.1 p.2

/-- One entry where no read fails. -/
def entered (ns : Namespace) (acc : QueueMaps × Bool) (entry : String × String) :
    QueueMaps × Bool :=
  match (queueOfName entry.1).toOption with
  | some q => (acc.1.addQueue q entry.2,
      acc.2 || (ns.tables .counters).contains (Schema.queueCounterKey entry.2))
  | none => acc

theorem outcome_addEntry (h : ns.Healthy) (acc : QueueMaps × Bool) (entry : String × String) :
    (addEntry ns acc entry).outcome = .ok (entered ns acc entry) := by
  unfold addEntry entered
  cases queueOfName entry.1 with
  | error e => rfl
  | ok q =>
    exact Load.outcome_bind_eq_ok_iff.2 ⟨_, Load.outcome_ofRead_eq_ok_iff.2 h.has, rfl⟩

theorem foldl_entered_fst (ns : Namespace) (entries : List (String × String))
    (acc : QueueMaps × Bool) :
    (entries.foldl (entered ns) acc).1 =
      (entries.filterMap fun entry => (queueOfName entry.1).toOption.map (·, entry.2)).foldl
        addPair acc.1 := by
  induction entries generalizing acc with
  | nil => rfl
  | cons entry entries ih =>
    rw [List.foldl_cons, ih, entered]
    cases hq : (queueOfName entry.1).toOption <;> simp [hq, addPair]

theorem foldl_entered_snd {entries : List (String × String)} {acc : QueueMaps × Bool} :
    (entries.foldl (entered ns) acc).2 = true ↔ acc.2 = true ∨
      ∃ entry ∈ entries, (queueOfName entry.1).toOption.isSome = true ∧
        (ns.tables .counters).contains (Schema.queueCounterKey entry.2) = true := by
  induction entries generalizing acc with
  | nil => simp
  | cons entry entries ih =>
    rw [List.foldl_cons, ih, entered]
    cases hq : (queueOfName entry.1).toOption with
    | none => simp [hq]
    | some q => simp [hq, or_assoc]

theorem outcome_load (h : ns.Healthy) (hqueue : ns.HasCountedQueue) :
    (load ns).outcome = .ok ((queuesIn ns).foldl addPair empty) := by
  refine Load.outcome_bind_eq_ok_iff.2 ⟨_, Load.outcome_ofRead_eq_ok_iff.2 h.getAll, ?_⟩
  rw [queuesIn, ← foldl_entered_fst ns _ (empty, false)]
  obtain ⟨entry, hentry, hcount⟩ := hqueue
  have hentry := (ns.visit.perm _).mem_iff.2 hentry
  generalize ns.visit.order (ns.hash .counters Schema.queueNameMap) = entries at hentry ⊢
  have hcounted : (entries.foldl (entered ns) (empty, false)).2 = true :=
    foldl_entered_snd.2 (.inr ⟨entry, hentry, hcount⟩)
  have hsome : entries.isEmpty = false := by
    cases entries with
    | nil => cases hentry
    | cons entry entries => rfl
  unfold ofEntries
  rw [if_neg (by simp [hsome])]
  refine Load.outcome_bind_eq_ok_iff.2
    ⟨_, Load.outcome_foldlM_of_ok (outcome_addEntry h) entries (empty, false), ?_⟩
  generalize entries.foldl (entered ns) (empty, false) = found at hcounted ⊢
  obtain ⟨maps, counted⟩ := found
  obtain rfl : counted = true := hcounted
  rfl

end QueueMaps

end Healthy

end Identity

end SwitchMib
