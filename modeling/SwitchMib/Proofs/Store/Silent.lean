import SwitchMib.Proofs.Identity.Merged
import SwitchMib.Proofs.Store.Reads

/-!
# Namespaces that have nothing to say

The reads of all members pass over a namespace that fails. So a namespace that cannot be reached is
like one without data, and a chip without data is like no chip at all; and nothing that another
namespace has is touched by the failure.

* `Namespace.Silent`: no read finds anything.
* `SameVoices`, `Namespaces.SameVoices`: the same namespaces but for silent ones. Reads of all
  members give the same values.
* `Namespaces.failing`, `Namespaces.emptied`, `Namespaces.reduced`: some namespaces cannot be
  reached, have no data, or are missing.
* `Namespaces.get?_getAll_failing`, `Namespaces.mem_keys_failing_iff`: what no failing namespace has
  is read as if none failed.
-/

namespace SwitchMib.Store
set_option autoImplicit false

namespace Namespace

/-- Every read fails or finds nothing. -/
structure Silent (ns : Namespace) : Prop where
  keys : ∀ db pattern found, ns.keys db pattern = .ok found → found = []
  getAll : ∀ db key fields, ns.getAll db key = .ok fields → fields = Dict.empty

variable {ns : Namespace} {db : Database} {key : String}

theorem gate_ne_ok (h : ns.reachable = false) (kind : ReadKind) : ns.gate kind db key ≠ .ok () :=
  fun hok => Bool.false_ne_true (h.symm.trans (gate_eq_ok_iff.1 hok).1)

theorem silent_of_unreachable (h : ns.reachable = false) : ns.Silent := by
  have hfails : ∀ {α : Type} {kind : ReadKind} {db : Database} {key : String} {f : Unit → α}
      {a : α}, (ns.gate kind db key).map f ≠ .ok a := by
    intro α kind db key f a hok
    cases hgate : ns.gate kind db key with
    | error e =>
      rw [hgate] at hok
      cases hok
    | ok _ => exact gate_ne_ok h kind hgate
  exact ⟨fun db pattern found hok => absurd hok hfails, fun db key fields hok => absurd hok hfails⟩

theorem silent_empty (name : String) : (empty name).Silent :=
  ⟨fun _ _ _ h => eq_of_keys_eq_ok h, fun _ _ _ h => eq_hash_of_getAll h⟩

theorem eq_hash_of_readHash {fields : Fields} (h : Namespaces.readHash db key ns = .ok fields) :
    fields = ns.hash db key := by
  unfold Namespaces.readHash has at h
  cases hgate : ns.gate .has db key with
  | error e =>
    rw [hgate] at h
    cases h
  | ok _ =>
    rw [hgate] at h
    change (if (ns.tables db).contains key then ns.getAll db key else .ok Dict.empty) = _ at h
    by_cases hbound : (ns.tables db).contains key = true
    · rw [if_pos hbound] at h
      exact eq_hash_of_getAll h
    · rw [if_neg hbound] at h
      rw [← Except.ok.inj h, hash, Option.not_isSome_iff_eq_none.1 hbound]
      rfl

theorem Silent.readHash (h : ns.Silent) {fields : Fields}
    (hread : Namespaces.readHash db key ns = .ok fields) : fields = Dict.empty := by
  unfold Namespaces.readHash at hread
  cases hhas : ns.has db key with
  | error e =>
    rw [hhas] at hread
    cases hread
  | ok bound =>
    rw [hhas] at hread
    cases bound with
    | true => exact h.getAll db key fields hread
    | false => exact (Except.ok.inj hread).symm

end Namespace

/-! ## Lists of namespaces but for silent ones -/

inductive SameVoices : List Namespace → List Namespace → Prop
  | nil : SameVoices [] []
  | both (ns : Namespace) {l l' : List Namespace} :
    SameVoices l l' → SameVoices (ns :: l) (ns :: l')
  | left {ns : Namespace} {l l' : List Namespace} :
    ns.Silent → SameVoices l l' → SameVoices (ns :: l) l'
  | right {ns : Namespace} {l l' : List Namespace} :
    ns.Silent → SameVoices l l' → SameVoices l (ns :: l')

namespace SameVoices

variable {α : Type} {l l' : List Namespace}

/-- A loop that passes over silent namespaces does not notice them. -/
theorem foldl_eq (h : SameVoices l l') {step : α → Namespace → α}
    (hstep : ∀ a ns, ns.Silent → step a ns = a) (a : α) : l.foldl step a = l'.foldl step a := by
  induction h generalizing a with
  | nil => rfl
  | both ns _ ih => exact ih (step a ns)
  | left hns _ ih =>
    rw [List.foldl_cons, hstep a _ hns]
    exact ih a
  | right hns _ ih =>
    rw [List.foldl_cons, hstep a _ hns]
    exact ih a

variable {f g : α → Namespace}

theorem map_map {l : List α} (h : ∀ p ∈ l, f p = g p ∨ (f p).Silent ∧ (g p).Silent) :
    SameVoices (l.map f) (l.map g) := by
  induction l with
  | nil => exact nil
  | cons p l ih =>
    obtain ⟨hp, hl⟩ := List.forall_mem_cons.1 h
    rcases hp with hsame | ⟨hf, hg⟩
    · rw [List.map_cons, List.map_cons, hsame]
      exact both (g p) (ih hl)
    · exact left hf (right hg (ih hl))

theorem map_filter {l : List α} {keep : α → Bool} (hkeep : ∀ p ∈ l, keep p = true → f p = g p)
    (hdrop : ∀ p ∈ l, keep p = false → (f p).Silent) :
    SameVoices (l.map f) ((l.filter keep).map g) := by
  induction l with
  | nil => exact nil
  | cons p l ih =>
    obtain ⟨hkept, hkeep⟩ := List.forall_mem_cons.1 hkeep
    obtain ⟨hdropped, hdrop⟩ := List.forall_mem_cons.1 hdrop
    have hrest := ih hkeep hdrop
    cases hp : keep p with
    | true =>
      rw [List.filter_cons_of_pos hp, List.map_cons, List.map_cons, hkept hp]
      exact both (g p) hrest
    | false =>
      rw [List.filter_cons_of_neg (by simp [hp])]
      exact left (hdropped hp) hrest

end SameVoices

namespace Namespaces

/-! ## Reads of all members -/

/-- Devices that differ in silent namespaces only. -/
structure SameVoices (n n' : Namespaces) : Prop where
  members : Store.SameVoices n.members n'.members
  host : n.host = n'.host ∨ n.host.Silent ∧ n'.host.Silent

section Gathered

variable {n n' : Namespaces} {db : Database}

/-- A read of all members passes over those that fail. -/
theorem gather_value {α β : Type} (read : Namespace → Except StoreError β) (start : α)
    (add : α → β → α) :
    (n.gather read start add).value =
      n.members.foldl (fun a ns => (read ns).toOption.elim a (add a)) start := by
  refine (List.foldl_hom Aggregated.value fun a ns => ?_).symm
  cases read ns <;> rfl

theorem SameVoices.gather (h : n.SameVoices n') {α β : Type}
    {read : Namespace → Except StoreError β} {start : α} {add : α → β → α}
    (hadd : ∀ a ns b, ns.Silent → read ns = .ok b → add a b = a) :
    (n.gather read start add).value = (n'.gather read start add).value := by
  rw [gather_value, gather_value]
  refine h.members.foldl_eq (fun a ns hns => ?_) start
  cases hread : read ns with
  | ok b => exact hadd a ns b hns hread
  | error e => rfl

theorem SameVoices.keys (h : n.SameVoices n') (db : Database) (pattern : String) :
    (n.keys db pattern).value = (n'.keys db pattern).value := by
  refine congrArg Dict.keys (h.gather fun a ns found hns hread => ?_)
  rw [hns.keys db pattern found hread]
  rfl

theorem SameVoices.getAll (h : n.SameVoices n') (db : Database) (key : String) :
    (n.getAll db key).value = (n'.getAll db key).value := by
  refine h.gather fun a ns fields hns hread => ?_
  rw [hns.readHash hread]
  rfl

/-- A field is that of the last member with the field that can be read. -/
theorem get?_getAll_value (n : Namespaces) (key field : String) :
    (n.getAll db key).value.get? field = n.members.reverse.findSome? fun ns =>
      (readHash db key ns).toOption.bind (·.get? field) := by
  have hvalue : (n.getAll db key).value =
      (n.members.map fun ns => (readHash db key ns).toOption.getD Dict.empty).foldl Dict.merge
        Dict.empty := by
    rw [getAll, gather_value, List.foldl_map]
    congr
    funext fields ns
    cases readHash db key ns <;> rfl
  have hmerged := @Dict.get?_foldl_merge _ _ _ Fields id Dict.merge (fun _ _ => rfl)
    (n.members.map fun ns => (readHash db key ns).toOption.getD Dict.empty) Dict.empty field
  rw [hvalue]
  refine hmerged.trans (Option.or_none.trans ?_)
  rw [← List.map_reverse, List.findSome?_map]
  refine findSome?_congr fun ns _ => ?_
  show ((readHash db key ns).toOption.getD Dict.empty).get? field = _
  cases readHash db key ns <;> rfl

theorem mem_keys_value_iff (n : Namespaces) (pattern key : String) :
    key ∈ (n.keys db pattern).value ↔
      ∃ ns ∈ n.members, ∃ found, ns.keys db pattern = .ok found ∧ key ∈ found := by
  have hvalue : (n.keys db pattern).value = (n.members.foldl (fun d ns =>
      d.insertAll (((ns.keys db pattern).toOption.getD []).map (·, ())))
        (Dict.empty : Dict String Unit)).keys := by
    rw [keys]
    refine congrArg Dict.keys ((gather_value _ _ _).trans ?_)
    congr
    funext d ns
    cases ns.keys db pattern <;> rfl
  have hempty : key ∉ (Dict.empty : Dict String Unit).keys := List.not_mem_nil
  rw [hvalue, mem_keys_foldl_insertAll, or_iff_left hempty]
  refine exists_congr fun ns => and_congr_right fun _ => ?_
  cases ns.keys db pattern <;> simp [Except.toOption]

end Gathered

/-! ## Namespaces that fail -/

section Failing

variable (n : Namespaces) (down : Nat → Bool)

/-- The namespaces at some positions cannot be reached, all others can. The host is at 0. -/
def failing : Namespaces where
  host := n.host.setReachable (!down 0)
  chips := (n.chips.zipIdx 1).map fun p => p.1.setReachable (!down p.2)

/-- A namespace that can be reached, but has no data if it is at some positions. -/
def emptiedAt (p : Namespace × Nat) : Namespace :=
  if down p.2 then .empty p.1.name else p.1.setReachable true

/-- The namespaces at some positions have no data. All can be reached. -/
def emptied : Namespaces where
  host := emptiedAt down (n.host, 0)
  chips := (n.chips.zipIdx 1).map (emptiedAt down)

/-- The chips at some positions are missing. A host cannot be missing, but have no data. -/
def reduced : Namespaces where
  host := emptiedAt down (n.host, 0)
  chips := ((n.chips.zipIdx 1).filter fun p => !down p.2).map (emptiedAt down)

/-- The members with their positions. -/
def placed : List (Namespace × Nat) :=
  match n.chips with
  | [] => [(n.host, 0)]
  | chips => chips.zipIdx 1

theorem members_failing :
    (n.failing down).members = n.placed.map fun p => p.1.setReachable (!down p.2) := by
  obtain ⟨host, chips⟩ := n
  cases chips <;> rfl

theorem members_emptied : (n.emptied down).members = n.placed.map (emptiedAt down) := by
  obtain ⟨host, chips⟩ := n
  cases chips <;> rfl

theorem members_reduced (h : (n.reduced down).chips ≠ []) :
    (n.reduced down).members = (n.placed.filter fun p => !down p.2).map (emptiedAt down) := by
  rw [members_of_chips h]
  obtain ⟨host, chips⟩ := n
  cases chips with
  | nil => exact absurd rfl h
  | cons chip chips => rfl

theorem silent_of_down {down : Nat → Bool} {p : Namespace × Nat} (h : down p.2 = true) :
    (p.1.setReachable (!down p.2)).Silent ∧ (emptiedAt down p).Silent := by
  rw [emptiedAt, if_pos h, h]
  exact ⟨Namespace.silent_of_unreachable rfl, Namespace.silent_empty _⟩

theorem setReachable_of_up {down : Nat → Bool} {p : Namespace × Nat} (h : down p.2 = false) :
    p.1.setReachable (!down p.2) = emptiedAt down p := by
  rw [emptiedAt, h]
  rfl

theorem failed_or_same (p : Namespace × Nat) :
    p.1.setReachable (!down p.2) = emptiedAt down p ∨
      (p.1.setReachable (!down p.2)).Silent ∧ (emptiedAt down p).Silent := by
  cases h : down p.2 with
  | true => exact .inr (h ▸ silent_of_down h)
  | false => exact .inl (h ▸ setReachable_of_up h)

theorem sameVoices_emptied : (n.failing down).SameVoices (n.emptied down) := by
  refine ⟨?_, failed_or_same down (n.host, 0)⟩
  rw [members_failing, members_emptied]
  exact .map_map fun p _ => failed_or_same down p

/-- Where some chip is left, those that fail might as well be missing. -/
theorem sameVoices_reduced (h : (n.reduced down).chips ≠ []) :
    (n.failing down).SameVoices (n.reduced down) := by
  refine ⟨?_, failed_or_same down (n.host, 0)⟩
  rw [members_failing, members_reduced n down h]
  refine .map_filter (fun p _ hp => ?_) fun p _ hp => ?_
  · exact setReachable_of_up (by simpa using hp)
  · exact (silent_of_down (by simpa using hp)).1

variable {n down} {db : Database} {key : String}

theorem mem_zipIdx_of_placed {p : Namespace × Nat} (h : p ∈ n.placed) : p ∈ n.toList.zipIdx := by
  obtain ⟨host, chips⟩ := n
  cases chips with
  | nil => exact h
  | cons chip chips => exact List.mem_cons_of_mem _ h

/-- A field that no failing namespace has is read as if none failed. -/
theorem get?_getAll_failing {field : String}
    (h : ∀ p ∈ n.toList.zipIdx, down p.2 = true → (p.1.hash db key).get? field = none) :
    ((n.failing down).getAll db key).value.get? field =
      ((n.failing fun _ => false).getAll db key).value.get? field := by
  rw [get?_getAll_value, get?_getAll_value, members_failing, members_failing, ← List.map_reverse,
    ← List.map_reverse, List.findSome?_map, List.findSome?_map]
  refine findSome?_congr fun p hp => ?_
  have hplaced := mem_zipIdx_of_placed (List.mem_reverse.1 hp)
  show (readHash db key (p.1.setReachable (!down p.2))).toOption.bind (·.get? field) =
    (readHash db key (p.1.setReachable true)).toOption.bind (·.get? field)
  cases hdown : down p.2 with
  | false => rfl
  | true =>
    have hnone := h p hplaced hdown
    have hfailed : (readHash db key (p.1.setReachable false)).toOption.bind (·.get? field) =
        none := by
      cases hread : readHash db key (p.1.setReachable false) with
      | error e => rfl
      | ok fields =>
        rw [(Namespace.silent_of_unreachable rfl).readHash hread]
        rfl
    have hbare : (readHash db key (p.1.setReachable true)).toOption.bind (·.get? field) =
        none := by
      cases hread : readHash db key (p.1.setReachable true) with
      | error e => rfl
      | ok fields =>
        rw [Namespace.eq_hash_of_readHash hread]
        exact hnone
    exact hfailed.trans hbare.symm

/-- A key that no failing namespace has is found just where it is if none fails. -/
theorem mem_keys_failing_iff {pattern : String}
    (h : ∀ p ∈ n.toList.zipIdx, down p.2 = true → key ∉ (p.1.tables db).keys) :
    key ∈ ((n.failing down).keys db pattern).value ↔
      key ∈ ((n.failing fun _ => false).keys db pattern).value := by
  rw [mem_keys_value_iff, mem_keys_value_iff, members_failing, members_failing]
  simp only [List.mem_map, exists_exists_and_eq_and]
  refine exists_congr fun p => and_congr_right fun hp => ?_
  cases hdown : down p.2 with
  | false => rfl
  | true =>
    have hnone := h p (mem_zipIdx_of_placed hp) hdown
    constructor
    · rintro ⟨found, hread, hkey⟩
      rw [(Namespace.silent_of_unreachable rfl).keys db pattern found hread] at hkey
      cases hkey
    · rintro ⟨found, hread, hkey⟩
      rw [Namespace.eq_of_keys_eq_ok hread] at hkey
      exact absurd (List.mem_filter.1 hkey).1 hnone

end Failing

end Namespaces

end SwitchMib.Store
