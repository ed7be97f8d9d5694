import SwitchMib.Proofs.Store.Reads

/-!
# What is not seen of the host

The state of the switching chips is kept in three databases. On a device with namespaces for the
chips, those of the host are not read: stores that differ in nothing else are read alike.

* `Database.ofChip`: the databases with the state of a chip.
* `Namespace.SameBesidesChip`: namespaces whose other databases and failing reads of them agree.
* `Edit`, `Namespaces.edit`: what may happen to a namespace.
* `Namespaces.SameBesidesHost`: the stores of a device with chips that differ in their host only,
  and in that in the databases of a chip only. Edits keep them so.
* `Namespaces.alone_reads`: where the host is alone, it is the namespace that is read.
-/

namespace SwitchMib.Store
set_option autoImplicit false

def Database.ofChip : Database → Bool
  | .appl | .asic | .counters => true
  | .config | .state | .overlay => false

/-! ## What may happen to a namespace -/

inductive Edit where
  | setFields (db : Database) (key : String) (fields : List (String × String))
  | delete (db : Database) (key : String)
  | setReachable (reachable : Bool)
  | addFault (f : Fault)
  | clearFaults
  deriving DecidableEq

namespace Edit

def apply : Edit → Namespace → Namespace
  | setFields db key fields, ns => ns.setFields db key fields
  | delete db key, ns => ns.delete db key
  | setReachable reachable, ns => ns.setReachable reachable
  | addFault f, ns => ns.addFault f
  | clearFaults, ns => ns.clearFaults

/-- Whether an edit is one of a database with the state of a chip. -/
def ofChip : Edit → Bool
  | setFields db _ _ => db.ofChip
  | delete db _ => db.ofChip
  | addFault f => f.db.ofChip
  | setReachable _ | clearFaults => false

end Edit

/-! ## One namespace -/

namespace Namespace

structure SameBesidesChip (a b : Namespace) : Prop where
  name : a.name = b.name
  reachable : a.reachable = b.reachable
  tables : ∀ db : Database, db.ofChip = false → a.tables db = b.tables db
  faults : ∀ f : Fault, f.db.ofChip = false → (f ∈ a.faults ↔ f ∈ b.faults)

namespace SameBesidesChip

variable {a b : Namespace} {db : Database}

theorem refl (a : Namespace) : a.SameBesidesChip a :=
  ⟨rfl, rfl, fun _ _ => rfl, fun _ _ => Iff.rfl⟩

theorem gate (h : a.SameBesidesChip b) (hdb : db.ofChip = false) (kind : ReadKind)
    (key : String) : a.gate kind db key = b.gate kind db key := by
  have hhits : (a.faults.any fun f => f.hits kind db key) =
      b.faults.any fun f => f.hits kind db key := by
    have hdatabase : ∀ f : Fault, f.hits kind db key = true → f.db.ofChip = false := by
      intro f hf
      simp only [Fault.hits, Bool.and_eq_true, beq_iff_eq] at hf
      rw [hf.1.2]
      exact hdb
    rw [Bool.eq_iff_iff, List.any_eq_true, List.any_eq_true]
    constructor
    · rintro ⟨f, hmem, hf⟩
      exact ⟨f, (h.faults f (hdatabase f hf)).1 hmem, hf⟩
    · rintro ⟨f, hmem, hf⟩
      exact ⟨f, (h.faults f (hdatabase f hf)).2 hmem, hf⟩
  rw [Namespace.gate, Namespace.gate, hhits, h.name, h.reachable]

theorem keys (h : a.SameBesidesChip b) (hdb : db.ofChip = false) (pattern : String) :
    a.keys db pattern = b.keys db pattern := by
  rw [Namespace.keys, Namespace.keys, h.gate hdb, h.tables db hdb]

theorem getAll (h : a.SameBesidesChip b) (hdb : db.ofChip = false) (key : String) :
    a.getAll db key = b.getAll db key := by
  rw [Namespace.getAll, Namespace.getAll, h.gate hdb, h.tables db hdb]

theorem withTable (h : a.SameBesidesChip b) {t t' : Table}
    (ht : db.ofChip = false → t = t') : (a.withTable db t).SameBesidesChip (b.withTable db t') := by
  refine ⟨h.name, h.reachable, fun db' hdb' => ?_, h.faults⟩
  show (if db' = db then t else a.tables db') = if db' = db then t' else b.tables db'
  by_cases hsame : db' = db
  · subst hsame
    rw [if_pos rfl, if_pos rfl]
    exact ht hdb'
  · rw [if_neg hsame, if_neg hsame]
    exact h.tables db' hdb'

/-- What happens to both happens to their like parts. -/
theorem edit (h : a.SameBesidesChip b) (e : Edit) : (e.apply a).SameBesidesChip (e.apply b) := by
  cases e with
  | setFields db key fields => exact h.withTable fun hdb => by rw [h.tables db hdb]
  | delete db key => exact h.withTable fun hdb => by rw [h.tables db hdb]
  | setReachable reachable => exact ⟨h.name, rfl, h.tables, h.faults⟩
  | addFault f =>
    refine ⟨h.name, h.reachable, h.tables, fun g hg => ?_⟩
    show g ∈ a.faults ++ [f] ↔ g ∈ b.faults ++ [f]
    rw [List.mem_append, List.mem_append, h.faults g hg]
  | clearFaults => exact ⟨h.name, h.reachable, h.tables, fun _ _ => Iff.rfl⟩

/-- What happens to the databases of a chip does not matter. -/
theorem edit_left (h : a.SameBesidesChip b) {e : Edit} (he : e.ofChip = true) :
    (e.apply a).SameBesidesChip b := by
  have hother : ∀ {db db' : Database}, db.ofChip = true → db'.ofChip = false → db' ≠ db := by
    rintro db _ hdb hdb' rfl
    rw [hdb] at hdb'
    cases hdb'
  cases e with
  | setFields db key fields =>
    refine ⟨h.name, h.reachable, fun db' hdb' => ?_, h.faults⟩
    exact (if_neg (hother he hdb')).trans (h.tables db' hdb')
  | delete db key =>
    refine ⟨h.name, h.reachable, fun db' hdb' => ?_, h.faults⟩
    exact (if_neg (hother he hdb')).trans (h.tables db' hdb')
  | setReachable reachable => cases he
  | addFault f =>
    refine ⟨h.name, h.reachable, h.tables, fun g hg => ?_⟩
    have hne : g ≠ f := fun heq => hother he hg (congrArg Fault.db heq)
    show g ∈ a.faults ++ [f] ↔ g ∈ b.faults
    rw [List.mem_append, List.mem_singleton, h.faults g hg]
    exact or_iff_left hne
  | clearFaults => cases he

end SameBesidesChip

end Namespace

/-! ## The namespaces of a device -/

namespace Namespaces

def edit (n : Namespaces) (i : Nat) (e : Edit) : Namespaces := n.modify i e.apply

structure SameBesidesHost (n n' : Namespaces) : Prop where
  chips : n.chips = n'.chips
  hasChips : n.chips ≠ []
  host : n.host.SameBesidesChip n'.host

section Device

variable {n n' : Namespaces}

namespace SameBesidesHost

theorem right (h : n.SameBesidesHost n') : n'.SameBesidesHost n' :=
  ⟨rfl, fun hnone => h.hasChips (h.chips.trans hnone), .refl _⟩

theorem members (h : n.SameBesidesHost n') : n.members = n'.members := by
  rw [members_of_chips h.hasChips, members_of_chips h.right.hasChips, h.chips]

theorem keys (h : n.SameBesidesHost n') : n.keys = n'.keys := by
  funext db pattern
  simp only [Namespaces.keys, gather, h.members]

theorem getAll (h : n.SameBesidesHost n') : n.getAll = n'.getAll := by
  funext db key
  simp only [Namespaces.getAll, gather, h.members]

theorem edit (h : n.SameBesidesHost n') (i : Nat) (e : Edit) :
    (n.edit i e).SameBesidesHost (n'.edit i e) := by
  cases i with
  | zero => exact ⟨h.chips, h.hasChips, h.host.edit e⟩
  | succ i =>
    refine ⟨congrArg (List.modify · i e.apply) h.chips, ?_, h.host⟩
    show n.chips.modify i e.apply ≠ []
    rw [Ne, List.modify_eq_nil_iff]
    exact h.hasChips

theorem edit_left (h : n.SameBesidesHost n') {e : Edit} (he : e.ofChip = true) :
    (n.edit 0 e).SameBesidesHost n' := ⟨h.chips, h.hasChips, h.host.edit_left he⟩

end SameBesidesHost

end Device

/-! ## A host that is alone -/

theorem keys_insertAll_of_ascending {keys : List String} (h : Ascending keys) :
    ((Dict.empty : Dict String Unit).insertAll (keys.map (·, ()))).keys = keys := by
  have hsorted : Bindings.Sorted (keys.map (·, ())) := by
    rw [Bindings.Sorted, List.pairwise_map]
    exact h
  have hsame : (Dict.empty : Dict String Unit).insertAll (keys.map (·, ())) = ⟨_, hsorted⟩ := by
    refine Dict.ext_get? fun key => ?_
    have hmerged := Dict.get?_merge Dict.empty ⟨_, hsorted⟩ key
    rw [Dict.get?_empty, Option.or_none] at hmerged
    exact hmerged
  rw [hsame, Dict.keys, List.map_map]
  exact List.map_id _

theorem ascending_keys {ns : Namespace} {db : Database} {pattern : String} {found : List String}
    (h : ns.keys db pattern = .ok found) : Ascending found := by
  rw [Namespace.eq_of_keys_eq_ok h]
  exact (Dict.keys_ascending _).filter _

theorem alone_reads (host : Namespace) (db : Database) :
    (∀ pattern, ((⟨host, []⟩ : Namespaces).keys db pattern).strict = host.keys db pattern) ∧
    ∀ key, ((⟨host, []⟩ : Namespaces).getAll db key).strict = readHash db key host := by
  refine ⟨fun pattern => ?_, fun key => ?_⟩
  · cases hread : host.keys db pattern with
    | error e => simp [keys, gather, members, hread, Aggregated.strict]
    | ok found =>
      have hkeys := keys_insertAll_of_ascending (ascending_keys hread)
      simpa [keys, gather, members, hread, Aggregated.strict] using hkeys
  · cases hread : readHash db key host with
    | error e => simp [getAll, gather, members, hread, Aggregated.strict]
    | ok fields =>
      have hmerge : Dict.merge Dict.empty fields = fields := by
        refine Dict.ext_get? fun field => ?_
        rw [Dict.get?_merge, Dict.get?_empty, Option.or_none]
      simpa [getAll, gather, members, hread, Aggregated.strict] using hmerge

end Namespaces

end SwitchMib.Store
