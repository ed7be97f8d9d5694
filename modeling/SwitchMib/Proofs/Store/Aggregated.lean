import SwitchMib.Proofs.Store.Silent

/-!
# Aggregated reads where some members fail

A read of all members asks each of them in turn. Some fail, the others answer, and what they answer
is merged; which members have failed, and why, stays part of the answer.

* `failures`, `FirstFailure`: the members that fail, in order, and the first of them.
* `Aggregated.Reports`: the errors of an answer are those of the members, and insisting on all
  members comes to the first of them.
* `Namespaces.forgetting`: some namespaces have nothing and fail no read.
* `Namespace.Tells`: a namespace answers that it has a field under a key.
* `Namespaces.aggregated_reads`: what the two aggregated reads answer.
-/

namespace SwitchMib.Store
set_option autoImplicit false

/-! ## Members that fail -/

section Failures

variable {β : Type} (read : Namespace → Except StoreError β)

/-- The namespaces whose read fails, in order and with their own errors. -/
def failures (l : List Namespace) : List (String × StoreError) :=
  l.filterMap fun ns =>
    match read ns with
    | .ok _ => none
    | .error e => some (ns.name, e)

/-- The read fails in some namespace, and `e` is the error of the first one where it does. -/
def FirstFailure (l : List Namespace) (e : StoreError) : Prop :=
  ∃ earlier ns later, l = earlier ++ ns :: later ∧ (∀ m ∈ earlier, ∃ b, read m = .ok b) ∧
    read ns = .error e

variable {read} {l : List Namespace} {ns : Namespace}

theorem failures_cons_of_ok {b : β} (h : read ns = .ok b) :
    failures read (ns :: l) = failures read l := List.filterMap_cons_none (by rw [h])

theorem failures_cons_of_error {e : StoreError} (h : read ns = .error e) :
    failures read (ns :: l) = (ns.name, e) :: failures read l :=
  List.filterMap_cons_some (by rw [h])

theorem failures_eq_nil_iff : failures read l = [] ↔ ∀ ns ∈ l, ∃ b, read ns = .ok b := by
  rw [failures, List.filterMap_eq_nil_iff]
  refine forall₂_congr fun ns _ => ?_
  cases read ns <;> simp

theorem firstFailure_iff {e : StoreError} :
    FirstFailure read l e ↔ (failures read l).head?.map (·.2) = some e := by
  induction l with
  | nil => simp [FirstFailure, failures]
  | cons ns l ih =>
    cases hread : read ns with
    | error e' =>
      rw [failures_cons_of_error hread, List.head?_cons, Option.map_some, Option.some.injEq]
      constructor
      · rintro ⟨_ | ⟨m, earlier⟩, x, later, hl, hok, hx⟩
        · obtain ⟨rfl, -⟩ := List.cons.inj hl
          rw [hread] at hx
          exact Except.error.inj hx
        · -- the first namespace fails, so none comes before it
          obtain ⟨rfl, -⟩ := List.cons.inj hl
          obtain ⟨b, hb⟩ := hok ns List.mem_cons_self
          rw [hread] at hb
          cases hb
      · rintro rfl
        exact ⟨[], ns, l, rfl, fun m hm => absurd hm List.not_mem_nil, hread⟩
    | ok b =>
      rw [failures_cons_of_ok hread, ← ih]
      constructor
      · rintro ⟨_ | ⟨m, earlier⟩, x, later, hl, hok, hx⟩
        · obtain ⟨rfl, -⟩ := List.cons.inj hl
          rw [hread] at hx
          cases hx
        · obtain ⟨-, rfl⟩ := List.cons.inj hl
          exact ⟨earlier, x, later, rfl, fun y hy => hok y (List.mem_cons_of_mem m hy), hx⟩
      · rintro ⟨earlier, x, later, rfl, hok, hx⟩
        exact ⟨ns :: earlier, x, later, rfl, List.forall_mem_cons.2 ⟨⟨b, hread⟩, hok⟩, hx⟩

end Failures

namespace Aggregated

/-- The answer lists the members that failed, in order, and insisting on all of them gives the
value if none failed and else the error of the first. -/
structure Reports {α β : Type} (a : Aggregated α) (read : Namespace → Except StoreError β)
    (members : List Namespace) : Prop where
  errors : a.errors = failures read members
  strict_ok : ∀ v, a.strict = .ok v ↔ v = a.value ∧ ∀ ns ∈ members, ∃ b, read ns = .ok b
  strict_error : ∀ e, a.strict = .error e ↔ FirstFailure read members e

theorem Reports.of_errors {α β : Type} {a : Aggregated α} {read : Namespace → Except StoreError β}
    {members : List Namespace} (h : a.errors = failures read members) :
    a.Reports read members := by
  refine ⟨h, fun v => ?_, fun e => ?_⟩
  · rw [← failures_eq_nil_iff, ← h, strict]
    cases a.errors <;> simp [eq_comm]
  · rw [firstFailure_iff, ← h, strict]
    cases a.errors <;> simp

end Aggregated

/-! ## Members that are passed over -/

namespace Namespaces

theorem gather_errors {α β : Type} (n : Namespaces) (read : Namespace → Except StoreError β)
    (start : α) (add : α → β → α) :
    (n.gather read start add).errors = failures read n.members := by
  rw [gather]
  have hrun : ∀ (members : List Namespace) (a : Aggregated α),
      (members.foldl (fun a ns =>
        match read ns with
        | .ok b => { a with value := add a.value b }
        | .error e => { a with errors := a.errors ++ [(ns.name, e)] }) a).errors =
        a.errors ++ failures read members := by
    intro members
    induction members with
    | nil => exact fun a => (List.append_nil _).symm
    | cons ns members ih =>
      intro a
      rw [List.foldl_cons, ih]
      cases hread : read ns with
      | ok b => rw [failures_cons_of_ok hread]
      | error e => rw [failures_cons_of_error hread, List.append_assoc, List.singleton_append]
  exact (hrun n.members ⟨start, []⟩).trans (List.nil_append _)

/-- The namespace, or one with its name and no data if it is to be forgotten. -/
def forget (bad : Namespace → Bool) (ns : Namespace) : Namespace :=
  if bad ns then .empty ns.name else ns

/-- Some namespaces have no data; they can be reached and fail no read. -/
def forgetting (n : Namespaces) (bad : Namespace → Bool) : Namespaces where
  host := forget bad n.host
  chips := n.chips.map (forget bad)

theorem members_forgetting (n : Namespaces) (bad : Namespace → Bool) :
    (n.forgetting bad).members = n.members.map (forget bad) := by
  obtain ⟨host, chips⟩ := n
  cases chips <;> rfl

/-- Whether a read fails. -/
def fails {β : Type} (read : Namespace → Except StoreError β) (ns : Namespace) : Bool :=
  !(read ns).isOk

section Forgotten

variable {α β : Type} {read : Namespace → Except StoreError β} {nothing : β}
  (hempty : ∀ name, read (.empty name) = .ok nothing)
include hempty

/-- A member that fails counts as much as one that has nothing. -/
theorem gather_forgetting (n : Namespaces) (start : α) {add : α → β → α}
    (hadd : ∀ a, add a nothing = a) :
    (n.gather read start add).value =
      ((n.forgetting (fails read)).gather read start add).value := by
  rw [gather_value, gather_value, members_forgetting, List.foldl_map]
  refine congrArg (fun step => n.members.foldl step start) (funext fun a => funext fun ns => ?_)
  rw [forget, fails]
  cases hread : read ns with
  | ok b => exact congrArg (fun r : Except StoreError β => r.toOption.elim a (add a)) hread.symm
  | error e =>
    show a = (read (.empty ns.name)).toOption.elim a (add a)
    rw [hempty]
    exact (hadd a).symm

theorem failures_forgetting (n : Namespaces) :
    failures read (n.forgetting (fails read)).members = [] := by
  rw [failures_eq_nil_iff, members_forgetting]
  intro m hm
  obtain ⟨ns, -, rfl⟩ := List.mem_map.1 hm
  rw [forget, fails]
  cases hread : read ns with
  | ok b => exact ⟨b, hread⟩
  | error e => exact ⟨nothing, hempty ns.name⟩

end Forgotten

end Namespaces

/-! ## The hash under a key -/

namespace Namespace

variable {ns : Namespace} {db : Database} {key field : String}

/-- The namespace answers that it has the key, and a hash with the field. -/
def Tells (ns : Namespace) (db : Database) (key field v : String) : Prop :=
  ns.has db key = .ok true ∧ ∃ fields, ns.getAll db key = .ok fields ∧ fields.get? field = some v

theorem readHash_eq_error_iff {e : StoreError} :
    Namespaces.readHash db key ns = .error e ↔
      ns.has db key = .error e ∨ ns.has db key = .ok true ∧ ns.getAll db key = .error e := by
  rw [Namespaces.readHash]
  cases hhas : ns.has db key with
  | error e' =>
    show (Except.error e' : Except StoreError Fields) = .error e ↔ _
    simp
  | ok bound =>
    cases bound with
    | true =>
      show ns.getAll db key = .error e ↔ _
      simp
    | false =>
      show (Except.ok Dict.empty : Except StoreError Fields) = .error e ↔ _
      simp

theorem get?_readHash_eq_some_iff {v : String} :
    (Namespaces.readHash db key ns).toOption.bind (·.get? field) = some v ↔
      ns.Tells db key field v := by
  rw [Tells, Namespaces.readHash]
  cases hhas : ns.has db key with
  | error e =>
    show (none : Option String) = some v ↔ _
    simp
  | ok bound =>
    cases bound with
    | true =>
      show (ns.getAll db key).toOption.bind (·.get? field) = some v ↔ _
      cases ns.getAll db key <;> simp [Except.toOption]
    | false =>
      show (none : Option String) = some v ↔ _
      simp

theorem readHash_empty (db : Database) (key name : String) :
    Namespaces.readHash db key (.empty name) = .ok Dict.empty := rfl

theorem keys_empty (db : Database) (pattern name : String) :
    (Namespace.empty name).keys db pattern = .ok [] := rfl

end Namespace

namespace Namespaces

/-- A field is that of the last member that tells it. -/
theorem get?_getAll_eq_some_iff {n : Namespaces} {db : Database} {key field v : String} :
    (n.getAll db key).value.get? field = some v ↔
      ∃ earlier ns later, n.members = earlier ++ ns :: later ∧ ns.Tells db key field v ∧
        ∀ m ∈ later, ∀ w, ¬ m.Tells db key field w := by
  rw [get?_getAll_value, findSome?_reverse_eq_some_iff]
  simp only [Namespace.get?_readHash_eq_some_iff, Option.eq_none_iff_forall_ne_some, ne_eq]

/-- Aggregated reads go to the chips, and to the host only where it is alone. A scan finds, in
order and once each, the keys that some member finds, and a hash has each field as the last member
that tells it. The members that fail are listed in order with their own errors, insisting on all
of them comes to the first error, and making do with the rest is as if those that fail had
nothing. -/
theorem aggregated_reads (n : Namespaces) (db : Database) (pattern key context : String) :
    n.members = (if n.chips = [] then [n.host] else n.chips) ∧
    (Ascending (n.keys db pattern).value ∧
      (∀ k, k ∈ (n.keys db pattern).value ↔
        ∃ ns ∈ n.members, ∃ found, ns.keys db pattern = .ok found ∧ k ∈ found) ∧
      (n.keys db pattern).Reports (·.keys db pattern) n.members ∧
      let rest := n.forgetting (fails (·.keys db pattern))
      (rest.keys db pattern).errors = [] ∧
        ((n.keys db pattern).serve context).value = (rest.keys db pattern).value) ∧
    ((∀ field v, (n.getAll db key).value.get? field = some v ↔
        ∃ earlier ns later, n.members = earlier ++ ns :: later ∧ ns.Tells db key field v ∧
          ∀ m ∈ later, ∀ w, ¬ m.Tells db key field w) ∧
      (∀ ns e, readHash db key ns = .error e ↔
        ns.has db key = .error e ∨ ns.has db key = .ok true ∧ ns.getAll db key = .error e) ∧
      (n.getAll db key).Reports (readHash db key) n.members ∧
      let rest := n.forgetting (fails (readHash db key))
      (rest.getAll db key).errors = [] ∧
        ((n.getAll db key).serve context).value = (rest.getAll db key).value) := by
  have hmembers : n.members = (if n.chips = [] then [n.host] else n.chips) := by
    obtain ⟨host, chips⟩ := n
    cases chips <;> rfl
  have hkeys : ∀ n : Namespaces,
      (n.keys db pattern).errors = failures (·.keys db pattern) n.members :=
    fun n => n.gather_errors (·.keys db pattern) Dict.empty fun d ks => d.insertAll (ks.map (·, ()))
  have hgets : ∀ n : Namespaces,
      (n.getAll db key).errors = failures (readHash db key) n.members :=
    fun n => n.gather_errors _ _ _
  have hnoKeys := Namespace.keys_empty db pattern
  have hnoFields := Namespace.readHash_empty db key
  refine ⟨hmembers, ⟨n.keys_ascending db pattern, n.mem_keys_value_iff pattern,
    .of_errors (hkeys n), (hkeys _).trans (failures_forgetting hnoKeys n), ?_⟩,
    fun field v => get?_getAll_eq_some_iff, fun ns e => Namespace.readHash_eq_error_iff,
    .of_errors (hgets n), (hgets _).trans (failures_forgetting hnoFields n), ?_⟩
  · exact congrArg Dict.keys (gather_forgetting hnoKeys n Dict.empty fun _ => rfl)
  · exact gather_forgetting hnoFields n Dict.empty fun _ => rfl

/-- A host and three chips that all have one key. The scans of the first chip fail, and of the
second the hash cannot be read. -/
def threeChips : Namespaces where
  host := (Namespace.empty "").setFields .appl "PORT" [("mtu", "0")]
  chips :=
    [ ((Namespace.empty "asic0").setFields .appl "PORT" [("mtu", "1500"), ("speed", "1")]).addFault
        ⟨.keys, .appl, none⟩
    , ((Namespace.empty "asic1").setFields .appl "PORT" [("mtu", "9100"), ("alias", "a")]).addFault
        ⟨.getAll, .appl, some "PORT"⟩
    , (Namespace.empty "asic2").setFields .appl "PORT" [("speed", "2")] ]

/-- The key is found on two chips and listed once. Its hash takes the speed from the last chip and
the rest from the first, as if the second had nothing. -/
theorem aggregated_reads_of_three_chips :
    let scan := threeChips.keys .appl "PO*"
    let hash := threeChips.getAll .appl "PORT"
    scan.value = ["PORT"] ∧ scan.strict = .error (.notConfigured .appl "asic0") ∧
      hash.value.toList = [("mtu", "1500"), ("speed", "2")] ∧
      hash.errors = [("asic1", .notConfigured .appl "asic1")] ∧
      FirstFailure (readHash .appl "PORT") threeChips.members (.notConfigured .appl "asic1") ∧
      let rest := threeChips.forgetting (fails (readHash .appl "PORT"))
      (hash.serve "PORT").value = (rest.getAll .appl "PORT").value := by
  intro scan hash
  obtain ⟨-, -, -, -, hreports, -, hserve⟩ :=
    aggregated_reads threeChips .appl "PO*" "PORT" "PORT"
  have hstrict : hash.strict = .error (.notConfigured .appl "asic1") := by decide +kernel
  exact ⟨by decide +kernel, by decide +kernel, by decide +kernel, by decide +kernel,
    (hreports.strict_error _).1 hstrict, hserve⟩

end Namespaces

end SwitchMib.Store
