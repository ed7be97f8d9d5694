import SwitchMib.Log
import SwitchMib.Store.Namespace

/-!
# Loads read by read

A load is seen as a script: a tree that asks the store for one thing after another and goes on with
each answer. This shows which reads a load performs, since later ones depend on earlier answers.

* `Read`: a read of one namespace, with its answer.
* `Script`, `Script.run`, `Script.reads`: a script, what it loads and the reads it performs.
* `Script.Strict`: a script gives up at every read that fails, but for lenient ones.
* `Script.outcome_run_eq_store_iff`: a strict script fails by the store just when one of its reads
  does.
-/

namespace SwitchMib.Store
set_option autoImplicit false

inductive Read where
  | keys (ns : Namespace) (db : Database) (pattern : String)
  | getAll (ns : Namespace) (db : Database) (key : String)

namespace Read

abbrev Answer : Read → Type
  | keys _ _ _ => List String
  | getAll _ _ _ => Fields

def answer : (r : Read) → Except StoreError r.Answer
  | keys ns db pattern => ns.keys db pattern
  | getAll ns db key => ns.getAll db key

/-- Why a read fails, if it does. -/
def failure (r : Read) : Option StoreError :=
  match r.answer with
  | .ok _ => none
  | .error e => some e

end Read

inductive Script (α : Type) where
  | done (a : α)
  | fail (e : AgentError)
  | tell (e : Event) (rest : Script α)
  | ask (r : Read) (rest : Except StoreError r.Answer → Script α)

namespace Script

variable {α β : Type}

def bind (x : Script α) (f : α → Script β) : Script β :=
  match x with
  | done a => f a
  | fail e => fail e
  | tell e rest => tell e (rest.bind f)
  | ask r rest => ask r fun answer => (rest answer).bind f

instance : Monad Script where
  pure := done
  bind := bind

/-- Goes on with an answer, or gives up without one. -/
def orFail : Except StoreError α → Script α
  | .ok a => done a
  | .error e => fail (.store e)

def keys (ns : Namespace) (db : Database) (pattern : String) : Script (List String) :=
  ask (.keys ns db pattern) orFail

def getAll (ns : Namespace) (db : Database) (key : String) : Script Fields :=
  ask (.getAll ns db key) orFail

def warn (e : Event) : Script Unit := tell e (done ())

/-- What a script loads from the store as it is. -/
def run : Script α → Load AgentError α
  | done a => pure a
  | fail e => throw e
  | tell e rest => do
    Load.tell e
    rest.run
  | ask r rest => (rest r.answer).run

/-- The reads that a script performs, in order. -/
def reads : Script α → List Read
  | done _ => []
  | fail _ => []
  | tell _ rest => rest.reads
  | ask r rest => r :: (rest r.answer).reads

/-! ## Running parts of a script -/

@[simp] theorem run_pure (a : α) : (pure a : Script α).run = pure a := rfl

@[simp] theorem run_fail (e : AgentError) : (fail e : Script α).run = throw e := rfl

@[simp] theorem run_warn (e : Event) : (warn e).run = Load.tell e := by
  rw [warn, run, run]
  exact bind_pure_unit

@[simp] theorem run_bind (x : Script α) (f : α → Script β) :
    (x >>= f).run = x.run >>= fun a => (f a).run := by
  induction x with
  | done a => exact (pure_bind a fun a => (f a).run).symm
  | fail e => rfl
  | tell e rest ih =>
    show (do Load.tell e; (rest >>= f).run) = (do Load.tell e; rest.run) >>= fun a => (f a).run
    rw [ih, bind_assoc]
  | ask r rest ih => exact ih r.answer

@[simp] theorem run_foldlM (f : β → α → Script β) (b : β) (l : List α) :
    (l.foldlM f b).run = l.foldlM (fun b a => (f b a).run) b := by
  induction l generalizing b with
  | nil => rfl
  | cons a l ih =>
    rw [List.foldlM_cons, List.foldlM_cons, run_bind]
    exact congrArg _ (funext ih)

theorem run_orFail (answer : Except StoreError α) : (orFail answer).run = Load.ofRead answer := by
  cases answer <;> rfl

@[simp] theorem run_keys (ns : Namespace) (db : Database) (pattern : String) :
    (keys ns db pattern).run = Load.ofRead (ns.keys db pattern) := run_orFail _

@[simp] theorem run_getAll (ns : Namespace) (db : Database) (key : String) :
    (getAll ns db key).run = Load.ofRead (ns.getAll db key) := run_orFail _

/-! ## Strictness -/

/-- A script gives up at every read that fails, but for the lenient ones, and names the store for
no other reason. -/
def Strict (lenient : Read → Bool) : Script α → Prop
  | done _ => True
  | fail e => ∀ error, e ≠ .store error
  | tell _ rest => rest.Strict lenient
  | ask r rest => (∀ a, (rest (.ok a)).Strict lenient) ∧
      ∀ e, if lenient r then (rest (.error e)).Strict lenient
        else rest (.error e) = fail (.store e)

section Strict

variable {lenient : Read → Bool}

theorem Strict.pure (a : α) : (pure a : Script α).Strict lenient := trivial

theorem Strict.warn (e : Event) : (warn e).Strict lenient := trivial

theorem Strict.orFail {r : Read} (h : lenient r = false) :
    (ask r orFail).Strict lenient := by
  refine ⟨fun a => trivial, fun e => ?_⟩
  rw [if_neg (by simp [h])]
  rfl

theorem Strict.ofLenient {r : Read} {rest : Except StoreError r.Answer → Script α}
    (hr : lenient r = true) (h : ∀ answer, (rest answer).Strict lenient) :
    (ask r rest).Strict lenient := by
  refine ⟨fun a => h (.ok a), fun e => ?_⟩
  rw [if_pos hr]
  exact h (.error e)

theorem Strict.bind {x : Script α} {f : α → Script β} (hx : x.Strict lenient)
    (hf : ∀ a, (f a).Strict lenient) : (x >>= f).Strict lenient := by
  induction x with
  | done a => exact hf a
  | fail e => exact hx
  | tell e rest ih => exact ih hx
  | ask r rest ih =>
    obtain ⟨hok, herror⟩ := hx
    refine ⟨fun a => ih (.ok a) (hok a), fun e => ?_⟩
    have he := herror e
    by_cases hr : lenient r = true
    · rw [if_pos hr] at he ⊢
      exact ih (.error e) he
    · rw [if_neg hr] at he ⊢
      show (rest (.error e)).bind f = _
      rw [he]
      rfl

theorem Strict.foldlM {f : β → α → Script β} (hf : ∀ b a, (f b a).Strict lenient) (b : β)
    (l : List α) : (l.foldlM f b).Strict lenient := by
  induction l generalizing b with
  | nil => exact Strict.pure b
  | cons a l ih =>
    rw [List.foldlM_cons]
    exact (hf b a).bind ih

/-- A strict script fails by the store just when one of its reads does, lenient ones apart, and
with the error of that read. -/
theorem outcome_run_eq_store_iff {x : Script α} (h : x.Strict lenient) {e : StoreError} :
    x.run.outcome = .error (.store e) ↔
      ∃ r ∈ x.reads, lenient r = false ∧ r.failure = some e := by
  induction x with
  | done a => simp [run, reads]
  | fail error =>
    constructor
    · exact fun heq => absurd (Except.error.inj heq) (h e)
    · rintro ⟨r, hr, -⟩
      cases hr
  | tell event rest ih =>
    rw [run, Load.outcome_bind, Load.outcome_tell]
    exact ih h
  | ask r rest ih =>
    obtain ⟨hok, herror⟩ := h
    simp only [run, reads, List.mem_cons, exists_eq_or_imp]
    cases hanswer : r.answer with
    | ok a =>
      have hfine : r.failure = none := by rw [Read.failure, hanswer]
      rw [ih (.ok a) (hok a)]
      simp [hfine]
    | error e' =>
      have hfailed : r.failure = some e' := by rw [Read.failure, hanswer]
      have hrest := herror e'
      by_cases hr : lenient r = true
      · rw [if_pos hr] at hrest
        rw [ih (.error e') hrest]
        simp [hr]
      · -- the script has ended, and no read follows
        rw [if_neg hr] at hrest
        have houtcome : (rest (.error e')).run.outcome = .error (.store e') := by
          rw [hrest]
          rfl
        have hlast : (rest (.error e')).reads = [] := by
          rw [hrest]
          rfl
        rw [houtcome, hlast]
        simp [hr, hfailed]

end Strict

end Script

end SwitchMib.Store
