import SwitchMib.Proofs.Mib.Renewal

/-!
# A table over its life

A table is built once and then lives through turns in any order: the world around it changes, it
refreshes, it reinitialises, it is queried. Refreshes and reinits may fail.

* `Turn`, `Session`, `Session.run`: the turns, and a table with the world around it.
* `Session.Opened`: the table has just been built.
* `Session.run_induction`: what every operation keeps, a table has all its life.
* `Session.answersAs_build_of_renewed`: a renewed table answers as a new one, whatever it has been
  through.
-/

namespace SwitchMib.Mib
set_option autoImplicit false

open Identity Snmp

/-- Something that happens to a table or to the world around it. -/
inductive Turn where
  /-- The world is another one: stores are written, reads begin or cease to fail. -/
  | change (out : Outside)
  | refresh
  | reinit
  /-- A cell is read. -/
  | query (sub : SubId)

structure Session where
  world : Outside
  table : Updater

namespace Session

/-- What happens in one turn. After a failure the session goes on with what the table is then. -/
def step (s : Session) : Turn → Session
  | .change out => { s with world := out }
  | .refresh => { s with table := (s.table.refresh s.world).value.after }
  | .reinit => { s with table := (s.table.reinit s.world).value.after }
  | .query sub => { s with table := (s.table.noteRead sub).value }

def run (s : Session) (turns : List Turn) : Session := turns.foldl step s

/-- The table has just been built. -/
def Opened (s : Session) (b : Blueprint) : Prop := (b.build s.world).outcome = .ok s.table

/-- The table that can be built in a world; where none can, the blank one. -/
def start (b : Blueprint) (world : Outside) : Session where
  world
  table := match (b.build world).outcome with
    | .ok u => u
    | .error _ => b.blank

theorem opened_start {b : Blueprint} {world : Outside}
    (h : (b.build world).outcome.isOk = true) : (start b world).Opened b := by
  obtain ⟨u, hu⟩ := exists_eq_ok_of_isOk h
  simp only [Opened, start, hu]

@[simp] theorem run_append (s : Session) (turns later : List Turn) :
    s.run (turns ++ later) = (s.run turns).run later := List.foldl_append

/-- What refreshes, reinits and reads keep, the table has after any turns. -/
theorem run_induction {P : Updater → Prop}
    (hrefresh : ∀ out u, P u → P (u.refresh out).value.after)
    (hreinit : ∀ out u, P u → P (u.reinit out).value.after)
    (hread : ∀ sub u, P u → P (u.noteRead sub).value) {s : Session} (hs : P s.table)
    (turns : List Turn) : P (s.run turns).table := by
  induction turns generalizing s with
  | nil => exact hs
  | cons turn turns ih =>
    refine ih (s := s.step turn) ?_
    cases turn with
    | change out => exact hs
    | refresh => exact hrefresh s.world s.table hs
    | reinit => exact hreinit s.world s.table hs
    | query sub => exact hread sub s.table hs

/-- What the blank table has and every operation keeps, a table has from its building on. -/
theorem life_induction {P : Updater → Prop} {b : Blueprint} (hblank : P b.blank)
    (hrefresh : ∀ out u, P u → P (u.refresh out).value.after)
    (hreinit : ∀ out u, P u → P (u.reinit out).value.after)
    (hread : ∀ sub u, P u → P (u.noteRead sub).value) {s : Session} (hs : s.Opened b)
    (turns : List Turn) : P (s.run turns).table := by
  refine run_induction hrefresh hreinit hread ?_ turns
  -- a new table is the blank one after a reinit and a refresh
  rw [Opened, Blueprint.outcome_build] at hs
  obtain ⟨-, -, hafter⟩ := (Updater.renew_eq_ok_iff s.world).1 hs
  rw [← hafter]
  exact hrefresh s.world _ (hreinit s.world _ hblank)

end Session

/-! ## A table keeps to its blueprint -/

namespace Updater

theorem blueprint_refresh (out : Outside) (u : Updater) :
    (u.refresh out).value.after.blueprint = u.blueprint := by
  cases u <;> rfl

theorem blueprint_reinit (out : Outside) (u : Updater) :
    (u.reinit out).value.after.blueprint = u.blueprint := by
  cases u <;> rfl

theorem blueprint_noteRead (sub : SubId) (u : Updater) :
    (u.noteRead sub).value.blueprint = u.blueprint := by
  cases u <;> rfl

end Updater

theorem Blueprint.blueprint_blank (b : Blueprint) : b.blank.blueprint = b := by
  cases b <;> rfl

namespace Session

theorem blueprint_run {s : Session} {b : Blueprint} (hs : s.Opened b) (turns : List Turn) :
    (s.run turns).table.blueprint = b := by
  refine life_induction (P := fun u => u.blueprint = b) b.blueprint_blank ?_ ?_ ?_ hs turns
  · exact fun out u h => (u.blueprint_refresh out).trans h
  · exact fun out u h => (u.blueprint_reinit out).trans h
  · exact fun sub u h => (u.blueprint_noteRead sub).trans h

/-! ## The past does not matter -/

/-- Whatever a table has been through, once a reinit and right after it a refresh succeed it
answers as a table that is built anew in the same world, and such a table can be built. -/
theorem answersAs_build_of_renewed {s : Session} {b : Blueprint} (hs : s.Opened b)
    (turns : List Turn) :
    let t := s.run turns
    (t.table.reinit t.world).value.outcome = .ok () →
    ((t.step .reinit).table.refresh t.world).value.outcome = .ok () →
    ∃ fresh, (b.build t.world).outcome = .ok fresh ∧
      AnswersAs (s.run (turns ++ [.reinit, .refresh])).table fresh := by
  intro t hreinit hrefresh
  have hkind : t.table.blueprint = b := blueprint_run hs turns
  have hrenew : (Updater.upkeep t.world).renew t.table =
      .ok (s.run (turns ++ [.reinit, .refresh])).table := by
    rw [run_append]
    exact (Updater.renew_eq_ok_iff t.world).2 ⟨hreinit, hrefresh, rfl⟩
  have hsame := Updater.committed_renew t.world t.table
  rw [hrenew, hkind] at hsame
  cases hfresh : (b.build t.world).outcome with
  | error e =>
    rw [hfresh] at hsame
    cases hsame
  | ok fresh =>
    rw [hfresh] at hsame
    exact ⟨fresh, rfl, Updater.answersAs_of_committed (Except.ok.inj hsame)⟩

/-- A world in which one port has a name and nothing else is known. -/
def worldOfPort (name : String) : Outside where
  namespaces :=
    ⟨(Store.Namespace.empty "").setFields .counters Store.Schema.portNameMap
      [(name, "oid:0x1000000000001")], []⟩
  neighbours := .ok ""
  platform := ⟨.ok 0, fun _ => .ok false, fun _ => .ok false⟩

/-- A refresh alone keeps the row of a port under its former name; a renewal shows the port under
its new name, as a new table does. -/
theorem answersAs_build_of_renamed_port :
    let s := start .interfaces (worldOfPort "Ethernet0")
    let turns := [.change (worldOfPort "Ethernet4"), .refresh, .query [2, 1, 10, 1]]
    let t := s.run turns
    s.Opened .interfaces ∧ (t.table.reinit t.world).value.outcome = .ok () ∧
      ((t.step .reinit).table.refresh t.world).value.outcome = .ok () ∧
      t.table.next [2, 1] = some [2, 1, 1, 1] ∧
      (s.run (turns ++ [.reinit, .refresh])).table.next [2, 1] = some [2, 1, 1, 5] ∧
      ∃ fresh, (Blueprint.interfaces.build t.world).outcome = .ok fresh ∧
        AnswersAs (s.run (turns ++ [.reinit, .refresh])).table fresh := by
  intro s turns t
  have hs : s.Opened .interfaces := opened_start (by decide +kernel)
  obtain ⟨⟨⟩, hreinit⟩ : ∃ done, (t.table.reinit t.world).value.outcome = .ok done :=
    exists_eq_ok_of_isOk (by decide +kernel)
  obtain ⟨⟨⟩, hrefresh⟩ :
      ∃ done, ((t.step .reinit).table.refresh t.world).value.outcome = .ok done :=
    exists_eq_ok_of_isOk (by decide +kernel)
  exact ⟨hs, hreinit, hrefresh, by decide +kernel, by decide +kernel,
    answersAs_build_of_renewed hs turns hreinit hrefresh⟩

end Session

end SwitchMib.Mib
