import SwitchMib.Config.Settings
import SwitchMib.Proofs.Log
import SwitchMib.Store.Namespaces

/-!
# Where the host stands among the namespaces

The first namespace of a device is taken for the host and, where there are others, left out of all
aggregated reads. So it matters that the list of namespaces starts with the host and has it only
once. A file that lists others is put into that order when it is loaded; a list in the settings is
taken as it stands, and nobody looks whether the host is missing or occurs twice.

* `HostLeads`: the host comes first and nowhere else.
* `hostLeads_hostFirst_iff`: what the reordering of a list can do, and what it cannot.
* `listedIn`, `loadNamespaces_eq_ok`: what a file lists, and the namespaces that it gives.
* `Settings.HostOnce`: what the settings and their file say about the host.
* `Settings.hostLeads_iff_of_validate`: validated settings have the host first just when they say
  so.
-/

namespace SwitchMib.Config
set_option autoImplicit false

open Document Store

/-- The host comes first and nowhere else. -/
def HostLeads : List NamespaceSettings → Prop
  | [] => False
  | first :: rest => first.name = "" ∧ ∀ ns ∈ rest, ns.name ≠ ""

/-! ## Lists put into order -/

section Order

variable {namespaces : List NamespaceSettings}

theorem hostLeads_append_iff {hosts chips : List NamespaceSettings}
    (hhosts : ∀ ns ∈ hosts, ns.name = "") (hchips : ∀ ns ∈ chips, ns.name ≠ "") :
    HostLeads (hosts ++ chips) ↔ hosts.length = 1 := by
  rcases hosts with _ | ⟨first, _ | ⟨second, rest⟩⟩
  · cases chips with
    | nil => simp [HostLeads]
    | cons chip chips =>
      have hchip : chip.name ≠ "" := hchips chip List.mem_cons_self
      simp [HostLeads, hchip]
  · have hfirst : first.name = "" := hhosts first List.mem_cons_self
    simpa [HostLeads, hfirst] using hchips
  · have hsecond : second.name = "" := hhosts second (by simp)
    simp [HostLeads, hsecond]

/-- A list that is put into order has the host first just when one of its entries is the host. -/
theorem hostLeads_hostFirst_iff :
    HostLeads (hostFirst namespaces) ↔ namespaces.countP (·.name == "") = 1 := by
  have hhosts : ∀ ns ∈ namespaces.filter (·.name == ""), ns.name = "" := by
    intro ns hns
    exact eq_of_beq (List.mem_filter.1 hns).2
  have hchips : ∀ ns ∈ namespaces.filter (·.name != ""), ns.name ≠ "" := by
    intro ns hns
    exact bne_iff_ne.1 (List.mem_filter.1 hns).2
  rw [hostFirst, hostLeads_append_iff hhosts hchips, List.countP_eq_length_filter]

/-- Of a device with several namespaces the reads go to just those that have a name. -/
theorem hostLeads_iff_members {connect : NamespaceSettings → Namespace}
    (hname : ∀ ns, (connect ns).name = ns.name) {n : Namespaces}
    (hn : Namespaces.ofList? (namespaces.map connect) = some n) :
    HostLeads namespaces ↔ n.host.name = "" ∧ (n.chips ≠ [] →
      n.members.map (·.name) = (namespaces.map (·.name)).filter (· != "")) := by
  cases namespaces with
  | nil => cases hn
  | cons first rest =>
    obtain rfl : (⟨connect first, rest.map connect⟩ : Namespaces) = n := Option.some.inj hn
    have hrest : (rest.map connect).map (·.name) = rest.map (·.name) := by
      simp [Function.comp_def, hname]
    cases rest with
    | nil => simp [HostLeads, hname]
    | cons second rest =>
      have hmembers : Namespaces.members ⟨connect first, (second :: rest).map connect⟩ =
          (second :: rest).map connect := rfl
      rw [hmembers, hrest, HostLeads, hname]
      have hkept : (∀ ns ∈ second :: rest, ns.name ≠ "") ↔
          ((second :: rest).map (·.name)).filter (· != "") = (second :: rest).map (·.name) := by
        rw [List.filter_eq_self, List.forall_mem_map]
        simp only [bne_iff_ne]
      constructor
      · rintro ⟨hfirst, hchips⟩
        refine ⟨hfirst, fun _ => ?_⟩
        rw [List.map_cons (a := first), hfirst]
        exact (hkept.1 hchips).symm
      · rintro ⟨hfirst, hreads⟩
        have hsame := hreads (by simp)
        rw [List.map_cons (a := first), hfirst] at hsame
        exact ⟨hfirst, hkept.2 hsame.symm⟩

end Order

/-! ## Namespaces from a file -/

section Files

theorem run_bind_eq_ok_iff {ε α β : Type} {x : ExceptT ε Id α} {f : α → ExceptT ε Id β} {b : β} :
    (x >>= f).run = .ok b ↔ ∃ a, x.run = .ok a ∧ (f a).run = .ok b := by
  have hbind : (x >>= f).run = match x.run with
      | .ok a => (f a).run
      | .error e => .error e := by
    show (ExceptT.bindCont f x.run : Except ε β) = _
    cases x.run <;> rfl
  rw [hbind]
  cases x.run with
  | error e => simp
  | ok a =>
    constructor
    · exact fun h => ⟨a, rfl, h⟩
    · rintro ⟨_, ha, h⟩
      cases ha
      exact h

variable {read : TextReader Id}

theorem name_of_toSettings {file : EndpointFile} {path name : String} {ns : NamespaceSettings}
    (h : file.toSettings path name = .ok ns) : ns.name = name := by
  unfold EndpointFile.toSettings at h
  cases hserver : file.instances.get? file.mainInstance with
  | none =>
    rw [hserver] at h
    cases h
  | some server =>
    rw [hserver] at h
    rw [← Except.ok.inj h]

theorem name_of_settingsOfDatum {path name : String} {d : Datum} {ns : NamespaceSettings}
    (h : settingsOfDatum path name d = .ok ns) : ns.name = name := by
  unfold settingsOfDatum at h
  cases hfile : EndpointFile.ofDatum? d with
  | none =>
    rw [hfile] at h
    cases h
  | some file =>
    rw [hfile] at h
    exact name_of_toSettings h

theorem name_of_loadInclude {path : String} {entry : Include} {ns : NamespaceSettings}
    (h : (loadInclude read path entry).run = .ok ns) : ns.name = entry.name := by
  obtain ⟨d, -, hns⟩ := run_bind_eq_ok_iff.1 h
  exact name_of_settingsOfDatum hns

/-- Every entry gives one namespace of its name. -/
theorem names_of_includes {path : String} {includes : List Include}
    {namespaces : List NamespaceSettings}
    (h : (includes.mapM (loadInclude read path)).run = .ok namespaces) :
    namespaces.map (·.name) = includes.map (·.name) := by
  induction includes generalizing namespaces with
  | nil =>
    obtain rfl : [] = namespaces := Except.ok.inj h
    rfl
  | cons entry includes ih =>
    rw [List.mapM_cons] at h
    obtain ⟨ns, hns, h⟩ := run_bind_eq_ok_iff.1 h
    obtain ⟨later, hlater, h⟩ := run_bind_eq_ok_iff.1 h
    obtain rfl : ns :: later = namespaces := Except.ok.inj h
    rw [List.map_cons, List.map_cons, ih hlater, name_of_loadInclude hns]

theorem fetchDatum_eq_ok {path : String} {d : Datum} (h : (fetchDatum read path).run = .ok d) :
    ∃ text, read path = .ok text ∧ Json.parseDatum text = some d := by
  obtain ⟨text, htext, hd⟩ := run_bind_eq_ok_iff.1 h
  have hread : read path = .ok text := by
    have hfetch : (fetch read path).run = match read path with
        | .ok s => .ok s
        | .error fault => .error (.file fault) := by
      show (match read path with
        | .ok s => pure (.ok s)
        | .error fault => pure (.error (.file fault)) : Id (Except AgentError String)) = _
      cases read path <;> rfl
    rw [hfetch] at htext
    cases hfile : read path with
    | error fault =>
      rw [hfile] at htext
      cases htext
    | ok s =>
      rw [hfile] at htext
      rw [Except.ok.inj htext]
  refine ⟨text, hread, ?_⟩
  cases hparsed : Json.parseDatum text with
  | none =>
    rw [hparsed] at hd
    cases hd
  | some found =>
    rw [hparsed] at hd
    obtain rfl : found = d := Except.ok.inj hd
    rfl

/-- The entries of a file that lists others. -/
def listedIn (read : TextReader Id) (path : String) : Option (List Include) := do
  let text ← (Id.run (read path)).toOption
  let d ← Json.parseDatum text
  if listsOthers d then readIncludes d else none

/-- A file either lists others, each entry being loaded and the host put first, or it describes one
namespace itself. -/
theorem loadNamespaces_cases {path : String} {namespaces : List NamespaceSettings}
    (h : (loadNamespaces read path).run = .ok namespaces) :
    match listedIn read path with
    | some includes => ∃ listed, (includes.mapM (loadInclude read path)).run = .ok listed ∧
      listed ≠ [] ∧ namespaces = hostFirst listed
    | none => ∃ d ns, (fetchDatum read path).run = .ok d ∧ settingsOfDatum path "" d = .ok ns ∧
      namespaces = [ns] := by
  obtain ⟨d, hd, h⟩ := run_bind_eq_ok_iff.1 h
  obtain ⟨text, hread, hparsed⟩ := fetchDatum_eq_ok hd
  have hlisted : listedIn read path = if listsOthers d then readIncludes d else none := by
    have htext : (Id.run (read path)).toOption = some text := congrArg Except.toOption hread
    rw [listedIn, htext, Option.bind_eq_bind, Option.bind_some, hparsed]
    rfl
  rw [hlisted]
  cases hlists : listsOthers d with
  | false =>
    rw [hlists, if_pos (by rfl)] at h
    cases hns : settingsOfDatum path "" d with
    | error e =>
      rw [hns] at h
      cases h
    | ok ns =>
      rw [hns] at h
      exact ⟨d, ns, hd, hns, (Except.ok.inj h).symm⟩
  | true =>
    rw [hlists, if_neg (by simp)] at h
    cases hincludes : readIncludes d with
    | none =>
      rw [hincludes] at h
      cases h
    | some includes =>
      rw [hincludes] at h
      obtain ⟨listed, hloaded, h⟩ := run_bind_eq_ok_iff.1 h
      by_cases hnone : listed.isEmpty = true
      · rw [if_pos hnone] at h
        cases h
      · rw [if_neg hnone] at h
        exact ⟨listed, hloaded, fun hnil => hnone (List.isEmpty_iff.2 hnil),
          (Except.ok.inj h).symm⟩

/-- A file gives the namespaces that it lists with the host put first, or one that is nameless. -/
theorem loadNamespaces_eq_ok {path : String} {namespaces : List NamespaceSettings}
    (h : (loadNamespaces read path).run = .ok namespaces) :
    match listedIn read path with
    | some includes => ∃ listed, listed.map (·.name) = includes.map (·.name) ∧
      namespaces = hostFirst listed
    | none => ∃ ns, ns.name = "" ∧ namespaces = [ns] := by
  have hgives := loadNamespaces_cases h
  cases hlisted : listedIn read path with
  | none =>
    rw [hlisted] at hgives
    obtain ⟨d, ns, -, hns, rfl⟩ := hgives
    exact ⟨ns, name_of_settingsOfDatum hns, rfl⟩
  | some includes =>
    rw [hlisted] at hgives
    obtain ⟨listed, hloaded, -, rfl⟩ := hgives
    exact ⟨listed, names_of_includes hloaded, rfl⟩

end Files

/-! ## Validated settings -/

namespace Settings

/-- The settings list the host first and only once, or their file is that of one namespace, or it
lists the host once, at any place. -/
def HostOnce (read : TextReader Id) (s : Settings) : Prop :=
  match s.database.endpointFile with
  | none => HostLeads s.database.namespaces
  | some path => ∀ includes ∈ listedIn read path, includes.countP (·.name == "") = 1

theorem countP_name_eq {namespaces : List NamespaceSettings} {includes : List Include}
    (h : namespaces.map (·.name) = includes.map (·.name)) :
    namespaces.countP (·.name == "") = includes.countP (·.name == "") := by
  have hcount := congrArg (List.countP (· == "")) h
  rw [List.countP_map, List.countP_map] at hcount
  exact hcount

theorem hostLeads_iff_hostOnce {read : TextReader Id} {s : Settings}
    {namespaces : List NamespaceSettings} (h : (s.namespaces read).run = .ok namespaces) :
    HostLeads namespaces ↔ s.HostOnce read := by
  unfold Settings.namespaces at h
  unfold HostOnce
  cases hpath : s.database.endpointFile with
  | none =>
    rw [hpath] at h
    obtain rfl : s.database.namespaces = namespaces := Except.ok.inj h
    rfl
  | some path =>
    rw [hpath] at h
    have hgives := loadNamespaces_eq_ok h
    simp only
    cases hlisted : listedIn read path with
    | none =>
      rw [hlisted] at hgives
      obtain ⟨ns, hname, rfl⟩ := hgives
      simp [HostLeads, hname]
    | some includes =>
      rw [hlisted] at hgives
      obtain ⟨listed, hnames, rfl⟩ := hgives
      rw [hostLeads_hostFirst_iff, countP_name_eq hnames]
      simp

theorem check_of_validate {read : TextReader Id} {s : Settings}
    (h : (Id.run (s.validate read)).outcome = .ok ()) :
    ∃ namespaces, (s.namespaces read).run = .ok namespaces ∧
      (s.check namespaces).outcome = .ok () := by
  have hvalidate : Id.run (s.validate read) = match (s.namespaces read).run with
      | .ok namespaces => s.check namespaces
      | .error e => throw e := by
    show (match (s.namespaces read).run with
      | .ok namespaces => pure (s.check namespaces)
      | .error e => pure (throw e) : Id (Load AgentError Unit)) = _
    cases (s.namespaces read).run <;> rfl
  rw [hvalidate] at h
  cases hload : (s.namespaces read).run with
  | error e =>
    rw [hload] at h
    cases h
  | ok namespaces =>
    rw [hload] at h
    exact ⟨namespaces, rfl, h⟩

theorem namespaces_of_validate {read : TextReader Id} {s : Settings}
    (h : (Id.run (s.validate read)).outcome = .ok ()) :
    ∃ namespaces, (s.namespaces read).run = .ok namespaces ∧ namespaces ≠ [] := by
  obtain ⟨namespaces, hload, hcheck⟩ := check_of_validate h
  refine ⟨namespaces, hload, ?_⟩
  rintro rfl
  cases hcheck

/-- Validated settings give a list of namespaces. It has the host first and only there just when
the settings name the host once at a place where it can be put first, and just then a device with
the namespaces of the list reads from all chips and, where there are chips, from nothing else. -/
theorem hostLeads_iff_of_validate {read : TextReader Id} {s : Settings}
    (h : (Id.run (s.validate read)).outcome = .ok ()) :
    ∃ namespaces, (s.namespaces read).run = .ok namespaces ∧
      (HostLeads namespaces ↔ s.HostOnce read) ∧
      ∀ connect : NamespaceSettings → Namespace, (∀ ns, (connect ns).name = ns.name) →
        ∃ n, Namespaces.ofList? (namespaces.map connect) = some n ∧
          (s.HostOnce read ↔ n.host.name = "" ∧ (n.chips ≠ [] →
            n.members.map (·.name) = (namespaces.map (·.name)).filter (· != ""))) := by
  obtain ⟨namespaces, hload, hsome⟩ := namespaces_of_validate h
  have hleads := hostLeads_iff_hostOnce hload
  refine ⟨namespaces, hload, hleads, fun connect hname => ?_⟩
  cases hn : Namespaces.ofList? (namespaces.map connect) with
  | none =>
    cases namespaces with
    | nil => exact absurd rfl hsome
    | cons first rest => cases hn
  | some n => exact ⟨n, rfl, hleads.symm.trans (hostLeads_iff_members hname hn)⟩

/-- The file of one namespace, and a file that lists it for a chip and then for the host. -/
def readTwoIncludes : TextReader Id := fun path =>
  if path = "global.json" then .ok
    ("\x7b\"INCLUDES\":[\x7b\"namespace\":\"asic0\",\"include\":\"one.json\"\x7d," ++
      "\x7b\"include\":\"one.json\"\x7d]\x7d")
  else if path = "one.json" then .ok
    ("\x7b\"INSTANCES\":\x7b\"redis\":\x7b\"hostname\":\"h\",\"port\":1\x7d\x7d," ++
      "\"DATABASES\":\x7b\x7d\x7d")
  else .error .notFound

/-- A file that lists the host after a chip is accepted, and the host is put first. -/
theorem hostLeads_of_two_includes :
    let s : Settings := { standard with database := ⟨some "global.json", []⟩ }
    (Id.run (s.validate readTwoIncludes)).outcome = .ok () ∧
      ∃ namespaces, (s.namespaces readTwoIncludes).run = .ok namespaces ∧
        namespaces.map (·.name) = ["", "asic0"] ∧ HostLeads namespaces := by
  intro s
  obtain ⟨hvalidOk, hnames, hall⟩ : (Id.run (s.validate readTwoIncludes)).outcome.isOk = true ∧
      (Id.run (s.namespaces readTwoIncludes).run).toOption.map (·.map (·.name)) =
        some ["", "asic0"] ∧
      ((listedIn readTwoIncludes "global.json").all fun includes =>
        includes.countP (·.name == "") == 1) = true := by decide +kernel
  obtain ⟨⟨⟩, hvalid⟩ := exists_eq_ok_of_isOk hvalidOk
  obtain ⟨namespaces, hload, hleads, -⟩ := hostLeads_iff_of_validate hvalid
  have hfound : (Id.run (s.namespaces readTwoIncludes).run).toOption = some namespaces :=
    congrArg Except.toOption hload
  rw [hfound] at hnames
  have honce : s.HostOnce readTwoIncludes := fun includes hincludes =>
    eq_of_beq (Option.all_eq_true _ _ |>.1 hall includes hincludes)
  exact ⟨hvalid, namespaces, hload, Option.some.inj hnames, hleads.2 honce⟩

/-- A list that has the host after a chip is accepted as it stands: the chip passes for the host
and is not read from, and the host passes for a chip. -/
theorem not_hostLeads_of_listed_chip :
    let chip : NamespaceSettings := { NamespaceSettings.standard with name := "asic0" }
    let s : Settings := { standard with database := ⟨none, [chip, .standard]⟩ }
    (∀ read : TextReader Id, (Id.run (s.validate read)).outcome = .ok () ∧
      (s.namespaces read).run = .ok [chip, .standard]) ∧
    ¬ HostLeads [chip, .standard] ∧
    (∀ connect : NamespaceSettings → Namespace, (∀ ns, (connect ns).name = ns.name) →
      ∃ n, Namespaces.ofList? ([chip, .standard].map connect) = some n ∧
        n.host.name = "asic0" ∧ n.members.map (·.name) = [""]) ∧
    ¬ ∀ (read : TextReader Id) (s : Settings) (namespaces : List NamespaceSettings),
      (Id.run (s.validate read)).outcome = .ok () →
      (s.namespaces read).run = .ok namespaces → HostLeads namespaces := by
  intro chip s
  have haccepted : ∀ read : TextReader Id, (Id.run (s.validate read)).outcome = .ok () ∧
      (s.namespaces read).run = .ok [chip, .standard] := fun read => ⟨rfl, rfl⟩
  have hleads : ¬ HostLeads [chip, .standard] := by
    rintro ⟨hname, -⟩
    revert hname
    decide
  refine ⟨haccepted, hleads, fun connect hname => ?_, fun hall => ?_⟩
  · exact ⟨⟨connect chip, [connect .standard]⟩, rfl, hname chip,
      congrArg (fun name => [name]) (hname .standard)⟩
  · obtain ⟨hvalid, hload⟩ := haccepted fun _ => .error .notFound
    exact hleads (hall _ s _ hvalid hload)

end Settings

end SwitchMib.Config
