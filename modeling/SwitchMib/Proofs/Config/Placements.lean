import Mathlib.Data.List.Forall2
import SwitchMib.Proofs.Config.HostFirst
import SwitchMib.Proofs.Dict

/-!
# Where the databases of a namespace are read

The file of a namespace puts every database on a server of its own choice. The settings that are
made of it know one endpoint, the one of the server with the application database, and a number
for every database. So a database is found where the file puts it just when a connection to its
server goes to that endpoint, be it the same server or another one with the same socket.

* `sources`: the files of the single namespaces.
* `NamespaceSettings.Reaches`: a database is read where a file puts it.
* `Placed`: what the settings of a namespace keep of its file.
* `placed_of_loadNamespaces`: all namespaces that a file gives.
-/

namespace SwitchMib.Config
set_option autoImplicit false

open Document Store

/-! ## One namespace -/

namespace NamespaceSettings

/-- The namespace has host, port and socket of a server. -/
def At (ns : NamespaceSettings) (server : Instance) : Prop :=
  ns.host = server.hostname ∧ ns.port = server.port ∧ ns.socket = server.socket

instance (ns : NamespaceSettings) (server : Instance) : Decidable (ns.At server) :=
  inferInstanceAs (Decidable (_ ∧ _))

/-- A database is read from the server and under the number that a file assigns to it. -/
def Reaches (ns : NamespaceSettings) (file : EndpointFile) (db : Database) : Prop :=
  ∃ placement, file.databases.get? db.name = some placement ∧
    ns.number db = placement.number ∧
    ∃ server, file.instances.get? placement.instanceName = some server ∧
      ns.endpoint = server.endpoint

theorem At.endpoint_eq {ns : NamespaceSettings} {server : Instance} (h : ns.At server) :
    ns.endpoint = server.endpoint := by
  obtain ⟨hhost, hport, hsocket⟩ := h
  rw [endpoint, Instance.endpoint, hhost, hport, hsocket]

end NamespaceSettings

/-- What the settings of a namespace keep of its file: the endpoint of the server that has the
application database, and the numbers of the databases that the agent knows. -/
structure Placed (file : EndpointFile) (ns : NamespaceSettings) : Prop where
  endpoint : ∃ server, file.instances.get? file.mainInstance = some server ∧ ns.At server
  numbers : ∀ db : Database,
    ns.databases.get? db.name = (file.databases.get? db.name).map Placement.number

namespace Placed

variable {file : EndpointFile} {ns : NamespaceSettings}

theorem number_of_listed (h : Placed file ns) {db : Database} {placement : Placement}
    (hlisted : file.databases.get? db.name = some placement) :
    ns.number db = placement.number := by
  rw [NamespaceSettings.number, h.numbers, hlisted]
  rfl

theorem number_of_unlisted (h : Placed file ns) {db : Database}
    (hlisted : file.databases.get? db.name = none) : ns.number db = db.defaultNumber := by
  rw [NamespaceSettings.number, h.numbers, hlisted]
  rfl

/-- A database is read where the file puts it just when a connection to its server goes where one
to the server with the application database goes. -/
theorem reaches_iff (h : Placed file ns) {db : Database} {placement : Placement}
    (hlisted : file.databases.get? db.name = some placement) {server : Instance}
    (hat : ns.At server) :
    ns.Reaches file db ↔ ∃ other, file.instances.get? placement.instanceName = some other ∧
      other.endpoint = server.endpoint := by
  constructor
  · rintro ⟨found, hfound, -, other, hother, hsame⟩
    obtain rfl : found = placement := Option.some.inj (hfound.symm.trans hlisted)
    exact ⟨other, hother, hsame.symm.trans hat.endpoint_eq⟩
  · rintro ⟨other, hother, hsame⟩
    exact ⟨placement, hlisted, h.number_of_listed hlisted, other, hother,
      hat.endpoint_eq.trans hsame.symm⟩

end Placed

theorem mainInstance_eq (file : EndpointFile) : file.mainInstance =
    ((file.databases.get? Database.appl.name).map Placement.instanceName).getD "redis" := by
  rw [EndpointFile.mainInstance]
  cases file.databases.get? Database.appl.name <;> rfl

theorem ofName?_name (db : Database) : (Database.ofName? db.name).isSome = true := by
  cases db <;> decide

/-- Of the databases of a file those that the agent knows keep their numbers. -/
theorem get?_known (databases : Dict String Placement) (db : Database) :
    let known := databases.toList.filter fun entry => (Database.ofName? entry.1).isSome
    (Dict.empty.insertAll (known.map fun entry => (entry.1, entry.2.number))).get? db.name =
      (databases.get? db.name).map Placement.number := by
  intro known
  have hlast := Bindings.last?_filter_map (fun name => (Database.ofName? name).isSome)
    (ofName?_name db) Placement.number databases.toList
  rw [Dict.get?_insertAll, hlast, Bindings.last?_of_sorted databases.sorted, Dict.get?_empty,
    Option.or_none, Dict.get?]

theorem placed_of_toSettings {file : EndpointFile} {path name : String} {ns : NamespaceSettings}
    (h : file.toSettings path name = .ok ns) : ns.name = name ∧ Placed file ns := by
  refine ⟨name_of_toSettings h, ?_⟩
  rw [EndpointFile.toSettings] at h
  cases hserver : file.instances.get? file.mainInstance with
  | none =>
    rw [hserver] at h
    cases h
  | some server =>
    rw [hserver] at h
    obtain rfl := Except.ok.inj h
    exact ⟨⟨server, hserver, rfl, rfl, rfl⟩, get?_known file.databases⟩

/-! ## All namespaces of a file -/

section Files

variable {read : TextReader Id}

/-- What the file at a path says, read as the file of one namespace. -/
def fileAt? (read : TextReader Id) (path : String) : Option EndpointFile := do
  let text ← (Id.run (read path)).toOption
  let d ← Json.parseDatum text
  EndpointFile.ofDatum? d

/-- The files of the single namespaces, each with the name of its namespace: those that a file
lists, taken from its own directory, or the file itself. -/
def sources (read : TextReader Id) (path : String) : List Include :=
  match listedIn read path with
  | some includes => includes.map fun entry => ⟨entry.name, Path.join (Path.parent path) entry.path⟩
  | none => [⟨"", path⟩]

/-- A namespace has the name of its source and is placed by the file there. -/
def TakenFrom (read : TextReader Id) (source : Include) (ns : NamespaceSettings) : Prop :=
  ns.name = source.name ∧ ∃ file, fileAt? read source.path = some file ∧ Placed file ns

theorem takenFrom_of_settingsOfDatum {path name : String} {d : Datum} {ns : NamespaceSettings}
    (hd : (fetchDatum read path).run = .ok d) (h : settingsOfDatum path name d = .ok ns) :
    TakenFrom read ⟨name, path⟩ ns := by
  obtain ⟨text, hread, hparsed⟩ := fetchDatum_eq_ok hd
  rw [settingsOfDatum] at h
  cases hfile : EndpointFile.ofDatum? d with
  | none =>
    rw [hfile] at h
    cases h
  | some file =>
    rw [hfile] at h
    obtain ⟨hname, hplaced⟩ := placed_of_toSettings h
    have htext : (Id.run (read path)).toOption = some text := congrArg Except.toOption hread
    have hsays : fileAt? read path = EndpointFile.ofDatum? d := by
      rw [fileAt?, htext, Option.bind_eq_bind, Option.bind_some, hparsed]
      rfl
    exact ⟨hname, file, hsays.trans hfile, hplaced⟩

theorem takenFrom_of_includes {path : String} {includes : List Include}
    {namespaces : List NamespaceSettings}
    (h : (includes.mapM (loadInclude read path)).run = .ok namespaces) :
    List.Forall₂ (TakenFrom read) (includes.map fun entry =>
      ⟨entry.name, Path.join (Path.parent path) entry.path⟩) namespaces := by
  induction includes generalizing namespaces with
  | nil =>
    obtain rfl : [] = namespaces := Except.ok.inj h
    exact .nil
  | cons entry includes ih =>
    rw [List.mapM_cons] at h
    obtain ⟨ns, hns, h⟩ := run_bind_eq_ok_iff.1 h
    obtain ⟨later, hlater, h⟩ := run_bind_eq_ok_iff.1 h
    obtain rfl : ns :: later = namespaces := Except.ok.inj h
    obtain ⟨d, hd, hsettings⟩ := run_bind_eq_ok_iff.1 hns
    exact .cons (takenFrom_of_settingsOfDatum hd hsettings) (ih hlater)

/-- Every source gives one namespace. -/
theorem takenFrom_of_loadNamespaces {path : String} {namespaces : List NamespaceSettings}
    (h : (loadNamespaces read path).run = .ok namespaces) :
    ∃ listed, listed ≠ [] ∧ List.Forall₂ (TakenFrom read) (sources read path) listed ∧
      namespaces = hostFirst listed := by
  have hgives := loadNamespaces_cases h
  rw [sources]
  cases hlisted : listedIn read path with
  | none =>
    rw [hlisted] at hgives
    obtain ⟨d, ns, hd, hns, rfl⟩ := hgives
    have hname : ns.name = "" := name_of_settingsOfDatum hns
    refine ⟨[ns], by simp, .cons (takenFrom_of_settingsOfDatum hd hns) .nil, ?_⟩
    simp [hostFirst, hname]
  | some includes =>
    rw [hlisted] at hgives
    obtain ⟨listed, hloaded, hsome, rfl⟩ := hgives
    exact ⟨listed, hsome, takenFrom_of_includes hloaded, rfl⟩

/-- Every namespace of an accepted file has host, port and socket of the server that its own file
gives the application database, or of the server `redis` where that database is not placed. Every
known database has the number of the file, and it is read where the file puts it just when a
connection to its server goes to the same socket, or to the same host and port. -/
theorem placed_of_loadNamespaces {path : String} {namespaces : List NamespaceSettings}
    (h : (loadNamespaces read path).run = .ok namespaces) :
    ∃ listed, listed ≠ [] ∧ namespaces = hostFirst listed ∧
      List.Forall₂ (fun source ns => ns.name = source.name ∧
        ∃ file server, fileAt? read source.path = some file ∧
          file.instances.get?
            (((file.databases.get? Database.appl.name).map Placement.instanceName).getD "redis") =
              some server ∧
          ns.At server ∧
          ∀ db : Database,
            (file.databases.get? db.name = none → ns.number db = db.defaultNumber) ∧
            ∀ placement, file.databases.get? db.name = some placement →
              ns.number db = placement.number ∧
              (ns.Reaches file db ↔
                ∃ other, file.instances.get? placement.instanceName = some other ∧
                  other.endpoint = server.endpoint))
        (sources read path) listed := by
  obtain ⟨listed, hsome, htaken, hfirst⟩ := takenFrom_of_loadNamespaces h
  refine ⟨listed, hsome, hfirst, htaken.imp ?_⟩
  rintro source ns ⟨hname, file, hfile, hplaced⟩
  obtain ⟨server, hmain, hat⟩ := hplaced.endpoint
  refine ⟨hname, file, server, hfile, mainInstance_eq file ▸ hmain, hat, fun db => ?_⟩
  refine ⟨hplaced.number_of_unlisted, fun placement hlisted => ?_⟩
  exact ⟨hplaced.number_of_listed hlisted, hplaced.reaches_iff hlisted hat⟩

/-- Two servers, of which the second is listed twice. One file puts the counters on the second
server and no other database anywhere, the other has the application database on the second server,
the counters there under its other name, and the configuration on the first. -/
def readTwoServers : TextReader Id := fun path =>
  let servers := "\x7b\"INSTANCES\":\x7b\"redis\":\x7b\"hostname\":\"h\",\"port\":1\x7d," ++
    "\"redis2\":\x7b\"hostname\":\"h\",\"port\":2,\"unix_socket_path\":\"s\"\x7d," ++
    "\"redis3\":\x7b\"hostname\":\"h\",\"port\":3,\"unix_socket_path\":\"s\"\x7d\x7d," ++
    "\"DATABASES\":\x7b"
  let counters := "\"COUNTERS_DB\":\x7b\"id\":2,\"instance\":\"redis2\"\x7d"
  if path = "counters.json" then .ok (servers ++ counters ++ "\x7d\x7d")
  else if path = "split.json" then .ok (servers ++ counters ++
    ",\"APPL_DB\":\x7b\"id\":0,\"instance\":\"redis3\"\x7d" ++
    ",\"CONFIG_DB\":\x7b\"id\":9,\"instance\":\"redis\"\x7d\x7d\x7d")
  else .error .notFound

/-- Of a file with two servers the databases on the server of the application database are reached,
under either of its names; the one on the other server is not. -/
theorem placed_of_two_servers :
    ∃ ns file, (loadNamespaces readTwoServers "split.json").run = .ok [ns] ∧
      fileAt? readTwoServers "split.json" = some file ∧
      ns.Reaches file .appl ∧ ns.Reaches file .counters ∧
      ns.number .config = 9 ∧ ¬ ns.Reaches file .config := by
  obtain ⟨hok, hsources, hsays⟩ :
      (Id.run (loadNamespaces readTwoServers "split.json").run).isOk = true ∧
      sources readTwoServers "split.json" = [⟨"", "split.json"⟩] ∧
      (fileAt? readTwoServers "split.json").map (fun file =>
        ([Database.appl, .counters, .config].map fun db => file.databases.get? db.name,
          ["redis", "redis2", "redis3"].map fun name => file.instances.get? name)) =
        some ([some ⟨0, "redis3"⟩, some ⟨2, "redis2"⟩, some ⟨9, "redis"⟩],
          [some ⟨"h", 1, none⟩, some ⟨"h", 2, some "s"⟩, some ⟨"h", 3, some "s"⟩]) := by
    decide +kernel
  obtain ⟨namespaces, hload⟩ := exists_eq_ok_of_isOk hok
  obtain ⟨listed, -, rfl, htaken⟩ := placed_of_loadNamespaces hload
  rw [hsources] at htaken
  obtain ⟨ns, later, ⟨hname, file, server, hfile, hmain, -, hreads⟩, hnil, rfl⟩ :=
    List.forall₂_cons_left_iff.1 htaken
  obtain rfl := List.forall₂_nil_left_iff.1 hnil
  rw [hfile] at hsays
  simp only [Option.map_some, Option.some.injEq, Prod.mk.injEq, List.map_cons, List.map_nil,
    List.cons.injEq, and_true] at hsays
  obtain ⟨⟨happl, hcounters, hconfig⟩, hredis, hredis2, hredis3⟩ := hsays
  rw [happl] at hmain
  obtain rfl := Option.some.inj (hredis3.symm.trans hmain)
  obtain ⟨-, hconfigReads⟩ := hreads .config
  obtain ⟨hnumber, hconfigReaches⟩ := hconfigReads _ hconfig
  refine ⟨ns, file, ?_, hfile, ((hreads .appl).2 _ happl).2.2 ⟨_, hredis3, rfl⟩,
    ((hreads .counters).2 _ hcounters).2.2 ⟨_, hredis2, rfl⟩, hnumber, fun hreaches => ?_⟩
  · have hfirst : hostFirst [ns] = [ns] := by simp [hostFirst, hname]
    exact hfirst ▸ hload
  · obtain ⟨other, hother, hsame⟩ := hconfigReaches.1 hreaches
    obtain rfl := Option.some.inj (hredis.symm.trans hother)
    revert hsame
    decide

/-- A file may put a database on a server that is not that of the namespace: the counters of this
one are on the second server, and the namespace is at the first. -/
theorem not_reaches_of_other_server :
    (∃ ns file, (loadNamespaces readTwoServers "counters.json").run = .ok [ns] ∧
      fileAt? readTwoServers "counters.json" = some file ∧
      file.databases.get? Database.counters.name = some ⟨2, "redis2"⟩ ∧
      file.instances.get? "redis2" = some ⟨"h", 2, some "s"⟩ ∧
      ns.endpoint = .address "h" 1 ∧ ¬ ns.Reaches file .counters) ∧
    ¬ ∀ (read : TextReader Id) (path : String) (ns : NamespaceSettings) (file : EndpointFile),
      (loadNamespaces read path).run = .ok [ns] → fileAt? read path = some file →
      ∀ db : Database, (file.databases.get? db.name).isSome = true → ns.Reaches file db := by
  obtain ⟨hok, hplace, hsays⟩ :
      (Id.run (loadNamespaces readTwoServers "counters.json").run).isOk = true ∧
      (Id.run (loadNamespaces readTwoServers "counters.json").run).toOption.map
        (·.map NamespaceSettings.endpoint) = some [.address "h" 1] ∧
      (fileAt? readTwoServers "counters.json").map (fun file =>
        (file.databases.get? Database.counters.name, file.instances.get? "redis2")) =
        some (some ⟨2, "redis2"⟩, some ⟨"h", 2, some "s"⟩) := by decide +kernel
  obtain ⟨namespaces, hload⟩ := exists_eq_ok_of_isOk hok
  rw [hload] at hplace
  obtain ⟨ns, rfl, hns⟩ := List.map_eq_singleton_iff.1 (Option.some.inj hplace)
  obtain ⟨file, hfile, hentry⟩ := Option.map_eq_some_iff.1 hsays
  obtain ⟨hcounters, hredis2⟩ := Prod.mk.inj hentry
  have hmissed : ¬ ns.Reaches file .counters := by
    rintro ⟨placement, hplacement, -, server, hserver, hsame⟩
    obtain rfl := Option.some.inj (hcounters.symm.trans hplacement)
    obtain rfl := Option.some.inj (hredis2.symm.trans hserver)
    rw [hns] at hsame
    revert hsame
    decide
  refine ⟨⟨ns, file, hload, hfile, hcounters, hredis2, hns, hmissed⟩, fun hall => ?_⟩
  exact hmissed (hall _ _ ns file hload hfile .counters (by rw [hcounters]; rfl))

end Files

end SwitchMib.Config
