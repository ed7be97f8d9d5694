import SwitchMib.Proofs.Identity.Inverse
import SwitchMib.Proofs.Mib.Commits
import SwitchMib.Proofs.Mib.ForwardingReads
import SwitchMib.Proofs.Mib.ProperRows
import SwitchMib.Proofs.Net.Addresses

/-!
# Where addresses were learned

A row of the forwarding table is told without running a refresh: which keys resolve to a VLAN and
an address, and which interface the entry under such a key leads to.

* `Resolves`: a key names a VLAN and an address and leads to an index.
* `resolve_eq_ok_iff_resolves`: where all can be read, an entry has a row just when its key
  resolves.
* `Shows`: the row of the last key that resolves to a VLAN and an address.
* `Session.identityWorld`: the world in which the identity of a table was loaded.
* `Session.valueAt_learned_iff`: what the table answers after a refresh.
-/

namespace SwitchMib
set_option autoImplicit false

namespace Mib

open Identity Snmp Store

/-! ## Keys that resolve -/

/-- After its lead the key has an object with an address. -/
def KeyNames (key : String) (parsed : ForwardingKey) (mac : Net.Mac) : Prop :=
  ∃ object, key = forwardingLead ++ object ∧ ForwardingKey.parse object = some parsed ∧
    Net.Mac.parse parsed.mac = .ok mac

/-- The VLAN has the number in the key, or, where there is none, that of the VLAN object. -/
def HasVlan (n : Namespaces) (parsed : ForwardingKey) (vlan : Net.VlanId) : Prop :=
  ∃ number, Net.VlanId.parse number = .ok vlan ∧
    (parsed.vlan = some number ∨ parsed.vlan = none ∧ ∃ id, parsed.vlanId = some id ∧
      n.field? .asic (Schema.tableKey Schema.vlanType ':' id) Schema.vlanNumber = some number)

/-- The entry under the key is on a bridge port, that on a port, and that has a name with the
index. -/
def LearnedOn (n : Namespaces) (maps : ForwardingMaps) (key : String) (index : UInt32) : Prop :=
  ∃ bridgePort port name,
    n.field? .asic key Schema.forwardingBridgePort = some bridgePort ∧
    maps.portByBridgePort.get? (Schema.bareId bridgePort) = some port ∧
    maps.ports.nameById.get? port = some name ∧ Net.IfName.index? name = some index

/-- The key has a VLAN and an address, and its entry leads to an interface with the index. -/
def Resolves (n : Namespaces) (maps : ForwardingMaps) (key : String) (vlan : Net.VlanId)
    (mac : Net.Mac) (index : UInt32) : Prop :=
  ∃ parsed, KeyNames key parsed mac ∧ HasVlan n parsed vlan ∧ LearnedOn n maps key index

theorem readKey_eq_ok_iff {key : String} {parsed : ForwardingKey} {mac : Net.Mac} :
    readKey key = .ok (parsed, mac) ↔ KeyNames key parsed mac := by
  simp only [KeyNames, ← Text.after?_eq_some_iff]
  unfold readKey
  constructor
  · intro h
    cases hobject : Text.after? forwardingLead key with
    | none =>
      rw [hobject] at h
      cases h
    | some object =>
      simp only [hobject] at h
      cases hparsed : ForwardingKey.parse object with
      | none =>
        rw [hparsed] at h
        cases h
      | some found =>
        simp only [hparsed] at h
        cases hmac : Net.Mac.parse found.mac with
        | error e =>
          rw [hmac] at h
          cases h
        | ok address =>
          rw [hmac] at h
          obtain ⟨rfl, rfl⟩ := Prod.mk.inj (Except.ok.inj h)
          exact ⟨object, rfl, hparsed, hmac⟩
  · rintro ⟨object, hobject, hparsed, hmac⟩
    simp only [hobject, hparsed, hmac]
    rfl

theorem learnedOn_eq_ok_iff {maps : ForwardingMaps} {entry : Fields} {index : UInt32} :
    learnedOn maps entry = .ok index ↔ ∃ bridgePort port name,
      entry.get? Schema.forwardingBridgePort = some bridgePort ∧
      maps.portByBridgePort.get? (Schema.bareId bridgePort) = some port ∧
      maps.ports.nameById.get? port = some name ∧ Net.IfName.index? name = some index := by
  rw [learnedOn]
  cases hbridge : entry.get? Schema.forwardingBridgePort with
  | none => simp
  | some bridgePort =>
    cases hport : maps.portByBridgePort.get? (Schema.bareId bridgePort) with
    | none => simp [hport]
    | some port =>
      cases hname : maps.ports.nameById.get? port with
      | none => simp [hport, hname]
      | some name =>
        cases hindex : Net.IfName.index? name with
        | none => simp [hport, hname, hindex]
        | some found => simp [hport, hname, hindex, pure, Except.pure]

section Healthy

variable {n : Namespaces} {maps : ForwardingMaps} (h : n.Healthy)
include h

theorem readVlan_eq_some_iff {parsed : ForwardingKey} {vlan : Net.VlanId} :
    (readVlan n parsed).value = some vlan ↔ HasVlan n parsed vlan := by
  obtain ⟨mac, number?, id?⟩ := parsed
  cases number? with
  | some number =>
    have hvalue : (readVlan n ⟨mac, some number, id?⟩).value =
        (Net.VlanId.parse number).toOption := by simp only [readVlan, Logged.value_pure]
    rw [hvalue, toOption_eq_some_iff]
    simp [HasVlan]
  | none =>
    cases id? with
    | none =>
      have hvalue : (readVlan n ⟨mac, none, none⟩).value = none := rfl
      rw [hvalue]
      simp [HasVlan]
    | some id =>
      have hvalue : (readVlan n ⟨mac, none, some id⟩).value =
          (n.field? .asic (Schema.tableKey Schema.vlanType ':' id) Schema.vlanNumber).bind
            fun number => (Net.VlanId.parse number).toOption := by
        rw [← Namespaces.get?_getAll h]
        rfl
      rw [hvalue, Option.bind_eq_some_iff]
      simp [HasVlan, toOption_eq_some_iff, and_comm]

/-- Where all can be read, an entry has a row just when its key resolves. -/
theorem resolve_eq_ok_iff_resolves {key : String} {row : SubId × UInt32} :
    (resolve n maps key).value = .ok row ↔
      ∃ vlan mac index, Resolves n maps key vlan mac index ∧
        row = (vlan.arc :: mac.arcs, index) := by
  have hlearned : ∀ index, learnedOn maps (n.getAll .asic key).value = .ok index ↔
      LearnedOn n maps key index := by
    intro index
    rw [learnedOn_eq_ok_iff, LearnedOn, Namespaces.get?_getAll h]
  simp only [resolve_eq_ok_iff, readKey_eq_ok_iff, hlearned, readVlan_eq_some_iff h]
  constructor
  · rintro ⟨parsed, mac, index, vlan, hkey, hport, hvlan, rfl⟩
    exact ⟨vlan, mac, index, ⟨parsed, hkey, hvlan, hport⟩, rfl⟩
  · rintro ⟨vlan, mac, index, ⟨parsed, hkey, hvlan, hport⟩, rfl⟩
    exact ⟨parsed, mac, index, vlan, hkey, hport, hvlan, rfl⟩

end Healthy

/-! ## Rows -/

/-- The row that the keys of the store give a sub-identifier: that of the last key that resolves to
its VLAN and address. -/
def Shows (n : Namespaces) (maps : ForwardingMaps) (sub : SubId) (index : UInt32) : Prop :=
  ∃ key vlan mac, n.Stores .asic key ∧ Resolves n maps key vlan mac index ∧
    sub = vlan.arc :: mac.arcs ∧
    ∀ later, n.Stores .asic later → KeyOrder.before key later = true →
      ∀ other, ¬ Resolves n maps later vlan mac other

theorem readForwarding_shows {n : Namespaces} (h : n.Healthy) (maps : ForwardingMaps)
    (warned : Once String) {sub : SubId} {index : UInt32} :
    (readForwarding n maps warned).value.rows.get? sub = some index ↔ Shows n maps sub index := by
  have hfound : ∀ key vlan mac index, Resolves n maps key vlan mac index →
      (key ∈ (n.keys .asic (forwardingLead ++ "*")).value ↔ n.Stores .asic key) := by
    rintro _ vlan mac index ⟨parsed, ⟨object, rfl, -⟩, -⟩
    exact Namespaces.mem_keys_lead_iff h (by decide) object
  have hrow : ∀ {key row}, (resolve n maps key).value.toOption = some row ↔
      ∃ vlan mac index, Resolves n maps key vlan mac index ∧
        row = (vlan.arc :: mac.arcs, index) := by
    intro key row
    rw [toOption_eq_some_iff, resolve_eq_ok_iff_resolves h]
  rw [get?_readForwarding, Bindings.last?_filterMap_eq_some_iff (Namespaces.keys_ascending _ _ _)]
  constructor
  · rintro ⟨key, hkey, hrow', hlast⟩
    obtain ⟨vlan, mac, index', hresolves, hpair⟩ := hrow.1 hrow'
    obtain ⟨rfl, rfl⟩ := Prod.mk.inj hpair
    refine ⟨key, vlan, mac, (hfound _ _ _ _ hresolves).1 hkey, hresolves, rfl, ?_⟩
    intro later hstored hbefore other hother
    exact hlast later ((hfound _ _ _ _ hother).2 hstored) hbefore other
      (hrow.2 ⟨vlan, mac, other, hother, rfl⟩)
  · rintro ⟨key, vlan, mac, hstored, hresolves, rfl, hlast⟩
    have hmem := (hfound _ _ _ _ hresolves).2 hstored
    refine ⟨key, hmem, hrow.2 ⟨vlan, mac, index, hresolves, rfl⟩, ?_⟩
    intro later hlater hbefore other hother
    obtain ⟨vlan', mac', index', hresolves', hpair⟩ := hrow.1 hother
    obtain ⟨hsub, -⟩ := Prod.mk.inj hpair
    obtain ⟨hvlan, hmac⟩ := List.cons.inj hsub
    obtain rfl := Net.VlanId.arc_inj hvlan
    obtain rfl := Net.Mac.arcs_inj hmac
    exact hlast later ((hfound _ _ _ _ hresolves').1 hlater) hbefore index' hresolves'

/-! ## Keys that do not resolve -/

theorem vlanKey_ne (id object : String) :
    Schema.tableKey Schema.vlanType ':' id ≠ forwardingLead ++ object := by
  intro h
  -- the types part at the first letter after what all object types start with
  have hletter := congrArg (fun s => s.toList[27]?) h
  simp [Schema.tableKey, Schema.vlanType, forwardingLead, Schema.tableLead,
    Schema.forwardingEntryType] at hletter

section Without

variable {n : Namespaces} {maps : ForwardingMaps} {object : String}

theorem resolves_without {key : String} (hkey : key ≠ forwardingLead ++ object)
    {vlan : Net.VlanId} {mac : Net.Mac} {index : UInt32} :
    Resolves (n.without .asic (forwardingLead ++ object)) maps key vlan mac index ↔
      Resolves n maps key vlan mac index := by
  simp only [Resolves, HasVlan, LearnedOn, Namespaces.field?_without hkey,
    Namespaces.field?_without (vlanKey_ne _ object)]

theorem shows_without
    (hkey : ∀ vlan mac index, ¬ Resolves n maps (forwardingLead ++ object) vlan mac index)
    {sub : SubId} {index : UInt32} :
    Shows (n.without .asic (forwardingLead ++ object)) maps sub index ↔ Shows n maps sub index := by
  have hne : ∀ {key vlan mac index}, Resolves n maps key vlan mac index →
      key ≠ forwardingLead ++ object := by
    rintro _ vlan mac index hresolves rfl
    exact hkey vlan mac index hresolves
  constructor
  · rintro ⟨key, vlan, mac, hstored, hresolves, hsub, hlast⟩
    obtain ⟨hother, hstored⟩ := Namespaces.stores_without_iff.1 hstored
    refine ⟨key, vlan, mac, hstored, (resolves_without hother).1 hresolves, hsub, ?_⟩
    intro later hlater hbefore other hresolves'
    have hleft := hne hresolves'
    exact hlast later (Namespaces.stores_without_iff.2 ⟨hleft, hlater⟩) hbefore other
      ((resolves_without hleft).2 hresolves')
  · rintro ⟨key, vlan, mac, hstored, hresolves, hsub, hlast⟩
    have hleft := hne hresolves
    refine ⟨key, vlan, mac, Namespaces.stores_without_iff.2 ⟨hleft, hstored⟩,
      (resolves_without hleft).2 hresolves, hsub, ?_⟩
    intro later hlater hbefore other hresolves'
    obtain ⟨hother, hlater⟩ := Namespaces.stores_without_iff.1 hlater
    exact hlast later hlater hbefore other ((resolves_without hother).1 hresolves')

theorem rows_without (h : n.Healthy)
    (hkey : ∀ vlan mac index, ¬ Resolves n maps (forwardingLead ++ object) vlan mac index)
    (warned : Once String) :
    (readForwarding (n.without .asic (forwardingLead ++ object)) maps warned).value.rows =
      (readForwarding n maps warned).value.rows := by
  refine Dict.ext_get? fun sub => Option.ext fun index => ?_
  rw [readForwarding_shows (h.without _ _), readForwarding_shows h]
  exact shows_without hkey

end Without

/-! ## The identity -/

theorem ForwardingMaps.ports_of_load {n : Namespaces} {warned : Once String} {maps : ForwardingMaps}
    (h : (load n warned).value.1 = .ok maps) : (PortMaps.loadAll n).outcome = .ok maps.ports := by
  rw [load, Logged.value_bind] at h
  rw [Load.outcome]
  cases hports : (PortMaps.loadAll n).run.value with
  | error e =>
    rw [hports] at h
    cases h
  | ok ports =>
    simp only [hports, Logged.value_bind] at h
    cases hdone : (readBridgePorts ⟨.empty, []⟩ n.members).2 with
    | error e =>
      rw [hdone] at h
      cases h
    | ok _ =>
      rw [hdone] at h
      rw [← Except.ok.inj h]

/-- A port that is found by its identifier has its index in use, if not always for its own name. -/
theorem index_mem_of_nameById {n : Namespaces} {ports : PortMaps}
    (h : (PortMaps.loadAll n).outcome = .ok ports) {id name : String} {index : UInt32}
    (hname : ports.nameById.get? id = some name) (hindex : Net.IfName.index? name = some index) :
    index ∈ ports.nameByIndex.keys := by
  rw [PortMaps.get?_nameById_loadAll h] at hname
  obtain ⟨earlier, later, hsplit, -⟩ := Bindings.last?_eq_some_iff.1 hname
  have hpair : (id, name) ∈ (n.members.flatMap PortMaps.portsIn).map fun port =>
      (port.id, port.name) := by simp [hsplit]
  obtain ⟨port, hport, hnamed⟩ := List.mem_map.1 hpair
  obtain ⟨-, rfl⟩ := Prod.mk.inj hnamed
  obtain ⟨ns, -, hin⟩ := List.mem_flatMap.1 hport
  rw [PortMaps.index?_of_mem_portsIn hin] at hindex
  obtain rfl := Option.some.inj hindex
  rw [Dict.mem_keys_iff, PortMaps.get?_nameByIndex_loadAll h, ← Option.ne_none_iff_isSome, ne_eq,
    Bindings.last?_eq_none_iff, not_not, List.map_map]
  exact List.mem_map.2 ⟨port, hport, rfl⟩

theorem index_mem_of_resolves {n loaded : Namespaces} {maps : ForwardingMaps}
    (h : (ForwardingMaps.load loaded .fresh).value.1 = .ok maps) {key : String}
    {vlan : Net.VlanId} {mac : Net.Mac} {index : UInt32}
    (hresolves : Resolves n maps key vlan mac index) : index ∈ maps.ports.nameByIndex.keys := by
  obtain ⟨_, -, -, _, _, name, -, -, hname, hindex⟩ := hresolves
  exact index_mem_of_nameById (ForwardingMaps.ports_of_load h) hname hindex

theorem load_of_table_reinit {out : Outside} {t t' : Forwarding}
    (h : (Forwarding.reinit out t).value.table = .ok t') :
    (ForwardingMaps.load out.namespaces .fresh).value.1 = .ok t'.identity := by
  rw [Forwarding.table_reinit] at h
  simp only [ForwardingMaps.load_value _ t.bridgePortsWarned] at h
  cases hload : (ForwardingMaps.load out.namespaces .fresh).value.1 with
  | error e =>
    rw [hload] at h
    cases h
  | ok maps =>
    rw [hload] at h
    rw [← Except.ok.inj h]

namespace Session

/-- The world in which the identity of a table was loaded: that of the last reinit that succeeded,
or else `built`. -/
def identityWorld (s : Session) (built : Outside) : List Turn → Outside
  | [] => built
  | .reinit :: later =>
    let world := match (s.table.reinit s.world).value.outcome with
      | .ok _ => s.world
      | .error _ => built
    (s.step .reinit).identityWorld world later
  | turn :: later => (s.step turn).identityWorld built later

/-- The table is a forwarding table with the identity that is loaded in a world. -/
def HasIdentityOf (s : Session) (world : Outside) : Prop :=
  ∃ t, s.table = .forwarding t ∧
    (ForwardingMaps.load world.namespaces .fresh).value.1 = .ok t.identity

theorem hasIdentityOf_run {s : Session} {built : Outside} (h : s.HasIdentityOf built)
    (turns : List Turn) : (s.run turns).HasIdentityOf (s.identityWorld built turns) := by
  induction turns generalizing s built with
  | nil => exact h
  | cons turn turns ih =>
    obtain ⟨world, table⟩ := s
    obtain ⟨t, rfl, hload⟩ := h
    cases turn with
    | change out => exact ih (s := ⟨out, .forwarding t⟩) ⟨t, rfl, hload⟩
    | refresh => exact ih (s := ⟨world, .forwarding _⟩) ⟨_, rfl, hload⟩
    | query sub => exact ih (s := ⟨world, .forwarding t⟩) ⟨t, rfl, hload⟩
    | reinit =>
      refine ih (s := ⟨world, .forwarding (t.reinit world).value.after⟩) ⟨_, rfl, ?_⟩
      show (ForwardingMaps.load (Outside.namespaces (match (t.reinit world).value.outcome with
        | .ok _ => world
        | .error _ => built)) .fresh).value.1 = _
      cases houtcome : (t.reinit world).value.outcome with
      | ok _ => exact load_of_table_reinit (Attempt.table_eq_ok_iff.2 ⟨houtcome, rfl⟩)
      | error e =>
        have hfailed := Attempt.eq_error_of_table (t.table_reinit world) houtcome
        obtain ⟨told, hafter⟩ := Forwarding.reinit_of_failed hfailed
        rw [hafter]
        exact hload

theorem hasIdentityOf_of_opened {s : Session} (hs : s.Opened .forwarding) :
    s.HasIdentityOf s.world := by
  rw [Opened, Blueprint.outcome_build] at hs
  obtain ⟨hreinit, -, hafter⟩ := (Updater.renew_eq_ok_iff s.world).1 hs
  have hload := load_of_table_reinit (Attempt.table_eq_ok_iff.2 ⟨hreinit, rfl⟩)
  exact ⟨_, hafter.symm, hload⟩

/-! ## What is answered after a refresh -/

theorem valueAt_refresh_iff {t : Forwarding} {out : Outside} (h : out.namespaces.Healthy)
    {sub : SubId} {value : Value} :
    (t.refresh out).value.after.valueAt sub = some value ↔
      ∃ index, Shows out.namespaces t.identity sub index ∧ index.toNat < 0x80000000 ∧
        value = .integer (Int32.ofNat index.toNat) := by
  have hvalue : (t.refresh out).value.after.valueAt sub =
      ((readForwarding out.namespaces t.identity t.warned).value.rows.get? sub).bind fun index =>
        Value.ofIndex index.toNat := rfl
  rw [hvalue, Option.bind_eq_some_iff]
  simp only [readForwarding_shows h, Value.ofIndex_eq_some_iff]

theorem answersAs_refresh {t : Forwarding} {out out' : Outside}
    (h : (readForwarding out.namespaces t.identity t.warned).value.rows =
      (readForwarding out'.namespaces t.identity t.warned).value.rows) :
    AnswersAs (.forwarding (t.refresh out).value.after)
      (.forwarding (t.refresh out').value.after) := by
  apply Updater.answersAs_of_committed
  exact congrArg (fun rows => Updater.forwarding ⟨.empty, ⟨rows, .seeded⟩, .fresh, .fresh⟩) h

/-- After a refresh in a world in which all can be read, the forwarding table answers with the
index that the last key for a VLAN and an address leads to, by the identity of the last reinit that
succeeded. Every such index belongs to the identity, and a key that does not resolve might as well
not be there. -/
theorem valueAt_learned_iff {s : Session} (hs : s.Opened .forwarding) (turns : List Turn) :
    let t := s.run turns
    let n := t.world.namespaces
    n.Healthy →
    ∃ maps, (ForwardingMaps.load (s.identityWorld s.world turns).namespaces .fresh).value.1 =
        .ok maps ∧
      t.outcome .refresh = some (.ok ()) ∧
      (∀ sub value, (t.step .refresh).table.valueAt sub = some value ↔
        ∃ index, Shows n maps sub index ∧ index.toNat < 0x80000000 ∧
          value = .integer (Int32.ofNat index.toNat)) ∧
      (∀ key vlan mac index, Resolves n maps key vlan mac index →
        index ∈ maps.ports.nameByIndex.keys) ∧
      ∀ object, (∀ vlan mac index, ¬ Resolves n maps (forwardingLead ++ object) vlan mac index) →
        let without : Outside :=
          { t.world with namespaces := n.without .asic (forwardingLead ++ object) }
        AnswersAs (t.step .refresh).table ((t.step (.change without)).step .refresh).table := by
  intro t n hhealthy
  obtain ⟨table, htable, hload⟩ := hasIdentityOf_run (hasIdentityOf_of_opened hs) turns
  have hrefresh : ∀ out,
      (t.table.refresh out).value = ((table.refresh out).value.map .forwarding).lift := by
    intro out
    rw [htable]
    rfl
  have hafter : ∀ out, (t.table.refresh out).value.after =
      .forwarding (table.refresh out).value.after :=
    fun out => congrArg Attempt.after (hrefresh out)
  refine ⟨table.identity, hload, ?_, ?_, fun _ _ _ _ => index_mem_of_resolves hload, ?_⟩
  · exact congrArg (fun a => some (Attempt.outcome a)) (hrefresh t.world)
  · intro sub value
    rw [step, hafter]
    exact valueAt_refresh_iff hhealthy
  · intro object hkey without
    show AnswersAs (t.table.refresh t.world).value.after (t.table.refresh without).value.after
    rw [hafter, hafter]
    exact answersAs_refresh (rows_without hhealthy hkey table.warned).symm

/-- A world with two ports. The address is learned in one VLAN on both, once by the object of the
VLAN and once by its number. -/
def worldOfStation : Outside where
  namespaces :=
    let station := "\"mac\":\"00:01:02:03:04:05\""
    let entries : List (Database × String × List (String × String)) :=
      [ (.counters, Schema.portNameMap, [("Ethernet0", "oid:0x1"), ("Ethernet4", "oid:0x2")])
      , (.asic, ForwardingMaps.bridgePortLead ++ "oid:0x3a1", [(Schema.bridgePortPort, "oid:0x1")])
      , (.asic, ForwardingMaps.bridgePortLead ++ "oid:0x3a2", [(Schema.bridgePortPort, "oid:0x2")])
      , (.asic, Schema.tableKey Schema.vlanType ':' "oid:0x26", [(Schema.vlanNumber, "10")])
      , (.asic, forwardingLead ++ "\x7b\"bvid\":\"oid:0x26\"," ++ station ++ "\x7d",
          [(Schema.forwardingBridgePort, "oid:0x3a1")])
      , (.asic, forwardingLead ++ "\x7b" ++ station ++ ",\"vlan\":\"10\"\x7d",
          [(Schema.forwardingBridgePort, "oid:0x3a2")]) ]
    ⟨entries.foldl (fun ns entry => ns.setFields entry.1 entry.2.1 entry.2.2) (.empty ""), []⟩
  neighbours := .ok ""
  platform := ⟨.ok 0, fun _ => .ok false, fun _ => .ok false⟩

/-- The key with the number comes last, so the address is found on the second port. -/
theorem valueAt_learned_of_station :
    let s := start .forwarding worldOfStation
    s.Opened .forwarding ∧ s.world.namespaces.Healthy ∧
      (s.step .refresh).table.valueAt [10, 0, 1, 2, 3, 4, 5] = some (.integer 5) ∧
      ∃ maps key vlan mac index, Resolves s.world.namespaces maps key vlan mac index ∧
        vlan.arc :: mac.arcs = [10, 0, 1, 2, 3, 4, 5] ∧ index ∈ maps.ports.nameByIndex.keys := by
  intro s
  obtain ⟨hbuilt, hvalue⟩ : (Blueprint.forwarding.build worldOfStation).outcome.isOk = true ∧
      (s.step .refresh).table.valueAt [10, 0, 1, 2, 3, 4, 5] = some (.integer 5) := by
    decide +kernel
  have hs : s.Opened .forwarding := opened_start hbuilt
  have hhealthy : s.world.namespaces.Healthy := by
    intro ns hns
    obtain rfl := List.mem_singleton.1 hns
    exact ⟨rfl, rfl⟩
  obtain ⟨maps, -, -, hanswers, hindex, -⟩ := valueAt_learned_iff hs [] hhealthy
  obtain ⟨index, ⟨key, vlan, mac, -, hresolves, hsub, -⟩, -⟩ := (hanswers _ _).1 hvalue
  exact ⟨hs, hhealthy, hvalue, maps, key, vlan, mac, index, hresolves, hsub.symm,
    hindex _ _ _ _ hresolves⟩

end Session

end Mib

end SwitchMib
