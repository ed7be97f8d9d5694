import SwitchMib.Mib.Updater
import SwitchMib.Proofs.Mib.ProperRows
import SwitchMib.Proofs.Store.Unseen

/-!
# Tables and what they do not see of the host

Every table reads the state of the chips from the members of a device, and of the host, where that
is no member, only what is no state of a chip. So a table is built, refreshed and reinitialised
alike, in what it tells too, where the worlds differ in the chip databases of the host only.

* `Outside.SameBesidesHost`: such worlds.
* `Updater.refresh_congr`, `Updater.reinit_congr`, `Blueprint.build_congr`: any table in them.
-/

namespace SwitchMib
set_option autoImplicit false

open Store

/-! ## Identities -/

namespace Identity

section Host

variable {a b : Namespace}

theorem ManagementMaps.load_congr (h : a.SameBesidesChip b) : load a = load b := by
  have hkey : addKey a = addKey b := by
    funext maps key
    have hconfig : ∀ key, a.getAll .config key = b.getAll .config key := h.getAll rfl
    simp only [addKey, hconfig]
  rw [load, load, h.keys rfl, hkey]

end Host

section Device

variable {n n' : Namespaces}

theorem PortMaps.loadAll_congr (h : n.SameBesidesHost n') : loadAll n = loadAll n' := by
  rw [loadAll, loadAll, h.members]

theorem LagMaps.loadAll_congr (h : n.SameBesidesHost n') : loadAll n = loadAll n' := by
  rw [loadAll, loadAll, h.members]

theorem VlanMaps.loadAll_congr (h : n.SameBesidesHost n') : loadAll n = loadAll n' := by
  rw [loadAll, loadAll, h.members]

theorem RifMaps.loadAll_congr (h : n.SameBesidesHost n') : loadAll n = loadAll n' := by
  rw [loadAll, loadAll, h.members]

theorem QueueMaps.loadAll_congr (h : n.SameBesidesHost n') : loadAll n = loadAll n' := by
  rw [loadAll, loadAll, h.members]

/-- Only the management ports are the host's. -/
theorem InterfaceMaps.load_congr (h : n.SameBesidesHost n') : load n = load n' := by
  have hmanagement : ManagementMaps.loadHost n = ManagementMaps.loadHost n' :=
    ManagementMaps.load_congr h.host
  rw [load, load, PortMaps.loadAll_congr h, LagMaps.loadAll_congr h, VlanMaps.loadAll_congr h,
    RifMaps.loadAll_congr h, hmanagement]

end Device

end Identity

namespace Mib

open Identity

/-! ## Snapshots -/

section Host

variable {a b : Namespace}

theorem PowerSource.ofHost_congr (h : a.SameBesidesChip b) : ofHost a = ofHost b := by
  have hflag : flagOfHost a = flagOfHost b := by
    funext i field
    rw [flagOfHost, flagOfHost, h.getAll rfl]
  rw [ofHost, ofHost, h.getAll rfl, hflag]

theorem addOverlays_congr (h : a.SameBesidesChip b) (top : Snmp.Oid) (acc : OverlayRows)
    (keys : List String) : addOverlays a top acc keys = addOverlays b top acc keys := by
  have hkey : addOverlay a top = addOverlay b top := by
    funext acc key
    have hentry : a.getAll .overlay key = b.getAll .overlay key := h.getAll rfl key
    unfold addOverlay
    rw [hentry]
  induction keys generalizing acc with
  | nil => rfl
  | cons key keys ih =>
    rw [addOverlays_cons, addOverlays_cons, hkey]
    generalize addOverlay b top acc key = added
    obtain ⟨acc', done⟩ := added
    cases done with
    | error e => rfl
    | ok _ => exact ih acc'

theorem readOverlay_congr (h : a.SameBesidesChip b) (top : Snmp.Oid) :
    readOverlay a top = readOverlay b top := by
  rw [readOverlay, readOverlay, h.keys rfl]
  cases b.keys .overlay "*" with
  | error e => rfl
  | ok keys => exact addOverlays_congr h top _ keys

end Host

section Device

variable {n n' : Namespaces}

theorem InterfaceSnapshot.readEntry_congr (h : n.SameBesidesHost n') :
    readEntry n = readEntry n' := by
  have hmanagement : readManagement n = readManagement n' := by
    funext name
    have hconfig : ∀ key, n.host.getAll .config key = n'.host.getAll .config key :=
      h.host.getAll rfl
    have hstate : ∀ key, n.host.getAll .state key = n'.host.getAll .state key := h.host.getAll rfl
    simp only [readManagement, List.foldlM_cons, List.foldlM_nil, hconfig, hstate]
  funext kind name
  simp only [readEntry, h.getAll, hmanagement]

theorem InterfaceSnapshot.read_congr (h : n.SameBesidesHost n') : read n = read n' := by
  have hrow : addRow n = addRow n' := by
    funext rows item
    simp only [addRow, readEntry_congr h]
  have hport : addPortCounters n = addPortCounters n' := by
    funext counters id
    simp only [addPortCounters, readCounters, h.getAll]
  have hrif : addRifCounters n = addRifCounters n' := by
    funext counters id
    simp only [addRifCounters, hport]
  funext identity
  rw [read, read, hrow, hport, hrif]

theorem ForwardingMaps.load_congr (h : n.SameBesidesHost n') : load n = load n' := by
  funext warned
  rw [load, load, PortMaps.loadAll_congr h, h.members]

theorem readForwarding_congr (h : n.SameBesidesHost n') : readForwarding n = readForwarding n' := by
  have hresolve : resolve n = resolve n' := by
    funext maps key
    simp only [resolve, readVlan, h.getAll]
  have hkey : addForwarding n = addForwarding n' := by
    funext maps acc key
    simp only [addForwarding, hresolve]
  funext maps warned
  rw [readForwarding, readForwarding, h.keys, hkey]

theorem readSensors_congr (h : n.SameBesidesHost n')
    (encode : SensorKind → String → Option Int32) :
    readSensors encode n = readSensors encode n' := by
  have htransceiver : addTransceiver encode n = addTransceiver encode n' := by
    funext ports readings key
    simp only [addTransceiver, h.getAll]
  funext ports
  rw [readSensors, readSensors, h.keys, htransceiver]

theorem readQueues_congr (h : n.SameBesidesHost n') : readQueues n = readQueues n' := by
  have hqueue : addQueueCounters n = addQueueCounters n' := by
    funext maps q acc
    simp only [addQueueCounters, h.getAll]
  funext maps warned
  rw [readQueues, readQueues, hqueue]

end Device

/-! ## Tables -/

structure Outside.SameBesidesHost (out out' : Outside) : Prop where
  namespaces : out.namespaces.SameBesidesHost out'.namespaces
  neighbours : out.neighbours = out'.neighbours
  platform : out.platform = out'.platform

section World

variable {out out' : Outside}

theorem PowerOrigin.source_congr (h : out.SameBesidesHost out') :
    PowerOrigin.source out = PowerOrigin.source out' := by
  funext origin
  cases origin with
  | host => exact PowerSource.ofHost_congr h.namespaces.host
  | platform => exact h.platform

theorem Interfaces.refresh_congr (h : out.SameBesidesHost out') : refresh out = refresh out' := by
  funext t
  rw [refresh, refresh, InterfaceSnapshot.read_congr h.namespaces]

theorem Neighbours.refresh_congr (h : out.SameBesidesHost out') : refresh out = refresh out' := by
  funext t
  rw [refresh, refresh, h.neighbours]

theorem Forwarding.refresh_congr (h : out.SameBesidesHost out') : refresh out = refresh out' := by
  funext t
  rw [refresh, refresh, readForwarding_congr h.namespaces]

theorem Routes.refresh_congr (h : out.SameBesidesHost out') : refresh out = refresh out' := by
  funext t
  rw [refresh, refresh, h.namespaces.members]

theorem Sensors.refresh_congr (h : out.SameBesidesHost out') : refresh out = refresh out' := by
  funext t
  rw [refresh, refresh, refreshWith, refreshWith, readSensors_congr h.namespaces]

theorem QueueStats.refresh_congr (h : out.SameBesidesHost out') : refresh out = refresh out' := by
  funext t
  rw [refresh, refresh, readQueues_congr h.namespaces]

theorem Power.refresh_congr (h : out.SameBesidesHost out') : refresh out = refresh out' := by
  funext t
  rw [refresh, refresh, PowerOrigin.source_congr h]

theorem Overlay.refresh_congr (h : out.SameBesidesHost out') : refresh out = refresh out' := by
  funext t
  rw [refresh, refresh, readOverlay_congr h.namespaces.host]

theorem Interfaces.reinit_congr (h : out.SameBesidesHost out') : reinit out = reinit out' := by
  funext t
  rw [reinit, reinit, InterfaceMaps.load_congr h.namespaces]

theorem Forwarding.reinit_congr (h : out.SameBesidesHost out') : reinit out = reinit out' := by
  funext t
  rw [reinit, reinit, ForwardingMaps.load_congr h.namespaces]

theorem Sensors.reinit_congr (h : out.SameBesidesHost out') : reinit out = reinit out' := by
  funext t
  rw [reinit, reinit, PortMaps.loadAll_congr h.namespaces]

theorem QueueStats.reinit_congr (h : out.SameBesidesHost out') : reinit out = reinit out' := by
  funext t
  rw [reinit, reinit, QueueMaps.loadAll_congr h.namespaces]

theorem Updater.refresh_congr (h : out.SameBesidesHost out') :
    Updater.refresh out = Updater.refresh out' := by
  funext u
  cases u with
  | interfaces t => rw [refresh, refresh, Interfaces.refresh_congr h]
  | neighbours t => rw [refresh, refresh, Neighbours.refresh_congr h]
  | forwarding t => rw [refresh, refresh, Forwarding.refresh_congr h]
  | routes t => rw [refresh, refresh, Routes.refresh_congr h]
  | sensors t => rw [refresh, refresh, Sensors.refresh_congr h]
  | queueStats t => rw [refresh, refresh, QueueStats.refresh_congr h]
  | power t => rw [refresh, refresh, Power.refresh_congr h]
  | overlay t => rw [refresh, refresh, Overlay.refresh_congr h]

theorem Updater.reinit_congr (h : out.SameBesidesHost out') :
    Updater.reinit out = Updater.reinit out' := by
  funext u
  cases u with
  | interfaces t => rw [reinit, reinit, Interfaces.reinit_congr h]
  | forwarding t => rw [reinit, reinit, Forwarding.reinit_congr h]
  | sensors t => rw [reinit, reinit, Sensors.reinit_congr h]
  | queueStats t => rw [reinit, reinit, QueueStats.reinit_congr h]
  -- the others have no identity to load
  | _ => rfl

theorem Blueprint.build_congr (h : out.SameBesidesHost out') :
    Blueprint.build out = Blueprint.build out' := by
  funext blueprint
  cases blueprint with
  | interfaces =>
    rw [build, build, Interfaces.build, Interfaces.build, InterfaceMaps.load_congr h.namespaces,
      Interfaces.refresh_congr h]
  | neighbours => rw [build, build, Neighbours.build, Neighbours.build, Neighbours.refresh_congr h]
  | forwarding =>
    rw [build, build, Forwarding.build, Forwarding.build, Forwarding.reinit_congr h,
      Forwarding.refresh_congr h]
  | routes => rw [build, build, Routes.build, Routes.build, Routes.refresh_congr h]
  | sensors =>
    rw [build, build, Sensors.build, Sensors.build, PortMaps.loadAll_congr h.namespaces,
      Sensors.refresh_congr h]
  | queueStats =>
    rw [build, build, QueueStats.build, QueueStats.build, QueueMaps.loadAll_congr h.namespaces,
      QueueStats.refresh_congr h]
  | power origin => rw [build, build, Power.build, Power.build, Power.refresh_congr h]
  | overlay top => rw [build, build, Overlay.build, Overlay.build, Overlay.refresh_congr h]

end World

end Mib

end SwitchMib
