import SwitchMib.Proofs.Mib.ChipQueues
import SwitchMib.Proofs.Mib.ChipRows

/-!
# A device serves what its chips serve

The identity of a device is merged map by map and everything else is read from all chips at once.
Where the chips are healthy and have nothing in common, the two fit together: the tables of the
device have the rows that the tables of the single chips have, and no others. A chip alone may visit
its hashes in an order of its own. That must not show in what it loads, which it can where entries
of a name map share a key; and no queue may overflow, which ends the table of the whole device.

* `DisjointUnion`: a whole that splits into parts.
* `ServesUnion`, `servesUnion_of_owner`: a table that splits into those of the chips.
* `SameInterfaces`, `SameQueues`: orders of visiting that do not show.
* `serve_union`: the interface table and the queue statistics of a device split into those of its
  chips.
* `not_serves_union`: a device with two names for one index, and one with a queue that overflows.
-/

namespace SwitchMib
set_option autoImplicit false

open Identity Snmp Store Store.Namespaces

/-- What the whole has is what one of the parts has, and no two parts have anything. -/
structure DisjointUnion {α ρ : Type} (whole : Option ρ) (part : α → Option ρ) (l : List α) :
    Prop where
  union : ∀ r, whole = some r ↔ ∃ a ∈ l, part a = some r
  disjoint : l.Pairwise fun a b => part a = none ∨ part b = none

/-- It is enough that whatever there is has an owner, for which the whole is its part. -/
theorem DisjointUnion.of_owner {α ρ : Type} {whole : Option ρ} {part : α → Option ρ} {l : List α}
    (Owns : α → Prop) (howned : ∀ r, whole = some r → ∃ a ∈ l, Owns a)
    (hown : ∀ a ∈ l, Owns a → whole = part a) (hother : ∀ a ∈ l, ¬ Owns a → part a = none)
    (hsole : l.Pairwise fun a b => Owns a → ¬ Owns b) : DisjointUnion whole part l := by
  refine ⟨fun r => ⟨fun hr => ?_, ?_⟩, hsole.imp_of_mem fun {a b} ha hb hab => ?_⟩
  · obtain ⟨a, ha, howns⟩ := howned r hr
    exact ⟨a, ha, hown a ha howns ▸ hr⟩
  · rintro ⟨a, ha, hr⟩
    by_cases howns : Owns a
    · exact (hown a ha howns).trans hr
    · rw [hother a ha howns] at hr
      cases hr
  · by_cases howns : Owns a
    · exact .inr (hother b hb (hab howns))
    · exact .inl (hother a ha howns)

namespace Mib

/-- The same world with one chip as its only namespace. -/
def Outside.alone (out : Outside) (c : Namespace) : Outside :=
  { out with namespaces := Namespaces.alone c }

section Union

variable {ε υ ι ρ : Type} (build : Outside → Load ε υ) (row? : υ → ι → Option ρ)
  (asked : ι → Prop) (visits : Namespace → Visit)

/-- A table of a device, at the places asked for, splits into the tables of its chips alone, each of
which visits its hashes in some order. All of them can be built. -/
def ServesUnion (out : Outside) : Prop :=
  ∃ (t : υ) (own : Namespace → υ), (build out).outcome = .ok t ∧
    (∀ c ∈ out.namespaces.chips,
      (build (out.alone (c.visitedBy (visits c)))).outcome = .ok (own c)) ∧
    ∀ i, asked i → DisjointUnion (row? t i) (fun c => row? (own c) i) out.namespaces.chips

variable {build row? asked visits}

theorem servesUnion_of_owner {out : Outside} (h : out.namespaces.Separate)
    (ReadFrom : υ → Namespaces → Prop) (Owns : Namespace → ι → Prop)
    (hbuild : ∃ t, (build out).outcome = .ok t ∧ ReadFrom t out.namespaces)
    (hchips : ∀ c, c ∈ out.namespaces.chips → ∃ own,
      (build (out.alone (c.visitedBy (visits c)))).outcome = .ok own ∧ ReadFrom own (alone c))
    (hplace : ∀ n t, ReadFrom t n → ∀ i r, row? t i = some r → ∃ c ∈ n.members, Owns c i)
    (hown : ∀ t own, ReadFrom t out.namespaces → ∀ c ∈ out.namespaces.chips,
      ReadFrom own (alone c) → ∀ i, asked i → Owns c i → row? t i = row? own i)
    (hsole : ∀ a b : Namespace, a.Apart b → ∀ i, Owns a i → ¬ Owns b i) :
    ServesUnion build row? asked visits out := by
  obtain ⟨t, ht, hread⟩ := hbuild
  have : Nonempty υ := ⟨t⟩
  choose! own hbuilt hreads using hchips
  refine ⟨t, own, ht, hbuilt, fun i hi => ?_⟩
  refine DisjointUnion.of_owner (fun c => Owns c i) (fun r hr => ?_)
    (fun c hc howns => hown t (own c) hread c hc (hreads c hc) i hi howns) (fun c hc howns => ?_)
    (h.apart.imp fun {a b} hapart => hsole a b hapart i)
  · obtain ⟨c, hc, howns⟩ := hplace _ t hread i r hr
    exact ⟨c, h.members ▸ hc, howns⟩
  · refine Option.eq_none_iff_forall_ne_some.2 fun r hr => howns ?_
    obtain ⟨d, hd, hother⟩ := hplace _ (own c) (hreads c hc) i r hr
    obtain rfl := List.mem_singleton.1 hd
    exact hother

end Union

/-! ## Orders of visiting that do not show -/

/-- Visited in another order, the hashes of a namespace hold the same ports and VLAN interfaces. -/
structure SameInterfaces (visit : Visit) (c : Namespace) : Prop where
  ports : (PortMaps.load (c.visitedBy visit)).outcome = (PortMaps.load c).outcome
  vlans : (VlanMaps.load (c.visitedBy visit)).outcome = (VlanMaps.load c).outcome

/-- Visited in another order, the hashes of a namespace hold the same queues. -/
def SameQueues (visit : Visit) (c : Namespace) : Prop :=
  (QueueMaps.load (c.visitedBy visit)).outcome = (QueueMaps.load c).outcome

theorem outcome_merged_alone {ι : Type} {load : Namespace → Load AgentError ι} {visit : Visit}
    {c : Namespace} (h : (load (c.visitedBy visit)).outcome = (load c).outcome) (merge : ι → ι → ι)
    (start : ι) :
    Load.outcome ((alone (c.visitedBy visit)).members.foldlM
        (fun acc ns => do pure (merge acc (← load ns))) start) =
      Load.outcome ((alone c).members.foldlM
        (fun acc ns => do pure (merge acc (← load ns))) start) := by
  have hsole : ∀ ns, Load.outcome ((alone ns).members.foldlM
      (fun acc ns => do pure (merge acc (← load ns))) start) =
        (load ns).outcome.map (merge start) := by
    intro ns
    show Load.outcome ((do pure (merge start (← load ns))) >>= pure) = _
    rw [bind_pure, Load.outcome_return]
  rw [hsole, hsole, h]

theorem Interfaces.outcome_build_visitedBy (out : Outside) {visit : Visit} {c : Namespace}
    (h : SameInterfaces visit c) :
    (build (out.alone (c.visitedBy visit))).outcome = (build (out.alone c)).outcome := by
  have hports : (PortMaps.loadAll (alone (c.visitedBy visit))).outcome =
      (PortMaps.loadAll (alone c)).outcome := outcome_merged_alone h.ports _ _
  have hvlans : (VlanMaps.loadAll (alone (c.visitedBy visit))).outcome =
      (VlanMaps.loadAll (alone c)).outcome := outcome_merged_alone h.vlans _ _
  have hload : (InterfaceMaps.load (alone (c.visitedBy visit))).outcome =
      (InterfaceMaps.load (alone c)).outcome := by
    simp only [InterfaceMaps.load, Load.outcome_bind, hports, hvlans]
    rfl
  rw [build, build, Load.outcome_bind, Load.outcome_bind]
  show (InterfaceMaps.load (alone (c.visitedBy visit))).outcome >>= _ =
    (InterfaceMaps.load (alone c)).outcome >>= _
  rw [hload]
  rfl

theorem QueueStats.outcome_build_visitedBy (out : Outside) {visit : Visit} {c : Namespace}
    (h : SameQueues visit c) :
    (build (out.alone (c.visitedBy visit))).outcome = (build (out.alone c)).outcome := by
  have hload : (QueueMaps.loadAll (alone (c.visitedBy visit))).outcome =
      (QueueMaps.loadAll (alone c)).outcome := outcome_merged_alone h _ _
  rw [build, build, Load.outcome_bind, Load.outcome_bind, Load.outcome_lift, Load.outcome_lift]
  show (QueueMaps.loadAll (alone (c.visitedBy visit))).outcome.mapError Failure.error >>= _ =
    (QueueMaps.loadAll (alone c)).outcome.mapError Failure.error >>= _
  rw [hload]
  rfl

/-! ## The tables of a device -/

/-- An index that no management port uses, neither one of the host nor one of a chip that the index
occurs in. -/
def NotManaged (n : Namespaces) (i : UInt32) : Prop :=
  ¬ n.host.ManagesIndex i ∧ ∀ c ∈ n.chips, i ∈ c.indexes → ¬ c.ManagesIndex i

variable {out : Outside} {visits : Namespace → Visit}

theorem Interfaces.servesUnion (h : out.namespaces.Separate)
    (hsame : ∀ c ∈ out.namespaces.chips, SameInterfaces (visits c) c) :
    ServesUnion build servedRow? (NotManaged out.namespaces) visits out := by
  refine servesUnion_of_owner h ReadFrom (fun c i => i ∈ c.indexes)
    (exists_build h.allHealthy h.host (h.members ▸ h.ports)) (fun c hc => ?_)
    (fun n t ht i row hrow => exists_place_of_servedRow? ht hrow)
    (fun t own ht c hc ht' i hi hmem => ?_) (fun a b hapart => hapart.indexes)
  · rw [outcome_build_visitedBy out (hsame c hc)]
    have halone : (out.alone c).namespaces.Healthy := h.aloneHealthy hc
    exact exists_build halone (h.healthy c hc)
      (List.forall_mem_singleton.2 (h.ports c hc))
  · exact servedRow?_of_mem h hc ht ht' hmem hi.1 (hi.2 c hc hmem)

/-- The queue table of a device cannot be built just when that of one of its chips overflows; else
it splits into those of the chips. -/
theorem QueueStats.servesUnion (h : out.namespaces.Separate)
    (hqueues : ∀ c ∈ out.namespaces.chips, c.HasCountedQueue)
    (hsame : ∀ c ∈ out.namespaces.chips, SameQueues (visits c) c) :
    ((∃ c ∈ out.namespaces.chips,
        (build (out.alone (c.visitedBy (visits c)))).outcome = .error .overflow) ↔
      (build out).outcome = .error .overflow) ∧
    ((build out).outcome ≠ .error .overflow →
      ServesUnion build valueAt (fun _ => True) visits out) := by
  obtain ⟨maps, hmaps⟩ := QueueMaps.exists_loadAll h.allHealthy (h.members ▸ hqueues)
  have hchips : ∀ c, c ∈ out.namespaces.chips →
      ∃ own, (QueueMaps.loadAll (alone c)).outcome = .ok own := fun c hc =>
    QueueMaps.exists_loadAll (h.aloneHealthy hc) (List.forall_mem_singleton.2 (hqueues c hc))
  choose! own hown using hchips
  have hover := overflows_iff_of_separate h hqueues hmaps hown
  have halone : ∀ c ∈ out.namespaces.chips,
      ((build (out.alone (c.visitedBy (visits c)))).outcome = .error .overflow ↔
        Overflows (alone c) (own c)) := by
    intro c hc
    rw [outcome_build_visitedBy out (hsame c hc)]
    have hloaded : (QueueMaps.loadAll (out.alone c).namespaces).outcome = .ok (own c) := hown c hc
    exact outcome_build_eq_overflow_iff hloaded
  refine ⟨?_, fun hnone => ?_⟩
  · rw [outcome_build_eq_overflow_iff hmaps, hover]
    exact exists_congr fun c => and_congr_right fun hc => halone c hc
  rw [ne_eq, outcome_build_eq_overflow_iff hmaps] at hnone
  refine servesUnion_of_owner h ReadFrom OfChip
    (exists_build h.allHealthy (h.members ▸ hqueues) hmaps hnone) (fun c hc => ?_)
    (fun n t ht sub v hv => exists_place_of_valueAt ht hv)
    (fun t own ht c hc ht' sub _ hsub => valueAt_of_ofChip h hc ht ht' hsub)
    (fun a b hapart sub => ?_)
  · rw [outcome_build_visitedBy out (hsame c hc)]
    have halone : (out.alone c).namespaces.Healthy := h.aloneHealthy hc
    exact exists_build halone (List.forall_mem_singleton.2 (hqueues c hc)) (hown c hc)
      fun hchip => hnone (hover.2 ⟨c, hc, hchip⟩)
  · rintro ⟨i, hi, hhead⟩ ⟨j, hj, hhead'⟩
    exact hapart.indexes i hi (Option.some.inj (hhead.symm.trans hhead') ▸ hj)

/-- The interface table of a device with healthy chips that have nothing in common can be built, and
so can that of each chip alone, in whatever order it visits its hashes, unless that shows in what it
loads. The rows of ports, groups and VLAN interfaces are those that the chips serve alone, cell by
cell, apart from indexes that a management port uses. Where every chip has queues with counters,
so are the rows of the queue statistics, unless a queue overflows: then neither its chip nor the
device has a table. -/
theorem serve_union (h : out.namespaces.Separate) (visits : Namespace → Visit) :
    let chips := out.namespaces.chips
    ((∀ c ∈ chips, SameInterfaces (visits c) c) →
      ServesUnion Interfaces.build Interfaces.servedRow? (NotManaged out.namespaces) visits out) ∧
    ((∀ c ∈ chips, c.HasCountedQueue) → (∀ c ∈ chips, SameQueues (visits c) c) →
      ((∃ c ∈ chips,
          (QueueStats.build (out.alone (c.visitedBy (visits c)))).outcome = .error .overflow) ↔
        (QueueStats.build out).outcome = .error .overflow) ∧
      ((QueueStats.build out).outcome ≠ .error .overflow →
        ServesUnion QueueStats.build QueueStats.valueAt (fun _ => True) visits out)) :=
  ⟨Interfaces.servesUnion h, QueueStats.servesUnion h⟩

/-- A chip with a port and one queue of it. -/
def chipOfQueue (name port portId queue queueId count : String) : Namespace :=
  [ (Schema.portNameMap, port, portId), (Schema.queueNameMap, port ++ queue, queueId)
  , (Schema.queueCounterKey portId, "SAI_PORT_STAT_IF_IN_OCTETS", count)
  , (Schema.queueCounterKey queueId, "SAI_QUEUE_STAT_PACKETS", count) ].foldl
    (fun ns write => ns.setFields .counters write.1 [write.2]) (Namespace.empty name)

/-- Such a chip with a second port, and another chip, beside a host with a management port. -/
def deviceOfQueues (port port' queue : String) : Outside where
  namespaces :=
    ⟨(Namespace.empty "").setFields .config "MGMT_PORT|eth0" [],
      [(chipOfQueue "asic0" port "oid:0x1" queue "oid:0x15" "7").setFields .counters
          Schema.portNameMap [(port', "oid:0x3")],
        chipOfQueue "asic1" "Ethernet4" "oid:0x2" ":3" "oid:0x16" "8"]⟩
  neighbours := .ok ""
  platform := ⟨.ok 0, fun _ => .ok false, fun _ => .ok false⟩

/-- Its only management port has an index beyond those of ports. -/
theorem notManaged_deviceOfQueues (port port' queue : String) {i : UInt32} (hi : i ≠ 10000) :
    NotManaged (deviceOfQueues port port' queue).namespaces i := by
  have hhost : ∀ name ∈ ((Namespace.empty "").setFields .config "MGMT_PORT|eth0" []).below .config
      ManagementMaps.portLead, Net.IfName.index? name = some 10000 := by decide +kernel
  refine ⟨?_, fun c hc _ => ?_⟩
  · rintro ⟨name, hname, hindex⟩
    exact hi (Option.some.inj (hindex.symm.trans (hhost name hname)))
  · rintro ⟨name, hname, -⟩
    have hnone : c.below .config ManagementMaps.portLead = [] := by
      rcases List.mem_cons.1 hc with rfl | hc
      · rfl
      · obtain rfl := List.mem_singleton.1 hc
        rfl
    rw [hnone] at hname
    cases hname

/-- Its tables have rows and counters of both chips, beside the row of the management port. -/
theorem serve_union_of_two_queues :
    let out := deviceOfQueues "Ethernet0" "Ethernet8" ":3"
    let n := out.namespaces
    let visits : Namespace → Visit := fun _ => .backwards
    n.Separate ∧ (∀ c ∈ n.chips, SameInterfaces (visits c) c) ∧
      (∀ c ∈ n.chips, c.HasCountedQueue) ∧ (∀ c ∈ n.chips, SameQueues (visits c) c) ∧
      (∃ (t : Interfaces) (own : Namespace → Interfaces),
        (Interfaces.build out).outcome = .ok t ∧
        t.cell.current.rows.keys = [1, 5, 9, 10000] ∧
        t.valueAt [2, 1, 10, 1] = some (.counter32 7) ∧
        t.valueAt [2, 1, 10, 5] = some (.counter32 8) ∧
        ∀ i, i ≠ 10000 →
          DisjointUnion (t.servedRow? i) (fun c => (own c).servedRow? i) n.chips) ∧
      ∃ (t : QueueStats) (own : Namespace → QueueStats),
        (QueueStats.build out).outcome = .ok t ∧
        t.cells = [[1, 2, 4, 1], [5, 2, 4, 1]] ∧
        ∀ sub, DisjointUnion (t.valueAt sub) (fun c => (own c).valueAt sub) n.chips := by
  intro out n visits
  have hseparate : n.Separate := by decide +kernel
  have hqueues : ∀ c ∈ n.chips, c.HasCountedQueue := by decide +kernel
  have hports : ∀ c ∈ n.chips, (PortMaps.load (c.visitedBy .backwards)).outcome =
      (PortMaps.load c).outcome := by decide +kernel
  have hvlans : ∀ c ∈ n.chips, (VlanMaps.load (c.visitedBy .backwards)).outcome =
      (VlanMaps.load c).outcome := by decide +kernel
  have hsame : ∀ c ∈ n.chips, SameInterfaces (visits c) c := fun c hc =>
    ⟨hports c hc, hvlans c hc⟩
  have hsame' : ∀ c ∈ n.chips, (QueueMaps.load (c.visitedBy .backwards)).outcome =
      (QueueMaps.load c).outcome := by decide +kernel
  have htable : (Interfaces.build out).outcome.map (fun t =>
      (t.cell.current.rows.keys, t.valueAt [2, 1, 10, 1], t.valueAt [2, 1, 10, 5])) =
        .ok ([1, 5, 9, 10000], some (.counter32 7), some (.counter32 8)) := by decide +kernel
  have hrows : (QueueStats.build out).outcome.map (fun t => t.cells) =
      .ok [[1, 2, 4, 1], [5, 2, 4, 1]] := by decide +kernel
  obtain ⟨hserves, hstats⟩ := serve_union hseparate visits
  obtain ⟨t, own, ht, -, hunion⟩ := hserves hsame
  obtain ⟨built, hbuilt, -⟩ := exists_eq_ok_of_map hrows
  obtain ⟨q, ownQueues, hq, -, hunion'⟩ :=
    (hstats hqueues hsame').2 fun hover => by rw [hbuilt] at hover; cases hover
  rw [ht] at htable
  rw [hq] at hrows
  obtain ⟨hkeys, hvalues⟩ := Prod.mk.inj (Except.ok.inj htable)
  obtain ⟨hfirst, hsecond⟩ := Prod.mk.inj hvalues
  exact ⟨hseparate, hsame, hqueues, hsame', ⟨t, own, ht, hkeys, hfirst, hsecond, fun i hi =>
    hunion i (notManaged_deviceOfQueues _ _ _ hi)⟩,
    q, ownQueues, hq, Except.ok.inj hrows, fun sub => hunion' sub trivial⟩

/-- A chip with two names for one index shows one name in the table of the device and the other in
its own, which visits its hashes in another order. A queue with the last of all numbers on one chip
ends the table of the device, though the other chip alone has a row. -/
theorem not_serves_union :
    let twoNames := deviceOfQueues "Ethernet1" "Ethernet01" ":3"
    let lastQueue := deviceOfQueues "Ethernet0" "Ethernet8" ":4294967295"
    (twoNames.namespaces.Separate ∧
      ¬ ServesUnion Interfaces.build Interfaces.servedRow? (NotManaged twoNames.namespaces)
        (fun _ => .backwards) twoNames) ∧
    (lastQueue.namespaces.Separate ∧ (∀ c ∈ lastQueue.namespaces.chips, c.HasCountedQueue) ∧
      (QueueStats.build lastQueue).outcome = .error .overflow ∧
      ∃ c ∈ lastQueue.namespaces.chips, ∃ own,
        (QueueStats.build (lastQueue.alone c)).outcome = .ok own ∧
        own.valueAt [5, 2, 4, 1] = some (.counter64 8)) := by
  intro twoNames lastQueue
  have hover : (QueueStats.build lastQueue).outcome.map (fun _ => ()) = .error .overflow := by
    decide +kernel
  refine ⟨⟨by decide +kernel, ?_⟩, by decide +kernel, by decide +kernel, eq_error_of_map hover, ?_⟩
  · rintro ⟨t, own, ht, hown, hunion⟩
    have hshown : (Interfaces.build twoNames).outcome.map
        (fun t => (t.servedRow? 2).map (·.1.name)) = .ok (some "Ethernet1") := by decide +kernel
    obtain ⟨c, hc, hshown'⟩ : ∃ c ∈ twoNames.namespaces.chips,
        (Interfaces.build (twoNames.alone (c.visitedBy .backwards))).outcome.map
          (fun t => (t.servedRow? 2).map (·.1.name)) = .ok (some "Ethernet01") := by decide +kernel
    rw [ht] at hshown
    rw [hown c hc] at hshown'
    obtain ⟨row, hrow, hname⟩ := Option.map_eq_some_iff.1 (Except.ok.inj hshown')
    have hmanaged := notManaged_deviceOfQueues "Ethernet1" "Ethernet01" ":3" (i := 2) (by decide)
    have hserved : t.servedRow? 2 = some row := ((hunion 2 hmanaged).union row).2 ⟨c, hc, hrow⟩
    have hother : (t.servedRow? 2).map (·.1.name) = some "Ethernet1" := Except.ok.inj hshown
    rw [hserved, Option.map_some, hname] at hother
    exact absurd hother (by decide)
  · obtain ⟨c, hc, hvalue⟩ : ∃ c ∈ lastQueue.namespaces.chips,
        (QueueStats.build (lastQueue.alone c)).outcome.map (·.valueAt [5, 2, 4, 1]) =
          .ok (some (.counter64 8)) := by decide +kernel
    obtain ⟨own, hown, hvalue⟩ := exists_eq_ok_of_map hvalue
    exact ⟨c, hc, own, hown, hvalue⟩

end Mib

end SwitchMib
