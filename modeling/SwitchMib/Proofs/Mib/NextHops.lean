import SwitchMib.Mib.Routes
import SwitchMib.Proofs.Dict
import SwitchMib.Proofs.Log
import SwitchMib.Proofs.Net.Addresses
import SwitchMib.Proofs.Net.Blocks

/-!
# Which next hops are listed

A route entry lists its next hops in one field and the interfaces that they are reached over in
another. A hop belongs to the interface at the same position, whatever stands at the others.

* `ListedAt`: the part at a position of a field.
* `LeadsOut`: a hop that an entry lists and that does not stay inside the device.
* `mem_nextHops_iff`: the hops taken from an entry are just those.
* `Routes.listed_refresh`: the rows of the table after a refresh.
* `hopArcs_inj`: the row of a hop of any block tells block and hop.
* `cidr_of_make`: what blocks are made of an address and a length.
-/

namespace SwitchMib.Mib
set_option autoImplicit false

open KeyOrder Net Snmp Store

/-! ## Positions -/

/-- The part at a position of a field, the parts being separated by commas. -/
def ListedAt (entry : Fields) (field : String) (i : Nat) (part : String) : Prop :=
  ∃ text parts, entry.get? field = some text ∧ Text.Parted ',' text parts ∧ parts[i]? = some part

/-- At some position the entry lists the hop, and at the same one no backplane port. -/
def LeadsOut (entry : Fields) (hop : Ipv4) : Prop :=
  ∃ i part, ListedAt entry Schema.nextHop i part ∧ Text.trim part = hop.display ∧
    ∀ interface, ListedAt entry Schema.hopInterface i interface →
      ∀ index, IfName.classify interface ≠ some (.backplane, index)

theorem listedAt_iff {entry : Fields} {field : String} {i : Nat} {part : String} :
    ListedAt entry field i part ↔
      (((entry.get? field).map (Text.split ',')).getD [])[i]? = some part := by
  simp only [ListedAt, ← Text.split_eq_iff, exists_and_left, exists_eq_left']
  cases entry.get? field <;> simp

theorem onBackplane_iff {interface : String} :
    onBackplane interface = true ↔ ∃ index, IfName.classify interface = some (.backplane, index) := by
  rw [onBackplane]
  constructor
  · intro h
    split at h
    · rename_i index hclassify
      exact ⟨index, hclassify⟩
    · cases h
  · rintro ⟨index, hclassify⟩
    rw [hclassify]

theorem mem_nextHops_iff {entry : Fields} {hop : Ipv4} :
    hop ∈ nextHops entry ↔ LeadsOut entry hop := by
  simp only [nextHops, List.mem_filterMap, Prod.exists, List.mem_zipIdx_iff_getElem?,
    ← listedAt_iff]
  have hparse : ∀ part, (Ipv4.parse part).toOption = some hop ↔ Text.trim part = hop.display := by
    intro part
    rw [toOption_eq_some_iff, Ipv4.parse_eq_ok_iff]
  constructor
  · rintro ⟨part, i, hpart, hhop⟩
    split at hhop
    · cases hhop
    · rename_i hout
      refine ⟨i, part, hpart, (hparse part).1 hhop, fun interface hinterface index hclassify => ?_⟩
      rw [listedAt_iff] at hinterface
      refine hout ?_
      rw [hinterface]
      exact onBackplane_iff.2 ⟨index, hclassify⟩
  · rintro ⟨i, part, hpart, hhop, hout⟩
    refine ⟨part, i, hpart, ?_⟩
    rw [if_neg, hparse]
    · exact hhop
    · rw [Option.any_eq_true]
      rintro ⟨interface, hinterface, hback⟩
      obtain ⟨index, hclassify⟩ := onBackplane_iff.1 hback
      exact hout interface (listedAt_iff.2 hinterface) index hclassify

/-- Neither a hop of the other protocol nor an empty one moves the interfaces of the later ones. -/
example :
    nextHops (Dict.ofList [(Schema.nextHop, "fe80::1,,10.0.0.1, 10.0.0.2 ,10.0.0.3"),
      (Schema.hopInterface, "Ethernet-BP0,Ethernet0,Ethernet-BP4,Ethernet4")]) =
      [⟨10, 0, 0, 2⟩, ⟨10, 0, 0, 3⟩] := by
  decide

/-! ## Rows -/

/-- The row of a hop of the default route. -/
def hopRow (hop : Ipv4) : SubId := List.replicate 8 0 ++ hop.arcs

theorem hopArcs_everything (hop : Ipv4) : hopArcs .everything hop = hopRow hop := by
  have hlead : Ipv4Block.everything.network.arcs ++ Ipv4Block.everything.netmask.arcs =
      List.replicate 8 0 := by decide
  rw [hopArcs, hlead, hopRow]

theorem hopRow_inj {hop hop' : Ipv4} (h : hopRow hop = hopRow hop') : hop = hop' :=
  Ipv4.arcs_inj (List.append_cancel_left h)

/-- The next hops that one namespace knows; none, if it cannot be read. -/
def hopsOf (ns : Namespace) : List Ipv4 :=
  match ns.getAll .appl defaultRouteKey with
  | .ok entry => nextHops entry
  | .error _ => []

/-- Some namespace that can be read has a default route with the hop. -/
def HasHop (n : Namespaces) (hop : Ipv4) : Prop :=
  ∃ ns ∈ n.members, ∃ entry, ns.getAll .appl defaultRouteKey = .ok entry ∧ LeadsOut entry hop

theorem mem_hopsOf_iff {ns : Namespace} {hop : Ipv4} :
    hop ∈ hopsOf ns ↔
      ∃ entry, ns.getAll .appl defaultRouteKey = .ok entry ∧ LeadsOut entry hop := by
  rw [hopsOf]
  cases ns.getAll .appl defaultRouteKey with
  | error e => simp
  | ok entry => simp [mem_nextHops_iff]

theorem value_addHops (rows : SubIdIndex Ipv4) (ns : Namespace) :
    (addHops rows ns).value =
      rows.insertAll (((hopsOf ns).map hopRow).map (·, Ipv4.unspecified)) := by
  rw [addHops, hopsOf]
  cases ns.getAll .appl defaultRouteKey with
  | error e => rfl
  | ok entry =>
    rw [List.map_map]
    simp only [hopArcs_everything]
    rfl

theorem value_foldlM_addHops (members : List Namespace) :
    (members.foldlM addHops Dict.empty).value = Dict.empty.insertAll
      ((members.flatMap fun ns => (hopsOf ns).map hopRow).map (·, Ipv4.unspecified)) := by
  rw [Logged.value_foldlM]
  simp only [value_addHops]
  rw [Dict.foldl_insertAll, List.map_flatMap]

namespace Routes

theorem get?_refresh (t : Routes) (out : Outside) {sub : SubId} {network : Ipv4} :
    (t.refresh out).value.after.cell.current.get? sub = some network ↔
      (∃ hop, HasHop out.namespaces hop ∧ sub = hopRow hop) ∧ network = Ipv4.unspecified := by
  have hrows : (t.refresh out).value.after.cell.current =
      (out.namespaces.members.foldlM addHops Dict.empty).value := rfl
  have hmem : (sub ∈ out.namespaces.members.flatMap fun ns => (hopsOf ns).map hopRow) ↔
      ∃ hop, HasHop out.namespaces hop ∧ sub = hopRow hop := by
    simp only [List.mem_flatMap, List.mem_map, mem_hopsOf_iff, HasHop]
    constructor
    · rintro ⟨ns, hns, hop, hhop, rfl⟩
      exact ⟨hop, ⟨ns, hns, hhop⟩, rfl⟩
    · rintro ⟨hop, ⟨ns, hns, hhop⟩, rfl⟩
      exact ⟨ns, hns, hop, hhop, rfl⟩
  rw [hrows, value_foldlM_addHops, Dict.get?_insertAll_const, ← hmem, Dict.get?_empty]
  split
  · rename_i hsub
    simp [hsub, eq_comm]
  · rename_i hsub
    simp [hsub]

/-- A refresh never fails, and after it the table has one row for every next hop that leads out by
the default route of some namespace that can be read, and no others: each once, in order, with the
network of the route as its value. -/
theorem listed_refresh (t : Routes) (out : Outside) :
    let u := (t.refresh out).value.after
    (t.refresh out).value.outcome = .ok () ∧ Ascending u.cells ∧
      (∀ sub ∈ u.cells, ∃ hop, sub = hopRow hop) ∧
      (∀ hop, hopRow hop ∈ u.cells ↔ HasHop out.namespaces hop) ∧
      (∀ sub v, u.valueAt sub = some v ↔ sub ∈ u.cells ∧ v = .ipAddress .unspecified) ∧
      ∀ sub, IsSuccessor (· ∈ u.cells) sub (u.next sub) := by
  intro u
  have hcells : ∀ sub, sub ∈ u.cells ↔ ∃ hop, HasHop out.namespaces hop ∧ sub = hopRow hop := by
    intro sub
    rw [cells, Dict.mem_keys_iff, Option.isSome_iff_exists]
    simp only [u, get?_refresh, exists_and_left, exists_eq, and_true]
  refine ⟨rfl, Dict.keys_ascending _, ?_, ?_, ?_, Dict.above?_isSuccessor _⟩
  · intro sub hsub
    obtain ⟨hop, -, rfl⟩ := (hcells sub).1 hsub
    exact ⟨hop, rfl⟩
  · intro hop
    rw [hcells]
    constructor
    · rintro ⟨hop', hknown, hrow⟩
      rwa [hopRow_inj hrow]
    · exact fun hknown => ⟨hop, hknown, rfl⟩
  · intro sub v
    rw [valueAt, Option.map_eq_some_iff, hcells]
    simp only [u, get?_refresh]
    constructor
    · rintro ⟨network, ⟨hsub, rfl⟩, rfl⟩
      exact ⟨hsub, rfl⟩
    · rintro ⟨hsub, rfl⟩
      exact ⟨_, ⟨hsub, rfl⟩, rfl⟩

/-- A device with two chips. The first knows next hops of both protocols, one of them over a
backplane port and one twice; the second has the same route, but it cannot be reached. -/
def worldOfHops : Outside where
  namespaces :=
    let chip (name : String) (hops interfaces : String) : Namespace :=
      (Namespace.empty name).setFields .appl defaultRouteKey
        [(Schema.nextHop, hops), (Schema.hopInterface, interfaces)]
    ⟨.empty "",
      [ chip "asic0" "fe80::1,10.0.0.1,,10.0.0.2 ,10.0.0.3,10.0.0.3"
          "Ethernet0,Ethernet-BP4,Ethernet4,Ethernet8"
      , (chip "asic1" "10.0.0.4" "Ethernet12").setReachable false ]⟩
  neighbours := .ok ""
  platform := ⟨.ok 0, fun _ => .ok false, fun _ => .ok false⟩

/-- The hop with the name of an interface beside it and the one without have a row each, and neither
the hop over the backplane nor that of the chip out of reach has one. -/
theorem listed_refresh_of_two_chips :
    let t : Routes := ⟨.fresh .empty⟩
    let u := (t.refresh worldOfHops).value.after
    let n := worldOfHops.namespaces
    u.cells = [hopRow ⟨10, 0, 0, 2⟩, hopRow ⟨10, 0, 0, 3⟩] ∧
      HasHop n ⟨10, 0, 0, 2⟩ ∧ HasHop n ⟨10, 0, 0, 3⟩ ∧
      ¬ HasHop n ⟨10, 0, 0, 1⟩ ∧ ¬ HasHop n ⟨10, 0, 0, 4⟩ ∧
      u.valueAt (hopRow ⟨10, 0, 0, 2⟩) = some (.ipAddress .unspecified) := by
  intro t u n
  have hcells : u.cells = [hopRow ⟨10, 0, 0, 2⟩, hopRow ⟨10, 0, 0, 3⟩] := by decide +kernel
  obtain ⟨-, -, -, hhops, hvalues, -⟩ := listed_refresh t worldOfHops
  have hknown : ∀ hop, HasHop n hop ↔ hopRow hop ∈ [hopRow ⟨10, 0, 0, 2⟩, hopRow ⟨10, 0, 0, 3⟩] :=
    fun hop => by rw [← hcells]; exact (hhops hop).symm
  refine ⟨hcells, (hknown _).2 (by decide), (hknown _).2 (by decide), ?_, ?_, ?_⟩
  · exact fun hover => absurd ((hknown _).1 hover) (by decide)
  · exact fun hunread => absurd ((hknown _).1 hunread) (by decide)
  · exact (hvalues _ _).2 ⟨(hhops _).2 ((hknown _).2 (by decide)), rfl⟩

end Routes

/-! ## Rows of any block -/

theorem hopArcs_inj {x y : Ipv4Block} {hop hop' : Ipv4} (hx : x.Canonical) (hy : y.Canonical)
    (h : hopArcs x hop = hopArcs y hop') : x = y ∧ hop = hop' := by
  have hfour : ∀ a : Ipv4, a.arcs.length = 4 := fun _ => rfl
  obtain ⟨hblock, hhop⟩ := List.append_inj h (by simp [hfour])
  obtain ⟨hnetwork, hmask⟩ := List.append_inj hblock (by rw [hfour, hfour])
  have hlength := Ipv4Block.length_eq_of_netmask_eq hx.length_le hy.length_le
    (Ipv4.arcs_inj hmask)
  have hsame : x = ⟨y.network, y.length⟩ := by rw [← Ipv4.arcs_inj hnetwork, ← hlength]
  exact ⟨hsame, Ipv4.arcs_inj hhop⟩

/-- A block can be made of an address and a length of at most 32. It is that of all addresses with
the same leading bits, the least of which is its network, and nothing else goes into it. Its mask
has just the leading bits set and leaves the network as it is, and so does making the block again.
The rows of two hops are the same just for the same block and the same hop. -/
theorem cidr_of_make (a b : Ipv4) (l m : UInt8) :
    ((∃ x, Ipv4Block.make a l = .ok x) ↔ l.toNat ≤ 32) ∧
      (Ipv4Block.make a l = Ipv4Block.make b m ↔
        l = m ∧ a.bits.take l.toNat = b.bits.take m.toNat) ∧
      (∀ x, Ipv4Block.make a l = .ok x →
        x.length = l ∧ (∀ c, x.Holds c ↔ c.bits.take l.toNat = a.bits.take l.toNat) ∧
          x.Holds x.network ∧ (∀ c, x.Holds c → before c x.network = false) ∧
          x.netmask.bits = List.replicate l.toNat true ++ List.replicate (32 - l.toNat) false ∧
          x.network.toNat &&& x.netmask.toNat = x.network.toNat ∧
          Ipv4Block.make x.network l = .ok x) ∧
      ∀ x y hop hop', Ipv4Block.make a l = .ok x → Ipv4Block.make b m = .ok y →
        (hopArcs x hop = hopArcs y hop' ↔ x = y ∧ hop = hop') := by
  refine ⟨Ipv4Block.exists_make_iff, Ipv4Block.make_eq_make_iff, fun x hx => ?_, ?_⟩
  · have hcanonical := Ipv4Block.canonical_of_make hx
    have hagain := Ipv4Block.make_self_iff.2 hcanonical
    obtain ⟨hl, hmasked⟩ := Ipv4Block.canonical_iff.1 hcanonical
    obtain ⟨-, hlength, -⟩ := Ipv4Block.make_eq_ok_iff.1 hx
    have hholds := Ipv4Block.holds_iff_of_make hx
    subst hlength
    refine ⟨rfl, hholds, x.holds_network, fun c hc => ?_, Ipv4Block.bits_netmask hl, ?_, hagain⟩
    · have hle := Ipv4Block.network_le_of_holds hcanonical hc
      rw [← Bool.not_eq_true, Ipv4.before_iff]
      omega
    · rw [Ipv4Block.toNat_netmask, ← hmasked]
  · intro x y hop hop' hx hy
    constructor
    · exact hopArcs_inj (Ipv4Block.canonical_of_make hx) (Ipv4Block.canonical_of_make hy)
    · rintro ⟨rfl, rfl⟩
      rfl

/-- Two addresses of one block of eight common bits, and two hops. -/
theorem cidr_of_make_eight :
    let x : Ipv4Block := ⟨⟨10, 0, 0, 0⟩, 8⟩
    Ipv4Block.make ⟨10, 1, 2, 3⟩ 8 = .ok x ∧ Ipv4Block.make ⟨10, 200, 0, 0⟩ 8 = .ok x ∧
      x.Holds ⟨10, 255, 0, 1⟩ ∧ before ⟨10, 255, 0, 1⟩ x.network = false ∧
      hopArcs x ⟨10, 0, 0, 1⟩ ≠ hopArcs x ⟨10, 0, 0, 2⟩ := by
  intro x
  have hx : Ipv4Block.make ⟨10, 1, 2, 3⟩ 8 = .ok x := by decide
  have hy : Ipv4Block.make ⟨10, 200, 0, 0⟩ 8 = .ok x := by decide
  obtain ⟨-, -, hmade, hrows⟩ := cidr_of_make ⟨10, 1, 2, 3⟩ ⟨10, 200, 0, 0⟩ 8 8
  have hholds : x.Holds ⟨10, 255, 0, 1⟩ := by decide
  obtain ⟨-, -, -, hleast, -⟩ := hmade x hx
  refine ⟨hx, hy, hholds, hleast _ hholds, fun hsame => ?_⟩
  exact absurd ((hrows x x _ _ hx hy).1 hsame).2 (by decide)

end SwitchMib.Mib
