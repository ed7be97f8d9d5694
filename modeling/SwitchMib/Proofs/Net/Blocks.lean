import Mathlib.Algebra.Group.Nat.Defs
import SwitchMib.Document.Address
import SwitchMib.Proofs.Net.Addresses

/-!
# Address blocks bit by bit

A block is the addresses that begin with the same bits. Making it clears the bits after those, so
that there is one value for a block, its least address. A block that is read from a record is not
made: it has whatever two fields the record has.

* `Ipv4.bits`: the bits of an address. `Ipv4.take_bits_eq_iff` tells the leading ones by the number
  of the address.
* `Ipv4Block.Holds`: the addresses of a block.
* `Ipv4Block.bits_netmask`: the mask is as many ones as the block has bits in common, and zeros.
* `Ipv4Block.make_eq_ok_iff`, `Ipv4Block.make_eq_make_iff`: which blocks are made, and when twice
  the same.
* `Ipv4Block.Canonical`: no bit is set after the common ones, of which there are at most 32.
* `Ipv4Block.canonical_iff_checked`: the canonical blocks are those that were not read from a record.
-/

namespace SwitchMib.Net
set_option autoImplicit false

open Text

/-! ## Bits -/

/-- The low bits of a number, the most significant one first. -/
def lowBits (k n : Nat) : List Bool := (List.range k).map fun i => n.testBit (k - 1 - i)

theorem testBit_octet (m : Nat) (o : UInt8) (j : Nat) :
    (m * 256 + o.toNat).testBit j =
      if j < 8 then o.toNat.testBit j else m.testBit (j - 8) := by
  have hsum : m * 256 + o.toNat = 2 ^ 8 * m + o.toNat := by omega
  rw [hsum, Nat.testBit_two_pow_mul_add m o.toNat_lt]

theorem lowBits_octet (k m : Nat) (o : UInt8) :
    lowBits (k + 8) (m * 256 + o.toNat) = lowBits k m ++ lowBits 8 o.toNat := by
  rw [lowBits, List.range_add, List.map_append, List.map_map]
  congr 1
  · refine List.map_congr_left fun i hi => ?_
    have hlt := List.mem_range.1 hi
    have hindex : k + 8 - 1 - i - 8 = k - 1 - i := by omega
    rw [testBit_octet, if_neg (by omega), hindex]
  · refine List.map_congr_left fun i hi => ?_
    have hlt := List.mem_range.1 hi
    have hindex : k + 8 - 1 - (k + i) = 8 - 1 - i := by omega
    rw [Function.comp_apply, testBit_octet, if_pos (by omega), hindex]

namespace Ipv4

/-- The bits of an address, octet by octet. -/
def bits (x : Ipv4) : List Bool := x.octets.flatMap fun o => lowBits 8 o.toNat

theorem toNat_lt (x : Ipv4) : x.toNat < UInt32.size := by
  have ha := x.a.toNat_lt
  have hb := x.b.toNat_lt
  have hc := x.c.toNat_lt
  have hd := x.d.toNat_lt
  simp only [toNat, UInt32.size]
  omega

theorem testBit_of_le {x : Ipv4} {j : Nat} (hj : 32 ≤ j) : x.toNat.testBit j = false := by
  have hpow : 2 ^ 32 ≤ 2 ^ j := Nat.pow_le_pow_right (by omega) hj
  exact Nat.testBit_lt_two_pow (Nat.lt_of_lt_of_le x.toNat_lt hpow)

theorem toNat_ofNat {n : Nat} (h : n < UInt32.size) : (ofNat n).toNat = n := by
  simp only [UInt32.size] at h
  simp only [toNat, ofNat, UInt8.toNat_ofNat']
  omega

theorem toNat_inj {x y : Ipv4} : x.toNat = y.toNat ↔ x = y := by
  constructor
  · intro h
    have ha := x.a.toNat_lt
    have hb := x.b.toNat_lt
    have hc := x.c.toNat_lt
    have hd := x.d.toNat_lt
    have ha' := y.a.toNat_lt
    have hb' := y.b.toNat_lt
    have hc' := y.c.toNat_lt
    have hd' := y.d.toNat_lt
    obtain ⟨a, b, c, d⟩ := x
    obtain ⟨a', b', c', d'⟩ := y
    simp only [toNat] at *
    simp only [mk.injEq, ← UInt8.toNat_inj]
    omega
  · rintro rfl
    rfl

theorem ofNat_toNat (x : Ipv4) : ofNat x.toNat = x := toNat_inj.1 (toNat_ofNat x.toNat_lt)

/-- Addresses are ordered by their numbers. -/
theorem before_iff {x y : Ipv4} : KeyOrder.before x y = true ↔ x.toNat < y.toNat := by
  have hoctet : ∀ o p : UInt8, KeyOrder.before o p = true ↔ o.toNat < p.toNat :=
    fun _ _ => decide_eq_true_iff
  have hlex : KeyOrder.before x y = lexBefore x.octets y.octets := rfl
  have hb := x.b.toNat_lt
  have hc := x.c.toNat_lt
  have hd := x.d.toNat_lt
  have hb' := y.b.toNat_lt
  have hc' := y.c.toNat_lt
  have hd' := y.d.toNat_lt
  rw [hlex]
  simp only [octets, lexBefore_cons_iff, lexBefore_nil_right, hoctet, ← UInt8.toNat_inj, toNat,
    Bool.false_eq_true, and_false, or_false]
  omega

/-- The bits of an address are those of its number. -/
theorem bits_eq (x : Ipv4) : x.bits = lowBits 32 x.toNat := by
  rw [toNat, lowBits_octet 24, lowBits_octet 16, lowBits_octet 8]
  simp only [bits, octets, List.flatMap_cons, List.flatMap_nil, List.append_nil,
    List.append_assoc]

theorem length_bits (x : Ipv4) : x.bits.length = 32 := by
  rw [bits_eq, lowBits, List.length_map, List.length_range]

theorem take_bits_eq_iff {x y : Ipv4} {k : Nat} :
    x.bits.take k = y.bits.take k ↔
      ∀ j < 32, 32 - k ≤ j → x.toNat.testBit j = y.toNat.testBit j := by
  rw [bits_eq, bits_eq, lowBits, lowBits, ← List.map_take, ← List.map_take, List.take_range,
    List.map_inj_left]
  simp only [List.mem_range]
  constructor
  · intro h j hj hk
    have hindex : 32 - 1 - (31 - j) = j := by omega
    have hbit := h (31 - j) (by omega)
    rwa [hindex] at hbit
  · intro h i hi
    exact h (32 - 1 - i) (by omega) (by omega)

theorem drop_bits_eq_false_iff {x : Ipv4} {k : Nat} :
    (∀ bit ∈ x.bits.drop k, bit = false) ↔ ∀ j < 32 - k, x.toNat.testBit j = false := by
  rw [bits_eq, lowBits, ← List.map_drop, List.range_eq_range', List.drop_range']
  simp only [List.mem_map, List.mem_range'_1, forall_exists_index, and_imp]
  constructor
  · intro h j hj
    have hindex : 32 - 1 - (31 - j) = j := by omega
    exact h _ (31 - j) (by omega) (by omega) (by rw [hindex])
  · rintro h bit i hlow hhigh rfl
    exact h (32 - 1 - i) (by omega)

theorem bits_inj {x y : Ipv4} : x.bits = y.bits ↔ x = y := by
  constructor
  · intro h
    have htake : x.bits.take 32 = y.bits.take 32 := by rw [h]
    refine toNat_inj.1 (Nat.eq_of_testBit_eq fun j => ?_)
    by_cases hj : j < 32
    · exact take_bits_eq_iff.1 htake j hj (by omega)
    · rw [testBit_of_le (Nat.not_lt.1 hj), testBit_of_le (Nat.not_lt.1 hj)]
  · rintro rfl
    rfl

theorem display_inj {x y : Ipv4} (h : x.display = y.display) : x = y := by
  have hx : parseExact x.display = some x := parseExact_eq_some_iff.2 rfl
  have hy : parseExact x.display = some y := parseExact_eq_some_iff.2 h
  exact Option.some.inj (hx.symm.trans hy)

end Ipv4

namespace Ipv4Block

/-! ## Masks -/

theorem toNat_hostBits {l : UInt8} (h : l.toNat ≤ 32) : (hostBits l).toNat = 32 - l.toNat := by
  have hword : (32 : UInt32).toNat = 32 := rfl
  have hle : l.toUInt32 ≤ 32 := by
    rw [UInt32.le_iff_toNat_le, UInt8.toNat_toUInt32, hword]
    exact h
  rw [hostBits, UInt32.toNat_sub_of_le _ _ hle, UInt8.toNat_toUInt32, hword]

theorem testBit_maskBits {l : UInt8} (h : l.toNat ≤ 32) (j : Nat) :
    (maskBits l).toNat.testBit j = decide (32 - l.toNat ≤ j ∧ j < 32) := by
  by_cases hzero : l = 0
  · subst hzero
    have hnone : ¬ (32 - (0 : UInt8).toNat ≤ j ∧ j < 32) := by
      rintro ⟨hle, hlt⟩
      exact absurd hlt (Nat.not_lt.2 hle)
    rw [maskBits, if_pos rfl, decide_eq_false hnone]
    exact Nat.zero_testBit j
  · have hpos : l.toNat ≠ 0 := fun hnat => hzero (UInt8.toNat_inj.1 hnat)
    have hones : (0xffffffff : UInt32).toNat = 2 ^ 32 - 1 := rfl
    have hshift : (32 - l.toNat) % 32 = 32 - l.toNat := Nat.mod_eq_of_lt (by omega)
    rw [maskBits, if_neg hzero, UInt32.toNat_shiftLeft, toNat_hostBits h, hshift,
      Nat.testBit_mod_two_pow, Nat.testBit_shiftLeft, hones, Nat.testBit_two_pow_sub_one,
      Bool.eq_iff_iff]
    simp only [Bool.and_eq_true, decide_eq_true_eq]
    omega

theorem toNat_netmask (x : Ipv4Block) : x.netmask.toNat = (maskBits x.length).toNat :=
  Ipv4.toNat_ofNat (maskBits x.length).toNat_lt

theorem bits_netmask {x : Ipv4Block} (h : x.length.toNat ≤ 32) :
    x.netmask.bits =
      List.replicate x.length.toNat true ++ List.replicate (32 - x.length.toNat) false := by
  rw [Ipv4.bits_eq, lowBits, toNat_netmask]
  refine List.ext_getElem (by simp; omega) fun i hi _ => ?_
  have hlt : i < 32 := by simpa using hi
  simp only [List.getElem_map, List.getElem_range, testBit_maskBits h, List.getElem_append,
    List.getElem_replicate, List.length_replicate]
  by_cases hin : i < x.length.toNat
  · have hset : 32 - x.length.toNat ≤ 32 - 1 - i ∧ 32 - 1 - i < 32 := by omega
    rw [dif_pos hin, decide_eq_true hset]
  · have hclear : ¬ (32 - x.length.toNat ≤ 32 - 1 - i ∧ 32 - 1 - i < 32) := by omega
    rw [dif_neg hin, decide_eq_false hclear]

theorem length_eq_of_netmask_eq {x y : Ipv4Block} (hx : x.length.toNat ≤ 32)
    (hy : y.length.toNat ≤ 32) (h : x.netmask = y.netmask) : x.length = y.length := by
  have hcount := congrArg (fun mask : Ipv4 => mask.bits.count true) h
  simp only [bits_netmask hx, bits_netmask hy, List.count_append, List.count_replicate] at hcount
  exact UInt8.toNat_inj.1 (by simpa using hcount)

/-! ## Making blocks -/

section Masked
variable {a b : Ipv4} {l : UInt8}

theorem testBit_and_maskBits (h : l.toNat ≤ 32) (j : Nat) :
    (a.toNat &&& (maskBits l).toNat).testBit j =
      (a.toNat.testBit j && decide (32 - l.toNat ≤ j ∧ j < 32)) := by
  rw [Nat.testBit_and, testBit_maskBits h]

theorem and_maskBits_eq_iff (h : l.toNat ≤ 32) :
    a.toNat &&& (maskBits l).toNat = b.toNat &&& (maskBits l).toNat ↔
      a.bits.take l.toNat = b.bits.take l.toNat := by
  rw [Ipv4.take_bits_eq_iff]
  constructor
  · intro heq j hj hlow
    have hbit := congrArg (fun n => n.testBit j) heq
    simpa [testBit_and_maskBits h, hj, hlow] using hbit
  · intro hbits
    refine Nat.eq_of_testBit_eq fun j => ?_
    rw [testBit_and_maskBits h, testBit_and_maskBits h]
    by_cases hj : 32 - l.toNat ≤ j ∧ j < 32
    · rw [hbits j hj.2 hj.1]
    · rw [decide_eq_false hj, Bool.and_false, Bool.and_false]

theorem and_maskBits_lt (a : Ipv4) (l : UInt8) :
    a.toNat &&& (maskBits l).toNat < UInt32.size :=
  Nat.lt_of_le_of_lt Nat.and_le_left a.toNat_lt

end Masked

theorem make_eq_ok_iff {a : Ipv4} {l : UInt8} {x : Ipv4Block} :
    make a l = .ok x ↔
      l.toNat ≤ 32 ∧ x.length = l ∧ x.network.toNat = a.toNat &&& (maskBits l).toNat := by
  rw [make]
  by_cases hl : l.toNat ≤ 32
  · rw [if_pos hl, Except.ok.injEq]
    constructor
    · rintro rfl
      exact ⟨hl, rfl, Ipv4.toNat_ofNat (and_maskBits_lt a l)⟩
    · rintro ⟨-, rfl, hnetwork⟩
      rw [← hnetwork, Ipv4.ofNat_toNat]
  · rw [if_neg hl]
    simp [hl]

theorem exists_make_iff {a : Ipv4} {l : UInt8} : (∃ x, make a l = .ok x) ↔ l.toNat ≤ 32 := by
  constructor
  · rintro ⟨x, hx⟩
    exact (make_eq_ok_iff.1 hx).1
  · intro hl
    exact ⟨_, if_pos hl⟩

theorem display_inj {x y : Ipv4Block} (h : x.display = y.display) : x = y := by
  have hslash : ∀ n, '/' ∉ decimalChars n := by
    intro n hmem
    have hdigit := decimal_digits n '/' hmem
    revert hdigit
    decide
  have hparts : ∀ z : Ipv4Block, z.display.toList =
      z.network.display.toList ++ '/' :: decimalChars z.length.toNat := by
    intro z
    simp [display, decimal]
  have hchars := congrArg String.toList h
  rw [hparts, hparts] at hchars
  obtain ⟨hnetwork, hlength⟩ := append_cons_inj_of_last hchars (hslash _) (hslash _)
  have hx : x = ⟨x.network, x.length⟩ := rfl
  rw [hx, Ipv4.display_inj (String.toList_inj.1 hnetwork),
    UInt8.toNat_inj.1 (decimalChars_inj hlength)]

/-- Blocks, and failures to make one, are the same just for the same length and the same bits up to
it. -/
theorem make_eq_make_iff {a b : Ipv4} {l m : UInt8} :
    make a l = make b m ↔ l = m ∧ a.bits.take l.toNat = b.bits.take m.toNat := by
  by_cases hl : l.toNat ≤ 32
  · obtain ⟨x, hx⟩ := exists_make_iff.2 hl
    obtain ⟨-, hlength, hnetwork⟩ := make_eq_ok_iff.1 hx
    rw [hx, eq_comm, make_eq_ok_iff, hlength, hnetwork]
    constructor
    · rintro ⟨-, rfl, hmasked⟩
      exact ⟨rfl, (and_maskBits_eq_iff hl).1 hmasked⟩
    · rintro ⟨rfl, hbits⟩
      exact ⟨hl, rfl, (and_maskBits_eq_iff hl).2 hbits⟩
  · have hall : ∀ c : Ipv4, c.bits.take l.toNat = c.bits := by
      intro c
      exact List.take_of_length_le (by rw [c.length_bits]; omega)
    rw [make, if_neg hl]
    constructor
    · intro h
      rw [make] at h
      split at h
      · cases h
      · have htext : display ⟨a, l⟩ = display ⟨b, m⟩ := by simpa using h
        cases display_inj htext
        exact ⟨rfl, rfl⟩
    · rintro ⟨rfl, hbits⟩
      rw [hall, hall, Ipv4.bits_inj] at hbits
      rw [make, if_neg hl, hbits]

/-! ## Addresses of blocks -/

/-- The block holds the addresses that have its leading bits. -/
def Holds (x : Ipv4Block) (a : Ipv4) : Prop :=
  a.bits.take x.length.toNat = x.network.bits.take x.length.toNat

instance (x : Ipv4Block) (a : Ipv4) : Decidable (x.Holds a) :=
  inferInstanceAs (Decidable (_ = _))

/-- No bit is set after the leading ones, and there are not more of them than an address has. -/
structure Canonical (x : Ipv4Block) : Prop where
  length_le : x.length.toNat ≤ 32
  clear : ∀ bit ∈ x.network.bits.drop x.length.toNat, bit = false

instance (x : Ipv4Block) : Decidable x.Canonical :=
  decidable_of_iff (x.length.toNat ≤ 32 ∧ ∀ bit ∈ x.network.bits.drop x.length.toNat, bit = false)
    ⟨fun h => ⟨h.1, h.2⟩, fun h => ⟨h.length_le, h.clear⟩⟩

theorem canonical_iff {x : Ipv4Block} :
    x.Canonical ↔ x.length.toNat ≤ 32 ∧
      x.network.toNat = x.network.toNat &&& (maskBits x.length).toNat := by
  constructor
  · rintro ⟨hl, hclear⟩
    refine ⟨hl, Nat.eq_of_testBit_eq fun j => ?_⟩
    rw [testBit_and_maskBits hl]
    by_cases hlow : j < 32 - x.length.toNat
    · rw [Ipv4.drop_bits_eq_false_iff.1 hclear j hlow, Bool.false_and]
    · by_cases hj : j < 32
      · have hset : 32 - x.length.toNat ≤ j ∧ j < 32 := by omega
        rw [decide_eq_true hset, Bool.and_true]
      · rw [Ipv4.testBit_of_le (Nat.not_lt.1 hj), Bool.false_and]
  · rintro ⟨hl, hmasked⟩
    refine ⟨hl, Ipv4.drop_bits_eq_false_iff.2 fun j hj => ?_⟩
    have hclear : ¬ (32 - x.length.toNat ≤ j ∧ j < 32) := by omega
    rw [hmasked, testBit_and_maskBits hl, decide_eq_false hclear, Bool.and_false]

/-- The block around its network is the block itself just where it is canonical. -/
theorem make_self_iff {x : Ipv4Block} : make x.network x.length = .ok x ↔ x.Canonical := by
  rw [make_eq_ok_iff, canonical_iff]
  simp

section Made
variable {a : Ipv4} {l : UInt8} {x : Ipv4Block}

theorem canonical_of_make (h : make a l = .ok x) : x.Canonical := by
  obtain ⟨hl, rfl, hnetwork⟩ := make_eq_ok_iff.1 h
  rw [canonical_iff, hnetwork, Nat.and_assoc, Nat.and_self]
  exact ⟨hl, rfl⟩

theorem holds_iff_of_make (h : make a l = .ok x) (c : Ipv4) :
    x.Holds c ↔ c.bits.take l.toNat = a.bits.take l.toNat := by
  obtain ⟨hl, rfl, hnetwork⟩ := make_eq_ok_iff.1 h
  have hnetwork' : x.network.bits.take x.length.toNat = a.bits.take x.length.toNat := by
    rw [← and_maskBits_eq_iff hl, hnetwork, Nat.and_assoc, Nat.and_self]
  rw [Holds, hnetwork']

end Made

theorem holds_network (x : Ipv4Block) : x.Holds x.network := rfl

theorem network_le_of_holds {x : Ipv4Block} {c : Ipv4} (hx : x.Canonical) (hc : x.Holds c) :
    x.network.toNat ≤ c.toNat := by
  obtain ⟨hl, hmasked⟩ := canonical_iff.1 hx
  rw [hmasked, ← (and_maskBits_eq_iff hl).2 hc]
  exact Nat.and_le_left

/-- A block inside another one has no fewer bits in common. -/
theorem length_le_of_holds {x y : Ipv4Block} (hy : y.length.toNat ≤ 32)
    (h : ∀ a, x.Holds a → y.Holds a) : y.length.toNat ≤ x.length.toNat := by
  by_contra hlt
  -- the first bit after those of `x` turned over leads out of `y`
  have hlow : 31 - x.length.toNat < 32 := by omega
  have hpow : 2 ^ (31 - x.length.toNat) < UInt32.size := Nat.pow_lt_pow_right (by omega) hlow
  have hnumber : x.network.toNat ^^^ 2 ^ (31 - x.length.toNat) < UInt32.size :=
    Nat.xor_lt_two_pow (n := 32) x.network.toNat_lt hpow
  have hturned : x.Holds (.ofNat (x.network.toNat ^^^ 2 ^ (31 - x.length.toNat))) := by
    rw [Holds, Ipv4.take_bits_eq_iff, Ipv4.toNat_ofNat hnumber]
    intro j _ hj
    have hne : 31 - x.length.toNat ≠ j := by omega
    rw [Nat.testBit_xor, Nat.testBit_two_pow, decide_eq_false hne, Bool.xor_false]
  have hfixed : ∀ a, x.Holds a → a.toNat.testBit (31 - x.length.toNat) =
      y.network.toNat.testBit (31 - x.length.toNat) := by
    intro a ha
    exact Ipv4.take_bits_eq_iff.1 (h a ha) _ hlow (by omega)
  have hbit := (hfixed _ hturned).trans (hfixed _ x.holds_network).symm
  rw [Ipv4.toNat_ofNat hnumber, Nat.testBit_xor, Nat.testBit_two_pow_self] at hbit
  simp at hbit

/-- Canonical blocks are the same just where they hold the same addresses. -/
theorem eq_iff_holds {x y : Ipv4Block} (hx : x.Canonical) (hy : y.Canonical) :
    x = y ↔ ∀ a, x.Holds a ↔ y.Holds a := by
  constructor
  · rintro rfl a
    rfl
  · intro h
    have hle := length_le_of_holds hy.length_le fun a => (h a).1
    have hge := length_le_of_holds hx.length_le fun a => (h a).2
    have hlength : x.length = y.length := UInt8.toNat_inj.1 (by omega)
    have hxy : x.network.toNat ≤ y.network.toNat :=
      network_le_of_holds hx ((h _).2 y.holds_network)
    have hyx : y.network.toNat ≤ x.network.toNat :=
      network_le_of_holds hy ((h _).1 x.holds_network)
    have hnetwork : x.network = y.network := Ipv4.toNat_inj.1 (by omega)
    cases x
    cases y
    simp_all

/-! ## Ways to a block -/

/-- The blocks that were checked on the way: the one of all addresses, those made and those read
from a text. -/
inductive Checked : Ipv4Block → Prop where
  | everything : Checked .everything
  | make {a : Ipv4} {l : UInt8} {x : Ipv4Block} (h : Ipv4Block.make a l = .ok x) : Checked x
  | parse {s : String} {x : Ipv4Block} (h : Ipv4Block.parse s = .ok x) : Checked x

/-- The blocks that were checked or read from a record. -/
inductive Obtained : Ipv4Block → Prop where
  | checked {x : Ipv4Block} (h : Checked x) : Obtained x
  | record {dialect : Document.Dialect} {d : Document.Datum} {x : Ipv4Block}
      (h : ofDatum? dialect d = some x) : Obtained x

theorem exists_make_of_parse {s : String} {x : Ipv4Block} (h : parse s = .ok x) :
    ∃ a l, make a l = .ok x := by
  rw [parse] at h
  split at h
  · cases h
  · split at h
    · exact ⟨_, _, h⟩
    · cases h

theorem canonical_of_checked {x : Ipv4Block} (h : x.Checked) : x.Canonical := by
  cases h with
  | everything => decide
  | make hmake => exact canonical_of_make hmake
  | parse hparse =>
    obtain ⟨a, l, hmake⟩ := exists_make_of_parse hparse
    exact canonical_of_make hmake

theorem checked_iff {x : Ipv4Block} : x.Checked ↔ x.Canonical :=
  ⟨canonical_of_checked, fun h => .make (make_self_iff.2 h)⟩

theorem ofDatum?_toDatum (dialect : Document.Dialect) (x : Ipv4Block) :
    ofDatum? dialect x.toDatum = some x := by
  have hnetwork : Ipv4.ofDatum? x.network.toDatum = some x.network := by
    simp only [Ipv4.ofDatum?, Ipv4.toDatum, Document.Datum.toText?, Option.bind_some,
      Ipv4.parseExact_eq_some_iff]
  have hlt : (x.length.toNat : Int) ≤ 256 - 1 := by
    have := x.length.toNat_lt
    omega
  have hlength : (Document.Datum.int x.length.toNat).toNat? UInt8.size = some x.length.toNat := by
    simp only [Document.Datum.toNat?, Document.Datum.toIntIn?, UInt8.size]
    rw [if_pos ⟨by omega, hlt⟩]
    rfl
  simp [ofDatum?, toDatum, Document.Datum.isRecord, Document.Datum.required,
    Document.Datum.field?, List.lookup_cons, hnetwork, hlength]

/-- Every pair of a network and a length is the block of some record. It is canonical just where it
could have been made, or been checked in some other way, and just where it has no more than 32
common bits, equals the checked blocks of the same addresses and differs from all others. The mask
of a block is shifted by the number of its host bits just where its length is no more than 32. -/
theorem canonical_iff_checked (x : Ipv4Block) :
    (∀ dialect, ofDatum? dialect x.toDatum = some x) ∧
      (x.Canonical ↔ x.Checked) ∧ (x.Canonical ↔ make x.network x.length = .ok x) ∧
      ((hostBits x.length).toNat + x.length.toNat = 32 ↔ x.length.toNat ≤ 32) ∧
      (x.Canonical ↔ x.length.toNat ≤ 32 ∧
        ∀ y, Checked y → (x = y ↔ ∀ a, x.Holds a ↔ y.Holds a)) := by
  refine ⟨fun dialect => ofDatum?_toDatum dialect x, checked_iff.symm, make_self_iff.symm, ?_, ?_⟩
  · constructor
    · intro hsum
      omega
    · intro hl
      rw [toNat_hostBits hl]
      omega
  · constructor
    · exact fun hx => ⟨hx.length_le, fun y hy => eq_iff_holds hx (canonical_of_checked hy)⟩
    · rintro ⟨hl, hsame⟩
      -- the block made of the two fields of `x` has the same addresses
      obtain ⟨y, hy⟩ := exists_make_iff.2 hl
      have hxy : x = y := (hsame y (.make hy)).2 fun a => (holds_iff_of_make hy a).symm
      exact make_self_iff.1 (hxy ▸ hy)

/-- A record of 33 common bits is read, and its mask is shifted by a number that has wrapped around.
A record of an address that is no network is read as a block other than the one that its text is
read as, though both hold the same addresses. -/
theorem not_canonical_of_record :
    let record (network : String) (length : Int) : Document.Datum :=
      .table [("network", .text network), ("prefix_len", .int length)]
    let long : Ipv4Block := ⟨⟨10, 0, 0, 0⟩, 33⟩
    let unmasked : Ipv4Block := ⟨⟨10, 1, 2, 3⟩, 8⟩
    let masked : Ipv4Block := ⟨⟨10, 0, 0, 0⟩, 8⟩
    (∀ dialect, ofDatum? dialect (record "10.0.0.0" 33) = some long) ∧
      (hostBits long.length).toNat = 4294967295 ∧
      (∀ dialect, ofDatum? dialect (record "10.1.2.3" 8) = some unmasked) ∧
      parse "10.1.2.3/8" = .ok masked ∧ unmasked ≠ masked ∧
      (∀ a, unmasked.Holds a ↔ masked.Holds a) ∧ ¬ ∀ x, Obtained x → x.Canonical := by
  intro record long unmasked masked
  have hlong : ∀ dialect, ofDatum? dialect (record "10.0.0.0" 33) = some long := fun _ => rfl
  have hunmasked : ∀ dialect, ofDatum? dialect (record "10.1.2.3" 8) = some unmasked :=
    fun _ => rfl
  have hparse : parse "10.1.2.3/8" = .ok masked := by decide +kernel
  have hbits : unmasked.network.bits.take 8 = masked.network.bits.take 8 := by decide
  refine ⟨hlong, by decide, hunmasked, hparse, by decide, fun a => ?_, fun hall => ?_⟩
  · exact ⟨fun h => h.trans hbits, fun h => h.trans hbits.symm⟩
  · exact absurd (hall long (.record (hlong ⟨false, fun _ => false⟩))) (by decide)

end Ipv4Block

end SwitchMib.Net
