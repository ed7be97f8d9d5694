import SwitchMib.Net.Ipv4
import SwitchMib.Net.Mac
import SwitchMib.Net.Vlan
import SwitchMib.Proofs.Text.Cuts
import SwitchMib.Proofs.Text.Numeral

/-!
# Addresses as arcs and as texts

* `Ipv4.arcs_inj`, `Mac.arcs_inj`, `VlanId.arc_inj`: the arcs of an address determine it.
* `Ipv4.parseExact_eq_some_iff`: an IPv4 address is read from its own notation and from nothing
  else, because an octet has one notation only.
* `Ipv4.parse_eq_ok_iff`: blanks around the notation do not matter.
-/

namespace SwitchMib.Net
set_option autoImplicit false

/-! ## Arcs -/

theorem octetArc_injective : Function.Injective UInt8.toUInt32 := by
  intro a b hab
  have hnat := congrArg UInt32.toNat hab
  exact UInt8.toNat_inj.1 (by simpa using hnat)

theorem Ipv4.arcs_inj {x y : Ipv4} (h : x.arcs = y.arcs) : x = y := by
  have hoctets := List.map_injective_iff.2 octetArc_injective h
  have hof := congrArg ofOctets? hoctets
  simpa using hof

theorem Mac.arcs_inj {mac mac' : Mac} (h : mac.arcs = mac'.arcs) : mac = mac' := by
  have hoctets := List.map_injective_iff.2 octetArc_injective h
  have hof := congrArg ofOctets? hoctets
  simpa using hof

theorem VlanId.arc_inj {vlan vlan' : VlanId} (h : vlan.arc = vlan'.arc) : vlan = vlan' := by
  obtain ⟨id, _⟩ := vlan
  obtain ⟨id', _⟩ := vlan'
  have hnat : id.toNat = id'.toNat := by
    have h32 := congrArg UInt32.toNat h
    simpa [arc] using h32
  obtain rfl := UInt16.toNat_inj.1 hnat
  rfl

/-! ## Notation -/

namespace Ipv4

open Text

theorem length_decimalChars_le {n : Nat} (hn : n < 1000) : (decimalChars n).length ≤ 3 := by
  rw [decimalChars_eq, decimalChars_eq (n / 10), decimalChars_eq (n / 10 / 10)]
  split
  · simp
  · split
    · simp
    · rw [if_pos (by omega)]
      simp

theorem eq_decimalChars_of_readOctet {cs : List Char} {o : UInt8} (h : readOctet cs = some o) :
    cs = decimalChars o.toNat := by
  rw [readOctet] at h
  split at h
  · cases h
  · rename_i hform
    simp only [not_or, not_and, Nat.not_lt] at hform
    obtain ⟨hlength, -, hzero, -⟩ := hform
    have hne : cs ≠ [] := fun hnil => hlength (by rw [hnil, List.length_nil])
    split at h
    · rename_i n hread
      obtain ⟨hden, hn⟩ := (readDigits_zero_eq_ok_iff hne).1 hread
      obtain rfl := Option.some.inj h
      have hplain : Plain cs := by
        intro hhead
        have hle := hzero hhead
        omega
      have hround : (UInt8.ofNat n).toNat = n :=
        UInt8.toNat_ofNat_of_lt' (Nat.lt_of_le_of_lt hn (by decide))
      rw [hround]
      exact denotes_and_plain_iff.1 ⟨hden, hplain⟩
    · cases h

theorem readOctet_decimalChars (o : UInt8) : readOctet (decimalChars o.toNat) = some o := by
  obtain ⟨hden, hplain⟩ := denotes_and_plain_iff.2 (rfl : decimalChars o.toNat = _)
  have hlt := o.toNat_lt
  have hlong := length_decimalChars_le (by omega : o.toNat < 1000)
  have hdigits : (decimalChars o.toNat).all isDigit = true := List.all_eq_true.2 hden.2.1
  have hform : ¬ ((decimalChars o.toNat).length = 0 ∨ 3 < (decimalChars o.toNat).length ∨
      ((decimalChars o.toNat).head? = some '0' ∧ 1 < (decimalChars o.toNat).length) ∨
      (!(decimalChars o.toNat).all isDigit) = true) := by
    rintro (hnil | hover | ⟨hhead, hmore⟩ | hother)
    · exact hden.1 (List.length_eq_zero_iff.1 hnil)
    · omega
    · have hone := hplain hhead
      omega
    · simp [hdigits] at hother
  have hread : readDigits 10 255 0 (decimalChars o.toNat) = .ok o.toNat :=
    (readDigits_zero_eq_ok_iff hden.1).2 ⟨hden, by omega⟩
  rw [readOctet, if_neg hform, hread]
  simp

/-- An octet has one notation only, that without leading zeros. -/
theorem readOctet_eq_some_iff {cs : List Char} {o : UInt8} :
    readOctet cs = some o ↔ cs = decimalChars o.toNat := by
  constructor
  · exact eq_decimalChars_of_readOctet
  · rintro rfl
    exact readOctet_decimalChars o

theorem ofOctets?_eq_some_iff {octets : List UInt8} {x : Ipv4} :
    ofOctets? octets = some x ↔ octets = x.octets := by
  constructor
  · intro h
    unfold ofOctets? at h
    split at h
    · rw [← Option.some.inj h]
      rfl
    · cases h
  · rintro rfl
    rfl

/-- An address is read from its notation only. -/
theorem parseExact_eq_some_iff {s : String} {x : Ipv4} :
    parseExact s = some x ↔ s = x.display := by
  have hpieces : ∀ octets, (pieces '.' s.toList).mapM readOctet = some octets ↔
      pieces '.' s.toList = octets.map fun o => decimalChars o.toNat :=
    fun octets => mapM_eq_some_iff fun _ _ => readOctet_eq_some_iff
  have hsplit : ∀ octets : List UInt8,
      (pieces '.' s.toList = octets.map fun o => decimalChars o.toNat) ↔
        split '.' s = octets.map fun o => decimal o.toNat := by
    intro octets
    rw [split, map_ofList_eq_iff, List.map_map]
    simp [Function.comp_def, decimal]
  rw [parseExact, Option.bind_eq_some_iff]
  simp only [hpieces, hsplit, ofOctets?_eq_some_iff, exists_eq_right, split_eq_iff]
  rw [Parted, display, ← String.toList_inj, String.toList_intercalate]
  constructor
  · exact fun h => h.2.2
  · intro h
    refine ⟨by simp [octets], fun part hpart hpoint => ?_, h⟩
    obtain ⟨o, -, rfl⟩ := List.mem_map.1 hpart
    rw [decimal, String.toList_ofList] at hpoint
    have hdigit := decimal_digits _ _ hpoint
    revert hdigit
    decide

theorem parse_eq_ok_iff {s : String} {x : Ipv4} : parse s = .ok x ↔ trim s = x.display := by
  rw [parse, ← parseExact_eq_some_iff]
  cases parseExact (trim s) <;> simp

end Ipv4

end SwitchMib.Net
