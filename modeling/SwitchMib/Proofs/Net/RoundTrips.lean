import SwitchMib.Proofs.Net.Blocks
import SwitchMib.Proofs.Net.MacNotation

/-!
# Addresses are read back from their notations

Each kind of address is written in one way and read from several: with blanks around it, a MAC address
in upper case or with hyphens, a VLAN identifier as the name of its interface. An address block is
written without the bits that its length leaves out, and so it is read back just where it has none.

* `Mac.spellings`: the notation of a MAC address in either case and with either separator.
* `Mac.parse_of_spelling`, `VlanId.parse_of_padded`: those that are read back.
* `Ipv4Block.parse_display_iff`: the blocks that are read back.
* `parse_padded_display`: all of that, for the four kinds together.
-/

namespace SwitchMib
set_option autoImplicit false

open Text

namespace Text

theorem isBlank_of_isDigit {c : Char} (h : isDigit c = true) : isBlank c = false := by
  simp only [isDigit, Bool.and_eq_true, decide_eq_true_eq] at h
  simp only [isBlank, Bool.or_eq_false_iff, Bool.and_eq_false_iff, decide_eq_false_iff_not,
    beq_eq_false_iff_ne]
  omega

theorem not_blank_decimal (n : Nat) : ∀ c ∈ (decimal n).toList, isBlank c = false := by
  intro c hc
  rw [decimal, String.toList_ofList] at hc
  exact isBlank_of_isDigit (decimal_digits n c hc)

theorem readNat_decimal {limit n : Nat} (h : n ≤ limit) : readNat limit (decimal n) = .ok n :=
  readNat_eq_ok_iff.2 ⟨decimalChars n, Or.inl String.toList_ofList, denotes_decimalChars n, h⟩

end Text

namespace Net

/-! ## MAC addresses -/

namespace Mac

/-- The hyphen in the place of the colon. -/
def hyphened (c : Char) : Char := if c = ':' then '-' else c

/-- The notation of an address, in lower and in upper case, with colons and with hyphens. -/
def spellings (m : Mac) : List String :=
  [m.display, m.display.map Char.toUpper, m.display.map hyphened,
    (m.display.map Char.toUpper).map hyphened]

/-- A change of characters that leaves digits their values and separators separators. -/
structure Respells (f : Char → Char) : Prop where
  digit : ∀ v < 16, HexDigit (f (digitChar v)) v
  separator : f ':' = ':' ∨ f ':' = '-'

theorem respells_id : Respells id where
  digit _ hv := digitValue?_eq_some_iff.1 (digitValue?_digitChar hv)
  separator := Or.inl rfl

theorem respells_toUpper : Respells Char.toUpper where
  digit := by decide
  separator := by decide

theorem respells_hyphened : Respells hyphened where
  digit := by decide
  separator := by decide

theorem respells_hyphened_toUpper : Respells (hyphened ∘ Char.toUpper) where
  digit := by decide
  separator := by decide

theorem groupDigits_byteChars {f : Char → Char} (hf : Respells f) (o : UInt8) :
    GroupDigits ((byteChars o).map f) o := by
  have hlt := o.toNat_lt
  exact .two (hf.digit _ (by omega)) (hf.digit _ (by omega)) (Nat.div_add_mod o.toNat 16).symm

theorem toList_display_map (m : Mac) (f : Char → Char) :
    (m.display.map f).toList = [f ':'].intercalate (m.octets.map fun o => (byteChars o).map f) := by
  simp [display, octets, List.intercalate]

theorem parse_of_respells {m : Mac} {f : Char → Char} (hf : Respells f) {s : String}
    (h : Padded (m.display.map f).toList s.toList) : parse s = .ok m := by
  rw [toList_display_map] at h
  refine parse_eq_ok_iff.2 ⟨f ':', _, hf.separator, ?_, h⟩
  rw [List.forall₂_map_left_iff, List.forall₂_same]
  exact fun o _ => .digits (groupDigits_byteChars hf o)

theorem parse_of_spelling {m : Mac} {text s : String} (htext : text ∈ m.spellings)
    (h : Padded text.toList s.toList) : parse s = .ok m := by
  simp only [spellings, List.mem_cons, List.not_mem_nil, or_false] at htext
  rcases htext with rfl | rfl | rfl | rfl
  · exact parse_of_respells respells_id (by simpa using h)
  · exact parse_of_respells respells_toUpper h
  · exact parse_of_respells respells_hyphened h
  · exact parse_of_respells respells_hyphened_toUpper (by simpa using h)

theorem ofDatum?_toDatum (m : Mac) : ofDatum? m.toDatum = some m := by
  have hread : parse m.display = .ok m := parse_of_spelling List.mem_cons_self (padded_self _)
  rw [ofDatum?, toDatum, Document.Datum.toText?, Option.bind_some, hread]
  rfl

end Mac

/-! ## IPv4 addresses -/

namespace Ipv4

theorem not_blank_display (x : Ipv4) : ∀ c ∈ x.display.toList, isBlank c = false := by
  rw [display, String.toList_intercalate]
  refine forall_mem_intercalate rfl fun part hpart => ?_
  rw [List.map_map] at hpart
  obtain ⟨o, -, rfl⟩ := List.mem_map.1 hpart
  exact not_blank_decimal o.toNat

theorem parse_of_padded {x : Ipv4} {s : String} (h : Padded x.display.toList s.toList) :
    parse s = .ok x :=
  parse_eq_ok_iff.2 (trim_of_padded h x.not_blank_display)

end Ipv4

/-! ## VLAN identifiers -/

namespace VlanId

/-- The number alone, and the name of the interface. -/
def spellings (v : VlanId) : List String := [v.display, "Vlan" ++ v.display]

theorem dropLead_spelling {v : VlanId} {text : String} (h : text ∈ v.spellings) :
    dropLead "Vlan" text = v.display ∧ ∀ c ∈ text.toList, isBlank c = false := by
  have hdigits := not_blank_decimal v.id.toNat
  simp only [spellings, List.mem_cons, List.not_mem_nil, or_false] at h
  rcases h with rfl | rfl
  · refine ⟨?_, hdigits⟩
    cases hafter : after? "Vlan" v.display with
    | none => rw [dropLead, hafter, Option.getD_none]
    | some rest =>
      -- the name of an interface begins with a letter
      have hletter : 'V' ∈ v.display.toList := by
        rw [after?_eq_some_iff.1 hafter]
        simp
      rw [display, decimal, String.toList_ofList] at hletter
      exact absurd (decimal_digits _ _ hletter) (by decide)
  · have hafter : after? "Vlan" ("Vlan" ++ v.display) = some v.display := after?_eq_some_iff.2 rfl
    refine ⟨by rw [dropLead, hafter, Option.getD_some], fun c hc => ?_⟩
    rw [String.toList_append] at hc
    rcases List.mem_append.1 hc with hlead | hc
    · have hall : "Vlan".toList.all (fun d => !isBlank d) = true := by decide
      simpa using List.all_eq_true.1 hall c hlead
    · exact hdigits c hc

theorem make_id (v : VlanId) : make v.id = .ok v := dif_pos v.valid

theorem parse_of_spelling {v : VlanId} {text s : String} (htext : text ∈ v.spellings)
    (h : Padded text.toList s.toList) : parse s = .ok v := by
  obtain ⟨hdrop, hplain⟩ := dropLead_spelling htext
  have hlt := v.id.toNat_lt
  have hread : readNat (UInt16.size - 1) v.display = .ok v.id.toNat :=
    readNat_decimal (Nat.le_pred_of_lt hlt)
  -- to derive the equation of `parse` would be to evaluate the trimmed text
  delta parse
  rw [trim_of_padded h hplain, hdrop, hread]
  simp only [UInt16.ofNat_toNat, make_id]

end VlanId

/-! ## Address blocks -/

namespace Ipv4Block

theorem parse_display_eq_make (b : Ipv4Block) : parse b.display = make b.network b.length := by
  have hlt := b.length.toNat_lt
  have hslash : '/' ∉ (decimal b.length.toNat).toList := by
    rw [decimal, String.toList_ofList]
    exact fun hmem => absurd (decimal_digits _ _ hmem) (by decide)
  have hcut : cutLast '/' b.display = some (b.network.display, decimal b.length.toNat) :=
    cutLast_append hslash
  have hnetwork : Ipv4.parse b.network.display = .ok b.network :=
    Ipv4.parse_of_padded (padded_self _)
  have hlength : readNat 255 (decimal b.length.toNat) = .ok b.length.toNat :=
    readNat_decimal (Nat.le_of_lt_succ hlt)
  rw [parse, hcut]
  simp only [hnetwork, hlength, UInt8.ofNat_toNat]

theorem parse_display_iff {b : Ipv4Block} : parse b.display = .ok b ↔ b.Canonical := by
  rw [parse_display_eq_make, make_self_iff]

end Ipv4Block

/-- An address is read from its notation with any blanks around it, a MAC address from one in capital
letters or with hyphens too, and a VLAN identifier from the name of its interface. A MAC address is
also read from the text in a document, and no two addresses have the same arcs. A block that was made,
or read from any text, is read from its notation. -/
theorem parse_padded_display (m : Mac) (x : Ipv4) (v : VlanId) (b : Ipv4Block) :
    (∀ text ∈ m.spellings, ∀ s, Padded text.toList s.toList → Mac.parse s = .ok m) ∧
      Mac.ofDatum? m.toDatum = some m ∧ (∀ m' : Mac, m'.arcs = m.arcs ↔ m' = m) ∧
      (∀ s, Padded x.display.toList s.toList → Ipv4.parse s = .ok x) ∧
      (∀ x' : Ipv4, x'.arcs = x.arcs ↔ x' = x) ∧
      (∀ text ∈ v.spellings, ∀ s, Padded text.toList s.toList → VlanId.parse s = .ok v) ∧
      (∀ v' : VlanId, v'.arc = v.arc ↔ v' = v) ∧
      (∀ a l, Ipv4Block.make a l = .ok b → Ipv4Block.parse b.display = .ok b) ∧
      ∀ s, Ipv4Block.parse s = .ok b → Ipv4Block.parse b.display = .ok b := by
  refine ⟨fun text htext s h => Mac.parse_of_spelling htext h, m.ofDatum?_toDatum,
    fun m' => ⟨Mac.arcs_inj, ?_⟩, fun s h => Ipv4.parse_of_padded h,
    fun x' => ⟨Ipv4.arcs_inj, ?_⟩, fun text htext s h => VlanId.parse_of_spelling htext h,
    fun v' => ⟨VlanId.arc_inj, ?_⟩, fun a l h => ?_, fun s h => ?_⟩
  · rintro rfl
    rfl
  · rintro rfl
    rfl
  · rintro rfl
    rfl
  · exact Ipv4Block.parse_display_iff.2 (Ipv4Block.canonical_of_make h)
  · exact Ipv4Block.parse_display_iff.2 (Ipv4Block.canonical_of_checked (.parse h))

/-- Capital letters with hyphens, a line end after an address, the name of an interface, and an
address with host bits. -/
theorem parse_padded_display_of_four :
    let m : Mac := ⟨0x7c, 0xfe, 0x90, 0x80, 0x9f, 0x05⟩
    let v : VlanId := ⟨1000, by decide⟩
    let b : Ipv4Block := ⟨⟨10, 0, 0, 0⟩, 8⟩
    Mac.parse "\t7C-FE-90-80-9F-05 " = .ok m ∧ Ipv4.parse " 10.0.0.1\r\n" = .ok ⟨10, 0, 0, 1⟩ ∧
      VlanId.parse " Vlan1000 " = .ok v ∧ Ipv4Block.parse "10.1.2.3/8" = .ok b ∧
      Ipv4Block.parse "10.0.0.0/8" = .ok b := by
  intro m v b
  obtain ⟨hmac, -, -, hipv4, -, hvlan, -, -, hblock⟩ := parse_padded_display m ⟨10, 0, 0, 1⟩ v b
  have hread : Ipv4Block.parse "10.1.2.3/8" = .ok b := by decide +kernel
  have hdisplay : b.display = "10.0.0.0/8" := by decide +kernel
  have hspace : ∀ c ∈ [' '], isBlank c = true := List.all_eq_true.1 (by decide)
  refine ⟨?_, ?_, ?_, hread, hdisplay ▸ hblock _ hread⟩
  · exact hmac "7C-FE-90-80-9F-05" (by decide +kernel) _
      ⟨['\t'], [' '], List.all_eq_true.1 (by decide), hspace, by decide +kernel⟩
  · exact hipv4 _ ⟨[' '], ['\r', '\n'], hspace, List.all_eq_true.1 (by decide), by decide +kernel⟩
  · exact hvlan "Vlan1000" (by decide +kernel) _ ⟨[' '], [' '], hspace, hspace, by decide +kernel⟩

end Net

end SwitchMib
