import SwitchMib.Proofs.Mib.OverlayRows

/-!
# Identifiers as keys of overlay entries

An identifier that has arcs is read back from its own notation, with a point before it or without
one. So whoever publishes a value at a place below a root, under the notation of the root and the
place, publishes it at that place and nowhere else.

* `Oid.Writes`: the two notations of an identifier; `Oid.parse_eq_ok_iff_of_writes`: what they are
  read as.
* `Oid.display_inj`: identifiers are told apart by their notations.
* `Mib.overlayPlace_of_writes`: all of that, and the place of an entry under such a notation.
-/

namespace SwitchMib
set_option autoImplicit false

namespace Snmp.Oid

open Text

/-- An identifier is written as the decimal digits of its arcs with points between them. -/
theorem toList_display (x : Oid) :
    x.display.toList = ['.'].intercalate (x.arcs.map fun arc => decimalChars arc.toNat) := by
  rw [display, String.toList_intercalate, List.map_map]
  refine congrArg _ (List.map_congr_left fun arc _ => ?_)
  rw [Function.comp_apply, decimal, String.toList_ofList]

theorem arcNumerals_decimalChars (arcs : List UInt32) :
    List.Forall₂ ArcNumeral (arcs.map fun arc => decimalChars arc.toNat) arcs := by
  induction arcs with
  | nil => exact .nil
  | cons arc arcs ih => exact .cons ⟨_, Or.inl rfl, denotes_decimalChars arc.toNat⟩ ih

/-- The text is the notation of the identifier, with a point before it or without one. -/
def Writes (s : String) (x : Oid) : Prop := s = x.display ∨ s = "." ++ x.display

/-- The two notations of an identifier are read as the identifier, if it has arcs. -/
theorem parse_of_writes {s : String} {x : Oid} (h : Writes s x) (hx : x.arcs ≠ []) :
    parse s = .ok x := by
  rw [parse_eq_ok_iff]
  refine ⟨hx, _, arcNumerals_decimalChars x.arcs, ?_⟩
  rcases h with rfl | rfl
  · exact Or.inl x.toList_display
  · refine Or.inr ?_
    rw [String.toList_append, x.toList_display]
    rfl

theorem arcs_ne_nil_of_parse {s : String} {x y : Oid} (h : Writes s x) (hread : parse s = .ok y) :
    x.arcs ≠ [] := by
  obtain ⟨arcs⟩ := x
  rintro rfl
  -- without arcs there is nothing to read, or the point alone
  rcases h with rfl | rfl <;> cases hread

theorem parse_eq_ok_iff_of_writes {s : String} {x y : Oid} (h : Writes s x) :
    parse s = .ok y ↔ x.arcs ≠ [] ∧ y = x := by
  constructor
  · intro hread
    have hx := arcs_ne_nil_of_parse h hread
    rw [parse_of_writes h hx] at hread
    exact ⟨hx, (Except.ok.inj hread).symm⟩
  · rintro ⟨hx, rfl⟩
    exact parse_of_writes h hx

theorem display_inj {x y : Oid} (h : y.display = x.display) : y = x := by
  by_cases hx : x.arcs = []
  · by_cases hy : y.arcs = []
    · cases x
      cases y
      exact congrArg Oid.mk (hy.trans hx.symm)
    · have hread := parse_of_writes (Or.inl h.symm) hy
      exact ((parse_eq_ok_iff_of_writes (Or.inl rfl)).1 hread).2
  · have hread := parse_of_writes (Or.inl h) hx
    exact ((parse_eq_ok_iff_of_writes (Or.inl rfl)).1 hread).2.symm

end Snmp.Oid

namespace Mib

open Snmp

theorem overlayPlace_eq_some_iff_of_writes {top : Oid} {sub sub' : SubId} {key : String}
    (h : Oid.Writes key (top.append sub)) :
    overlayPlace top key = some sub' ↔ sub ≠ [] ∧ sub' = sub := by
  rw [overlayPlace_eq_some_iff, PlacedAt, Oid.parse_eq_ok_iff_of_writes h]
  simp only [Oid.append, Oid.mk.injEq, List.append_right_inj]
  constructor
  · rintro ⟨hne, -, rfl⟩
    exact ⟨hne, rfl⟩
  · rintro ⟨hne, rfl⟩
    exact ⟨hne, by simp [hne], rfl⟩

/-- The two notations of an identifier are read back, if it has arcs, and as nothing else. No two
identifiers have one notation, and what is read from any text is read again from its own notation.
An entry under the notation of a root and a place below it is about that place. -/
theorem overlayPlace_of_writes (x : Oid) :
    (∀ s y, Oid.Writes s x → (Oid.parse s = .ok y ↔ x.arcs ≠ [] ∧ y = x)) ∧
      (∀ y, y.display = x.display ↔ y = x) ∧
      (∀ s, Oid.parse s = .ok x → Oid.parse x.display = .ok x) ∧
      ∀ top sub key, x = top.append sub → Oid.Writes key x →
        (x.arcs ≠ [] → (Oid.parse key).toOption.bind (fun oid => oid.below? top) = some sub) ∧
        ∀ sub', overlayPlace top key = some sub' ↔ sub ≠ [] ∧ sub' = sub := by
  refine ⟨fun s y h => Oid.parse_eq_ok_iff_of_writes h, fun y => ⟨Oid.display_inj, ?_⟩,
    fun s hs => ?_, fun top sub key hx h => ?_⟩
  · rintro rfl
    rfl
  · exact Oid.parse_of_writes (Or.inl rfl) (Oid.parse_eq_ok_iff.1 hs).1
  · subst hx
    refine ⟨fun hne => ?_, fun sub' => overlayPlace_eq_some_iff_of_writes h⟩
    rw [Oid.parse_of_writes h hne]
    exact Oid.below?_append top sub

/-- The place 7 below 1.3.6.1.4.1.5 has two keys. -/
theorem overlayPlace_of_writes_of_seven :
    let top : Oid := ⟨[1, 3, 6, 1, 4, 1, 5]⟩
    (top.append [7]).display = "1.3.6.1.4.1.5.7" ∧
      Oid.parse ".1.3.6.1.4.1.5.7" = .ok (top.append [7]) ∧
      Oid.parse "1.3.6.1.4.1.5.7" = .ok (top.append [7]) ∧
      overlayPlace top "1.3.6.1.4.1.5.7" = some [7] ∧
      overlayPlace top ".1.3.6.1.4.1.5.7" = some [7] := by
  intro top
  have hplain : Oid.Writes "1.3.6.1.4.1.5.7" (top.append [7]) := Or.inl (by decide +kernel)
  have hpoint : Oid.Writes ".1.3.6.1.4.1.5.7" (top.append [7]) := Or.inr (by decide +kernel)
  obtain ⟨hread, -, hagain, hplace⟩ := overlayPlace_of_writes (top.append [7])
  have hfirst := (hread _ _ hpoint).2 ⟨by decide, rfl⟩
  have hdisplay : (top.append [7]).display = "1.3.6.1.4.1.5.7" := by decide +kernel
  refine ⟨hdisplay, hfirst, ?_, ?_, ?_⟩
  · rw [← hdisplay]
    exact hagain _ hfirst
  · exact ((hplace top [7] _ rfl hplain).2 [7]).2 ⟨by decide, rfl⟩
  · exact ((hplace top [7] _ rfl hpoint).2 [7]).2 ⟨by decide, rfl⟩

end Mib

end SwitchMib
