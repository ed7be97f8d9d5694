import Mathlib.Algebra.Group.Nat.Defs
import SwitchMib.Proofs.Mib.ProperRows
import SwitchMib.Proofs.Mib.Renewal
import SwitchMib.Proofs.Order.Subtree
import SwitchMib.Proofs.Snmp.OidNotation
import SwitchMib.Proofs.Store.Reads
import SwitchMib.Proofs.Text.Numeral

/-!
# What is published below a root

The rows of an overlay table are told from the contents of the database: which keys are the
identifier of a place below the root, and which entries publish a value. An identifier has several
notations, so several keys may be about one place.

* `Publishes`: an entry with a value, and `decodeOverlay_eq_ok_iff`: an entry is read as just that.
* `PlacedAt`: a key that is the identifier of a place below a root.
* `LastPublished`: what the last key in key order that publishes at a place says.
* `Readable`: all that a refresh reads can be read.
* `Overlay.published_refresh`: the table after a refresh, whether it went through or not.
-/

namespace SwitchMib
set_option autoImplicit false

open KeyOrder Store

namespace Mib

open Snmp

/-! ## Keys -/

/-- The key is the identifier of the place below the root. The root itself is no place. -/
def PlacedAt (top : Oid) (key : String) (sub : SubId) : Prop :=
  sub ≠ [] ∧ Oid.parse key = .ok (top.append sub)

theorem overlayPlace_eq_some_iff {top : Oid} {key : String} {sub : SubId} :
    overlayPlace top key = some sub ↔ PlacedAt top key sub := by
  simp only [overlayPlace, PlacedAt, Option.bind_eq_bind, Option.bind_eq_some_iff,
    toOption_eq_some_iff, Oid.below?_eq_some_iff]
  constructor
  · rintro ⟨oid, hoid, below, rfl, hsub⟩
    split at hsub
    · cases hsub
    · rename_i hne
      obtain rfl := Option.some.inj hsub
      exact ⟨by simpa using hne, hoid⟩
  · rintro ⟨hne, hoid⟩
    exact ⟨_, hoid, sub, rfl, by simp [hne]⟩

/-! ## Entries -/

/-- An unsigned numeral, with or without a plus sign. -/
def Numeral (text : String) (n : Nat) : Prop :=
  ∃ digits, (text.toList = digits ∨ text.toList = '+' :: digits) ∧ Text.Denotes digits n

/-- The entry has the value as its data, a numeral, in one of the two types. A number that does not
fit the type is no value. -/
def Publishes (entry : Fields) (v : Value) : Prop :=
  ∃ data n, entry.get? Schema.overlayData = some data ∧ Numeral data n ∧
    (entry.get? Schema.overlayType = some "COUNTER_32" ∧ n ≤ 2 ^ 32 - 1 ∧
        v = .counter32 (UInt32.ofNat n) ∨
      entry.get? Schema.overlayType = some "COUNTER_64" ∧ n ≤ 2 ^ 64 - 1 ∧
        v = .counter64 (UInt64.ofNat n))

theorem readNat_eq_ok_iff_numeral {limit n : Nat} {text : String} :
    Text.readNat limit text = .ok n ↔ Numeral text n ∧ n ≤ limit := by
  rw [Text.readNat_eq_ok_iff, Numeral]
  constructor
  · rintro ⟨digits, htext, hden, hn⟩
    exact ⟨⟨digits, htext, hden⟩, hn⟩
  · rintro ⟨⟨digits, htext, hden⟩, hn⟩
    exact ⟨digits, htext, hden, hn⟩

theorem readWrapped_eq_ok_iff {α β ε : Type} {limit : Nat} {text : String} {word : Nat → α}
    {wrap : α → β} {fault : Text.NumeralFault → ε} {v : β} :
    (((Text.readNat limit text).map word).map wrap).mapError fault = .ok v ↔
      ∃ n, Numeral text n ∧ n ≤ limit ∧ v = wrap (word n) := by
  simp only [← and_assoc, ← readNat_eq_ok_iff_numeral]
  cases Text.readNat limit text with
  | error e => simp [Except.map, Except.mapError]
  | ok n => simp [Except.map, Except.mapError, eq_comm]

theorem decodeOverlay_eq_ok_iff {entry : Fields} {v : Value} :
    decodeOverlay entry = .ok v ↔ Publishes entry v := by
  have h32 : UInt32.size - 1 = 2 ^ 32 - 1 := rfl
  have h64 : UInt64.size - 1 = 2 ^ 64 - 1 := rfl
  rw [decodeOverlay, Publishes]
  cases hdata : entry.get? Schema.overlayData with
  | none => simp
  | some data =>
    cases htype : entry.get? Schema.overlayType with
    | none => simp
    | some type =>
      simp only [Text.readWord32, Text.readWord64]
      by_cases hnarrow : type = "COUNTER_32"
      · rw [if_pos hnarrow, readWrapped_eq_ok_iff, h32]
        simp [hnarrow]
      · by_cases hwide : type = "COUNTER_64"
        · rw [if_neg hnarrow, if_pos hwide, readWrapped_eq_ok_iff, h64]
          simp [hwide]
        · simp [hnarrow, hwide]

/-! ## Reads -/

/-- The scan goes through, and so does the read of every entry with a place below the root. -/
structure Readable (host : Namespace) (top : Oid) : Prop where
  scan : ∃ keys, host.keys .overlay "*" = .ok keys
  entries : ∀ key ∈ (host.tables .overlay).keys, ∀ sub, PlacedAt top key sub →
    ∃ entry, host.getAll .overlay key = .ok entry

theorem Readable.of_healthy {host : Namespace} (h : host.Healthy) (top : Oid) :
    Readable host top :=
  ⟨⟨_, h.keys "*"⟩, fun _ _ _ _ => ⟨_, h.getAll⟩⟩

def overlayRow? (host : Namespace) (top : Oid) (key : String) : Option (SubId × Value) :=
  (overlayPlace top key).bind fun sub =>
    (decodeOverlay (host.hash .overlay key)).toOption.map (sub, ·)

section Scan

variable {host : Namespace} {top : Oid}

theorem overlayRow?_eq_some_iff {key : String} {sub : SubId} {v : Value} :
    overlayRow? host top key = some (sub, v) ↔
      PlacedAt top key sub ∧ Publishes (host.hash .overlay key) v := by
  simp only [overlayRow?, Option.bind_eq_some_iff, Option.map_eq_some_iff, toOption_eq_some_iff,
    overlayPlace_eq_some_iff, decodeOverlay_eq_ok_iff, Prod.mk.injEq]
  constructor
  · rintro ⟨_, hplace, _, hpublishes, rfl, rfl⟩
    exact ⟨hplace, hpublishes⟩
  · rintro ⟨hplace, hpublishes⟩
    exact ⟨sub, hplace, v, hpublishes, rfl, rfl⟩

theorem mem_of_scan {keys : List String} (h : host.keys .overlay "*" = .ok keys) {key : String}
    {sub : SubId} (hplace : PlacedAt top key sub) :
    key ∈ keys ↔ key ∈ (host.tables .overlay).keys := by
  have hfits : globMatch "*".toList key.toList = true :=
    (@globMatch_lead_star_iff [] key.toList List.not_mem_nil).2
      (Oid.newline_not_mem_of_parse hplace.2)
  rw [Namespace.eq_of_keys_eq_ok h, List.mem_filter, and_iff_left hfits]

theorem ascending_of_scan {keys : List String} (h : host.keys .overlay "*" = .ok keys) :
    Ascending keys := by
  rw [Namespace.eq_of_keys_eq_ok h]
  exact (Dict.keys_ascending _).filter _

theorem addOverlay_of_read {key : String}
    (h : ∀ sub, PlacedAt top key sub → ∃ entry, host.getAll .overlay key = .ok entry)
    (acc : OverlayRows) :
    (addOverlay host top acc key).2 = .ok () ∧
      (addOverlay host top acc key).1.rows = acc.rows.insertAll (overlayRow? host top key).toList := by
  unfold addOverlay overlayRow?
  cases hplace : overlayPlace top key with
  | none => exact ⟨rfl, rfl⟩
  | some sub =>
    obtain ⟨entry, hentry⟩ := h sub (overlayPlace_eq_some_iff.1 hplace)
    rw [← Namespace.eq_hash_of_getAll hentry]
    simp only [hentry]
    cases hdecode : decodeOverlay entry <;> exact ⟨rfl, rfl⟩

theorem addOverlays_of_read {keys : List String}
    (h : ∀ key ∈ keys, ∀ sub, PlacedAt top key sub →
      ∃ entry, host.getAll .overlay key = .ok entry) (acc : OverlayRows) :
    (addOverlays host top acc keys).2 = .ok () ∧
      (addOverlays host top acc keys).1.rows =
        acc.rows.insertAll (keys.filterMap (overlayRow? host top)) := by
  induction keys generalizing acc with
  | nil => exact ⟨rfl, rfl⟩
  | cons key keys ih =>
    obtain ⟨hkey, hkeys⟩ := List.forall_mem_cons.1 h
    obtain ⟨hdone, hrows⟩ := addOverlay_of_read hkey acc
    rw [addOverlays_cons]
    -- of the first key only the two facts above matter from here on
    generalize addOverlay host top acc key = added at hdone hrows
    obtain ⟨next, done⟩ := added
    simp only at hdone hrows
    subst hdone
    obtain ⟨hall, hlater⟩ := ih hkeys next
    refine ⟨hall, hlater.trans ?_⟩
    rw [hrows]
    cases hrow : overlayRow? host top key with
    | none => rw [List.filterMap_cons_none hrow]; rfl
    | some row => rw [List.filterMap_cons_some hrow]; rfl

/-- The first read that fails ends the loop. -/
theorem addOverlays_of_unread {keys : List String} {key : String} (hkey : key ∈ keys) {sub : SubId}
    (hplace : PlacedAt top key sub) {e : StoreError}
    (hread : host.getAll .overlay key = .error e) (acc : OverlayRows) :
    ∃ e', (addOverlays host top acc keys).2 = .error e' := by
  induction keys generalizing acc with
  | nil => cases hkey
  | cons first keys ih =>
    rw [addOverlays_cons]
    cases hadded : addOverlay host top acc first with
    | mk next done =>
      cases done with
      | error e' => exact ⟨e', rfl⟩
      | ok _ =>
        rcases List.mem_cons.1 hkey with rfl | hlater
        · unfold addOverlay at hadded
          simp only [overlayPlace_eq_some_iff.2 hplace, hread] at hadded
          cases hadded
        · exact ih hlater next

theorem readOverlay_of_readable (h : Readable host top) :
    (readOverlay host top).2 = .ok () ∧ ∃ keys, host.keys .overlay "*" = .ok keys ∧
      (readOverlay host top).1.rows =
        Dict.empty.insertAll (keys.filterMap (overlayRow? host top)) := by
  obtain ⟨keys, hkeys⟩ := h.scan
  have hread := addOverlays_of_read (fun key hkey sub hplace =>
    h.entries key ((mem_of_scan hkeys hplace).1 hkey) sub hplace) ⟨.empty, []⟩
  rw [readOverlay, hkeys]
  exact ⟨hread.1, keys, rfl, hread.2⟩

theorem readOverlay_of_not_readable (h : ¬ Readable host top) :
    ∃ e, (readOverlay host top).2 = .error e := by
  rw [readOverlay]
  cases hkeys : host.keys .overlay "*" with
  | error e => exact ⟨e, rfl⟩
  | ok keys =>
    obtain ⟨key, hkey, sub, hplace, hnone⟩ : ∃ key ∈ (host.tables .overlay).keys, ∃ sub,
        PlacedAt top key sub ∧ ¬ ∃ entry, host.getAll .overlay key = .ok entry := by
      by_contra hall
      push Not at hall
      exact h ⟨⟨keys, hkeys⟩, hall⟩
    cases hread : host.getAll .overlay key with
    | error e => exact addOverlays_of_unread ((mem_of_scan hkeys hplace).2 hkey) hplace hread _
    | ok entry => exact absurd ⟨entry, hread⟩ hnone

end Scan

/-! ## Rows -/

/-- The key is stored, and its entry publishes the value at the place. -/
def PublishedAs (host : Namespace) (top : Oid) (key : String) (sub : SubId) (v : Value) : Prop :=
  key ∈ (host.tables .overlay).keys ∧ PlacedAt top key sub ∧ Publishes (host.hash .overlay key) v

/-- The value published at the place by the last key that publishes any there. -/
def LastPublished (host : Namespace) (top : Oid) (sub : SubId) (v : Value) : Prop :=
  ∃ key, PublishedAs host top key sub v ∧
    ∀ later, before key later = true → ∀ v', ¬ PublishedAs host top later sub v'

theorem get?_readOverlay {host : Namespace} {top : Oid} (h : Readable host top) {sub : SubId}
    {v : Value} :
    (readOverlay host top).1.rows.get? sub = some v ↔ LastPublished host top sub v := by
  obtain ⟨-, keys, hkeys, hrows⟩ := readOverlay_of_readable h
  rw [hrows, Dict.get?_insertAll, Dict.get?_empty, Option.or_none,
    Bindings.last?_filterMap_eq_some_iff (ascending_of_scan hkeys)]
  simp only [ne_eq, overlayRow?_eq_some_iff]
  constructor
  · rintro ⟨key, hkey, ⟨hplace, hpublishes⟩, hlast⟩
    refine ⟨key, ⟨(mem_of_scan hkeys hplace).1 hkey, hplace, hpublishes⟩, ?_⟩
    rintro later hbefore v' ⟨hstored, hplace', hpublishes'⟩
    exact hlast later ((mem_of_scan hkeys hplace').2 hstored) hbefore v' ⟨hplace', hpublishes'⟩
  · rintro ⟨key, ⟨hstored, hplace, hpublishes⟩, hlast⟩
    refine ⟨key, (mem_of_scan hkeys hplace).2 hstored, ⟨hplace, hpublishes⟩, ?_⟩
    rintro later hlater hbefore v' ⟨hplace', hpublishes'⟩
    exact hlast later hbefore v' ⟨(mem_of_scan hkeys hplace').1 hlater, hplace', hpublishes'⟩

section Without

variable {host : Namespace} {top : Oid} {key : String}

theorem hash_delete_ne {key' : String} (h : key' ≠ key) :
    (host.delete .overlay key).hash .overlay key' = host.hash .overlay key' := by
  rw [Namespace.hash, Namespaces.tables_delete, Dict.get?_erase_ne _ h]
  rfl

theorem readable_delete (h : Readable host top) (key : String) :
    Readable (host.delete .overlay key) top := by
  -- whether a read goes through does not depend on what is stored
  have hgate : ∀ kind pattern, (host.delete .overlay key).gate kind .overlay pattern =
      host.gate kind .overlay pattern := fun _ _ => rfl
  constructor
  · have hscan := h.scan
    simp only [Namespace.keys, exists_map_eq_ok_iff] at hscan ⊢
    rwa [hgate]
  · intro key' hkey' sub hplace
    rw [Namespaces.tables_delete, Dict.mem_keys_erase] at hkey'
    have hentry := h.entries key' hkey'.2 sub hplace
    simp only [Namespace.getAll, exists_map_eq_ok_iff] at hentry ⊢
    rwa [hgate]

theorem publishedAs_delete_iff {key' : String} {sub : SubId} {v : Value} :
    PublishedAs (host.delete .overlay key) top key' sub v ↔
      key' ≠ key ∧ PublishedAs host top key' sub v := by
  rw [PublishedAs, PublishedAs, Namespaces.tables_delete, Dict.mem_keys_erase]
  constructor
  · rintro ⟨⟨hne, hkey⟩, hplace, hpublishes⟩
    rw [hash_delete_ne hne] at hpublishes
    exact ⟨hne, hkey, hplace, hpublishes⟩
  · rintro ⟨hne, hkey, hplace, hpublishes⟩
    rw [← hash_delete_ne hne] at hpublishes
    exact ⟨⟨hne, hkey⟩, hplace, hpublishes⟩

theorem readOverlay_delete (h : Readable host top)
    (hkey : ∀ sub v, ¬ PublishedAs host top key sub v) :
    (readOverlay (host.delete .overlay key) top).1.rows = (readOverlay host top).1.rows := by
  have hsame : ∀ {key' sub v}, PublishedAs (host.delete .overlay key) top key' sub v ↔
      PublishedAs host top key' sub v := by
    intro key' sub v
    rw [publishedAs_delete_iff, and_iff_right_iff_imp]
    rintro hpublished rfl
    exact hkey sub v hpublished
  refine Dict.ext_get? fun sub => Option.ext fun v => ?_
  rw [get?_readOverlay (readable_delete h key), get?_readOverlay h]
  simp only [LastPublished, hsame]

end Without

namespace Overlay

theorem outcome_refresh (t : Overlay) (out : Outside) :
    (t.refresh out).value.outcome =
      (readOverlay out.namespaces.host t.top).2.mapError AgentError.store := by
  rw [refresh]
  rcases readOverlay out.namespaces.host t.top with ⟨found, done⟩
  cases done <;> rfl

theorem answersAs_of_cell {t u : Overlay} (h : t.cell = u.cell) :
    AnswersAs (.overlay t) (.overlay u) := by
  apply Updater.answersAs_of_committed
  exact congrArg (fun cell => Updater.overlay ⟨Oid.root, cell, .fresh⟩) h

/-- Where all that a refresh reads can be read, the table has a row for every place below the root
at which an entry publishes a value, with that of the last key. A key that publishes nothing below
the root might as well not be there. Where something cannot be read, the refresh fails and the
table answers as before. -/
theorem published_refresh (t : Overlay) (out : Outside) :
    let host := out.namespaces.host
    let u := (t.refresh out).value.after
    (Readable host t.top →
      (t.refresh out).value.outcome = .ok () ∧
      (∀ sub v, u.valueAt sub = some v ↔ LastPublished host t.top sub v) ∧
      ∀ key, (∀ sub v, ¬ PublishedAs host t.top key sub v) →
        let without : Outside :=
          { out with namespaces := { out.namespaces with host := host.delete .overlay key } }
        AnswersAs (.overlay u) (.overlay (t.refresh without).value.after)) ∧
    (¬ Readable host t.top →
      (∃ e, (t.refresh out).value.outcome = .error (.store e)) ∧
      AnswersAs (.overlay u) (.overlay t)) := by
  intro host u
  have hcell : ∀ out, Readable out.namespaces.host t.top → (t.refresh out).value.after.cell =
      ⟨(readOverlay out.namespaces.host t.top).1.rows, .seeded⟩ := by
    intro out hread
    rw [t.cell_refresh out, (readOverlay_of_readable hread).1]
    rfl
  constructor
  · intro hread
    refine ⟨?_, fun sub v => ?_, ?_⟩
    · rw [outcome_refresh, (readOverlay_of_readable hread).1]
      rfl
    · rw [valueAt, hcell out hread]
      exact get?_readOverlay hread
    · intro key hkey without
      apply answersAs_of_cell
      rw [hcell out hread, hcell without (readable_delete hread key)]
      exact congrArg (SnapshotCell.mk · .seeded) (readOverlay_delete hread hkey).symm
  · intro hunread
    obtain ⟨e, he⟩ := readOverlay_of_not_readable hunread
    constructor
    · refine ⟨e, ?_⟩
      rw [outcome_refresh, he]
      rfl
    · apply answersAs_of_cell
      rw [t.cell_refresh out, he]
      rfl

/-- A host with two notations of one identifier and an entry with a number that is too large. -/
def hostOfNotations : Namespace :=
  let entries :=
    [ ("1.3.6.1.4.1.5.1", "COUNTER_32", "7"), (".1.3.6.1.4.1.5.1", "COUNTER_64", "8")
    , ("1.3.6.1.4.1.5.2", "COUNTER_32", "4294967296") ]
  entries.foldl (fun host (key, type, data) => host.setFields .overlay key
    [(Schema.overlayType, type), (Schema.overlayData, data)]) (.empty "")

def worldOfHost (host : Namespace) : Outside where
  namespaces := ⟨host, []⟩
  neighbours := .ok ""
  platform := ⟨.ok 0, fun _ => .ok false, fun _ => .ok false⟩

/-- The notation without the point in front comes last. When the last entry cannot be read any
more, the table goes on with what it has. -/
theorem published_refresh_of_notations :
    let t : Overlay := ⟨⟨[1, 3, 6, 1, 4, 1, 5]⟩, .fresh .empty, .fresh⟩
    let u := (t.refresh (worldOfHost hostOfNotations)).value.after
    let broken := hostOfNotations.addFault ⟨.getAll, .overlay, some "1.3.6.1.4.1.5.2"⟩
    Readable hostOfNotations t.top ∧ u.valueAt [1] = some (.counter32 7) ∧ u.valueAt [2] = none ∧
      LastPublished hostOfNotations t.top [1] (.counter32 7) ∧ ¬ Readable broken u.top ∧
      AnswersAs (.overlay (u.refresh (worldOfHost broken)).value.after) (.overlay u) := by
  intro t u broken
  have hread : Readable hostOfNotations t.top := .of_healthy ⟨rfl, rfl⟩ _
  have hvalue : u.valueAt [1] = some (.counter32 7) ∧ u.valueAt [2] = none := by decide
  obtain ⟨-, hanswers, -⟩ := (published_refresh t (worldOfHost hostOfNotations)).1 hread
  have hunread : ¬ Readable broken u.top := by
    intro hall
    have hstored : "1.3.6.1.4.1.5.2" ∈ (broken.tables .overlay).keys := by decide
    have hplace : overlayPlace t.top "1.3.6.1.4.1.5.2" = some [2] := by decide
    obtain ⟨entry, hentry⟩ := hall.entries _ hstored [2] (overlayPlace_eq_some_iff.1 hplace)
    have hfault : (broken.getAll .overlay "1.3.6.1.4.1.5.2").isOk = false := by decide
    rw [hentry] at hfault
    cases hfault
  exact ⟨hread, hvalue.1, hvalue.2, (hanswers _ _).1 hvalue.1, hunread,
    ((published_refresh u (worldOfHost broken)).2 hunread).2⟩

end Overlay

end Mib

end SwitchMib
