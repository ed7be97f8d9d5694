import SwitchMib.Proofs.Dict
import SwitchMib.Proofs.Mib.Renewal
import SwitchMib.Proofs.Net.Addresses

/-!
# What the neighbour file tells

The rows of the neighbour table are told from the text of the file: which lines and columns it
falls into, and which of the lines tell of a neighbour.

* `TellsOf`: a line with the index, the address and the physical address of a neighbour.
* `LastTold`: what the last line of a text that tells of a neighbour says.
* `Neighbours.told_refresh`: the rows of the table after the file has been read.
-/

namespace SwitchMib.Mib
set_option autoImplicit false

open Net Snmp

/-! ## Lines -/

/-- The line has six columns or more. The first is the address, the fourth reads as the physical
address, and the sixth is a device with the index. -/
def TellsOf (line : String) (index : UInt32) (address : Ipv4) (mac : Mac) : Prop :=
  ∃ type flags hardware mask device more,
    Text.Columns line.toList
      ((address.display :: type :: flags :: hardware :: mask :: device :: more).map
        String.toList) ∧
    Mac.parse hardware = .ok mac ∧ IfName.index? device = some index

theorem parse_column_eq_ok_iff {line : String} {columns : List String}
    (h : Text.words line = columns) {column : String} (hcolumn : column ∈ columns) {address : Ipv4} :
    Ipv4.parse column = .ok address ↔ column = address.display := by
  have hplain : ∀ c ∈ column.toList, Text.isBlank c = false :=
    (Text.words_eq_iff.1 h).not_blank _ (List.mem_map_of_mem hcolumn)
  rw [Ipv4.parse_eq_ok_iff, Text.trim_eq_self hplain]

theorem Neighbour.ofLine?_eq_some_iff {line : String} {n : Neighbour} :
    ofLine? line = some n ↔ ∃ address type flags hardware mask more,
      Text.words line = address :: type :: flags :: hardware :: mask :: n.device :: more ∧
        Ipv4.parse address = .ok n.address ∧ Mac.parse hardware = .ok n.mac := by
  rw [ofLine?]
  constructor
  · intro h
    split at h
    · rename_i address type flags hardware mask device more hwords
      split at h
      · rename_i found mac haddress hmac
        obtain rfl := Option.some.inj h
        exact ⟨address, type, flags, hardware, mask, more, hwords, haddress, hmac⟩
      · cases h
    · cases h
  · rintro ⟨address, type, flags, hardware, mask, more, hwords, haddress, hmac⟩
    simp only [hwords, haddress, hmac]

def lineRow? (line : String) : Option (SubId × Mac) := (Neighbour.ofLine? line).bind Neighbour.row?

theorem lineRow?_eq_some_iff {line : String} {sub : SubId} {mac : Mac} :
    lineRow? line = some (sub, mac) ↔
      ∃ index address, TellsOf line index address mac ∧ sub = index :: address.arcs := by
  simp only [lineRow?, Option.bind_eq_some_iff, Neighbour.row?, Option.map_eq_some_iff,
    Neighbour.ofLine?_eq_some_iff, Prod.mk.injEq]
  constructor
  · rintro ⟨n, ⟨column, type, flags, hardware, mask, more, hwords, haddress, hmac⟩, index, hindex,
      rfl, rfl⟩
    rw [parse_column_eq_ok_iff hwords List.mem_cons_self] at haddress
    subst haddress
    exact ⟨index, n.address, ⟨type, flags, hardware, mask, n.device, more,
      Text.words_eq_iff.1 hwords, hmac, hindex⟩, rfl⟩
  · rintro ⟨index, address, ⟨type, flags, hardware, mask, device, more, hcolumns, hmac, hindex⟩,
      rfl⟩
    have hwords := Text.words_eq_iff.2 hcolumns
    have haddress := (parse_column_eq_ok_iff hwords List.mem_cons_self).2 rfl
    exact ⟨⟨address, mac, device⟩, ⟨address.display, type, flags, hardware, mask, more, hwords,
      haddress, hmac⟩, index, hindex, rfl, rfl⟩

theorem lineRow?_eq_none_iff {line : String} :
    lineRow? line = none ↔ ∀ index address mac, ¬ TellsOf line index address mac := by
  rw [Option.eq_none_iff_forall_ne_some]
  constructor
  · intro h index address mac htells
    exact h (index :: address.arcs, mac) (lineRow?_eq_some_iff.2 ⟨index, address, htells, rfl⟩)
  · rintro h ⟨sub, mac⟩ hrow
    obtain ⟨index, address, htells, -⟩ := lineRow?_eq_some_iff.1 hrow
    exact h index address mac htells

/-! ## Rows -/

/-- Of the lines after the heading, the last one that tells of a neighbour with the index and the
address gives it the physical address. -/
def LastTold (text : String) (index : UInt32) (address : Ipv4) (mac : Mac) : Prop :=
  ∃ heading earlier line later,
    Text.Lines text.toList ((heading :: earlier ++ line :: later).map String.toList) ∧
    TellsOf line index address mac ∧
    ∀ other ∈ later, ∀ mac', ¬ TellsOf other index address mac'

theorem row_inj {index index' : UInt32} {address address' : Ipv4}
    (h : index :: address.arcs = index' :: address'.arcs) : index = index' ∧ address = address' := by
  obtain ⟨hindex, harcs⟩ := List.cons.inj h
  exact ⟨hindex, Ipv4.arcs_inj harcs⟩

namespace Neighbours

theorem rowsOf_eq (text : String) :
    rowsOf text = Dict.empty.insertAll ((Text.lines text).tail.filterMap lineRow?) := by
  rw [rowsOf, readNeighbours, List.filterMap_filterMap]
  rfl

theorem get?_rowsOf {text : String} {sub : SubId} {mac : Mac} :
    (rowsOf text).get? sub = some mac ↔
      ∃ index address, LastTold text index address mac ∧ sub = index :: address.arcs := by
  rw [rowsOf_eq, Dict.get?_insertAll, Dict.get?_empty, Option.or_none,
    Bindings.last?_filterMap_eq_some_iff_append]
  simp only [lineRow?_eq_some_iff, ne_eq, not_exists, not_and]
  constructor
  · rintro ⟨earlier, line, later, hlines, ⟨index, address, htells, rfl⟩, hlast⟩
    have hne : Text.lines text ≠ [] := by
      intro hnil
      rw [hnil] at hlines
      simp at hlines
    obtain ⟨heading, rest, hall⟩ := List.exists_cons_of_ne_nil hne
    rw [hall, List.tail_cons] at hlines
    subst hlines
    refine ⟨index, address, ⟨heading, earlier, line, later, Text.lines_eq_iff.1 hall, htells, ?_⟩,
      rfl⟩
    intro other hother mac' htells'
    exact hlast other hother mac' index address htells' rfl
  · rintro ⟨index, address, ⟨heading, earlier, line, later, hlines, htells, hlast⟩, rfl⟩
    rw [← Text.lines_eq_iff] at hlines
    refine ⟨earlier, line, later, by rw [hlines]; rfl, ⟨index, address, htells, rfl⟩, ?_⟩
    intro other hother mac' index' address' htells' hsame
    obtain ⟨rfl, rfl⟩ := row_inj hsame
    exact hlast other hother mac' htells'

/-- A line after the heading that tells of nothing might as well not be there. -/
theorem rowsOf_without {text text' : String} {heading line : String} {earlier later : List String}
    (htext : Text.Lines text.toList ((heading :: earlier ++ line :: later).map String.toList))
    (htext' : Text.Lines text'.toList ((heading :: earlier ++ later).map String.toList))
    (hline : ∀ index address mac, ¬ TellsOf line index address mac) :
    rowsOf text = rowsOf text' := by
  rw [← Text.lines_eq_iff] at htext htext'
  rw [rowsOf_eq, rowsOf_eq, htext, htext', List.cons_append, List.cons_append, List.tail_cons,
    List.tail_cons, List.filterMap_append, List.filterMap_append,
    List.filterMap_cons_none (lineRow?_eq_none_iff.2 hline)]

/-- After the neighbour file has been read, the table has the neighbours that its lines tell of,
each with the physical address from the last line about it, and no others. No two of them share a
row, and a line that tells of nothing might as well not be there. -/
theorem told_refresh {out : Outside} {text : String} (h : out.neighbours = .ok text)
    (t : Neighbours) :
    let u := (t.refresh out).value.after
    (t.refresh out).value.outcome = .ok () ∧
      (∀ sub v, u.valueAt sub = some v ↔ ∃ index address mac,
        LastTold text index address mac ∧ sub = index :: address.arcs ∧ v = .octets mac.octets) ∧
      (∀ index index' : UInt32, ∀ address address' : Ipv4,
        index :: address.arcs = index' :: address'.arcs → index = index' ∧ address = address') ∧
      ∀ heading earlier line later text',
        Text.Lines text.toList ((heading :: earlier ++ line :: later).map String.toList) →
        Text.Lines text'.toList ((heading :: earlier ++ later).map String.toList) →
        (∀ index address mac, ¬ TellsOf line index address mac) →
        AnswersAs (.neighbours u)
          (.neighbours (t.refresh { out with neighbours := .ok text' }).value.after) := by
  have hrefresh : ∀ out text, out.neighbours = .ok text →
      (t.refresh out).value = .done ⟨⟨rowsOf text, .seeded⟩⟩ := by
    intro out text hread
    rw [refresh, hread]
    rfl
  intro u
  have hu : u = ⟨⟨rowsOf text, .seeded⟩⟩ := by
    show (t.refresh out).value.after = _
    rw [hrefresh out text h]
    rfl
  refine ⟨by rw [hrefresh out text h]; rfl, fun sub v => ?_, fun _ _ _ _ => row_inj, ?_⟩
  · rw [hu, valueAt, Option.map_eq_some_iff]
    simp only [get?_rowsOf]
    constructor
    · rintro ⟨mac, ⟨index, address, htold, rfl⟩, rfl⟩
      exact ⟨index, address, mac, htold, rfl, rfl⟩
    · rintro ⟨index, address, mac, htold, rfl, rfl⟩
      exact ⟨mac, ⟨index, address, htold, rfl⟩, rfl⟩
  · intro heading earlier line later text' htext htext' hline
    apply Updater.answersAs_of_committed
    rw [hu, hrefresh { out with neighbours := .ok text' } text' rfl,
      rowsOf_without htext htext' hline]
    rfl

def fileOf (entries : List String) : String :=
  "\n".intercalate ("IP address" :: entries)

/-- A world with a neighbour file and nothing else. -/
def worldOfFile (text : String) : Outside where
  namespaces := ⟨.empty "", []⟩
  neighbours := .ok text
  platform := ⟨.ok 0, fun _ => .ok false, fun _ => .ok false⟩

/-- The second of two lines about one neighbour counts, and the line between them does not
matter. -/
theorem told_refresh_of_two :
    let first := "10.0.0.1 1 2 00:11:22:33:44:55 * eth0"
    let second := "10.0.0.1 1 2 00-11-22-33-44-66 * eth0 more"
    let blank : Neighbours := ⟨.fresh .empty⟩
    let u := (blank.refresh (worldOfFile (fileOf [first, "?", second]))).value.after
    let u' := (blank.refresh (worldOfFile (fileOf [first, second]))).value.after
    u.valueAt [10000, 10, 0, 0, 1] = some (.octets [0, 0x11, 0x22, 0x33, 0x44, 0x66]) ∧
      (∃ mac, LastTold (fileOf [first, "?", second]) 10000 ⟨10, 0, 0, 1⟩ mac ∧
        mac.octets = [0, 0x11, 0x22, 0x33, 0x44, 0x66]) ∧
      AnswersAs (.neighbours u) (.neighbours u') := by
  intro first second blank u u'
  obtain ⟨-, hanswers, hrow, hwithout⟩ :=
    @told_refresh (worldOfFile (fileOf [first, "?", second])) _ rfl blank
  have hvalue : u.valueAt [10000, 10, 0, 0, 1] =
      some (.octets [0, 0x11, 0x22, 0x33, 0x44, 0x66]) := by decide
  refine ⟨hvalue, ?_, ?_⟩
  · obtain ⟨index, address, mac, htold, hsub, hmac⟩ := (hanswers _ _).1 hvalue
    obtain ⟨rfl, rfl⟩ := hrow 10000 index ⟨10, 0, 0, 1⟩ address hsub
    exact ⟨mac, htold, (Value.octets.inj hmac).symm⟩
  · have htext : Text.lines (fileOf [first, "?", second]) =
        "IP address" :: [first] ++ "?" :: [second] := by
      decide
    have htext' : Text.lines (fileOf [first, second]) =
        "IP address" :: [first] ++ [second] := by
      decide
    have hline : lineRow? "?" = none := by decide
    exact hwithout _ _ _ _ _ (Text.lines_eq_iff.1 htext) (Text.lines_eq_iff.1 htext')
      (lineRow?_eq_none_iff.1 hline)

end Neighbours

end SwitchMib.Mib
