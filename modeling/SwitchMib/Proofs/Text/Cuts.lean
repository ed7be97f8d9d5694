import Mathlib.Data.List.Forall2
import Mathlib.Data.List.TakeDrop
import Mathlib.Data.List.TakeWhile
import SwitchMib.Text.Blank

/-!
# How a text falls into parts, columns and lines

What the cuts of a text are, told without the search for the places to cut at.

* `Parted`: parts that make up a text with separators between them; `split_eq_iff`: the cut at a
  separator gives just those.
* `mapM_eq_some_iff_forall₂`, `mapM_eq_some_iff`: what reading all parts gives.
* `eq_error_iff_of_eq_ok_iff`, `eq_ok_iff_stricter_iff`: where a reader fails, and where a stricter
  description of it is right.
* `after?_eq_some_iff`: what follows a lead.
* `append_cons_inj`, `append_cons_inj_of_last`: two parts can be told from the text that they make
  up where the separator is not in one of them. `cutLast_append`: so the cut at the last one gives
  them back.
* `Columns`: runs without a blank that make up a text with blanks between and around them;
  `words_eq_iff`: the words of a text are just those.
* `Padded`: a text with blanks around it; `trimChars_of_padded`: the cut of the blanks gives the text
  back.
* `Lines`: lines that make up a text, each but the last with its end; `lines_eq_iff`: the lines of
  a text are just those.
-/

namespace SwitchMib.Text
set_option autoImplicit false

/-! ## Parts -/

theorem piecesBy_eq_splitOnP (p : Char → Bool) (cs : List Char) :
    piecesBy p cs = cs.splitOnP p := by
  induction cs with
  | nil => rfl
  | cons c cs ih =>
    rw [piecesBy, List.splitOnP_cons_eq_if_modifyHead, ← ih]
    cases hpieces : piecesBy p cs with
    | nil => exact absurd hpieces (piecesBy_ne_nil p cs)
    | cons w ws => rfl

theorem not_of_mem_piecesBy {p : Char → Bool} {cs w : List Char} (h : w ∈ piecesBy p cs) :
    ∀ c ∈ w, p c = false := by
  induction cs generalizing w with
  | nil =>
    obtain rfl := List.mem_singleton.1 h
    simp
  | cons c cs ih =>
    rw [piecesBy_eq_splitOnP, List.splitOnP_cons_eq_if_modifyHead, ← piecesBy_eq_splitOnP] at h
    cases hc : p c with
    | true =>
      rw [hc, if_pos rfl] at h
      rcases List.mem_cons.1 h with rfl | h
      · simp
      · exact ih h
    | false =>
      rw [hc, if_neg (by simp)] at h
      cases hpieces : piecesBy p cs with
      | nil => exact absurd hpieces (piecesBy_ne_nil p cs)
      | cons v ws =>
        rw [hpieces, List.modifyHead_cons] at h
        rw [hpieces] at ih
        rcases List.mem_cons.1 h with rfl | h
        · exact List.forall_mem_cons.2 ⟨hc, ih List.mem_cons_self⟩
        · exact ih (List.mem_cons_of_mem v h)

/-- The parts, with the separator between them, are the text, and it is in none of them. -/
def Parted (sep : Char) (s : String) (parts : List String) : Prop :=
  parts ≠ [] ∧ (∀ part ∈ parts, sep ∉ part.toList) ∧
    s.toList = [sep].intercalate (parts.map String.toList)

theorem toList_map_ofList (l : List (List Char)) :
    (l.map String.ofList).map String.toList = l := by
  rw [List.map_map]
  exact (List.map_congr_left fun _ _ => String.toList_ofList).trans (List.map_id l)

theorem ofList_map_toList (l : List String) : (l.map String.toList).map String.ofList = l := by
  rw [List.map_map]
  exact (List.map_congr_left fun _ _ => String.ofList_toList).trans (List.map_id l)

theorem map_ofList_eq_iff {l : List (List Char)} {parts : List String} :
    l.map String.ofList = parts ↔ l = parts.map String.toList := by
  constructor
  · rintro rfl
    exact (toList_map_ofList l).symm
  · rintro rfl
    exact ofList_map_toList parts

theorem pieces_eq_iff {sep : Char} {cs : List Char} {parts : List (List Char)} :
    pieces sep cs = parts ↔
      parts ≠ [] ∧ (∀ part ∈ parts, sep ∉ part) ∧ cs = [sep].intercalate parts := by
  rw [pieces]
  constructor
  · rintro rfl
    refine ⟨piecesBy_ne_nil _ cs, fun part hpart hsep => ?_, ?_⟩
    · have hnot := not_of_mem_piecesBy hpart sep hsep
      simp at hnot
    · rw [piecesBy_eq_splitOnP, ← List.splitOn_eq_splitOnP, List.intercalate_splitOn]
  · rintro ⟨hne, hparts, rfl⟩
    rw [piecesBy_eq_splitOnP, ← List.splitOn_eq_splitOnP]
    exact List.splitOn_intercalate sep hparts hne

theorem split_eq_iff {sep : Char} {s : String} {parts : List String} :
    split sep s = parts ↔ Parted sep s parts := by
  rw [split, map_ofList_eq_iff, Parted, pieces_eq_iff]
  simp

theorem mem_intercalate_iff {sep c : Char} (hc : c ≠ sep) (parts : List (List Char)) :
    c ∈ [sep].intercalate parts ↔ ∃ part ∈ parts, c ∈ part := by
  induction parts with
  | nil => simp [List.intercalate]
  | cons part parts ih =>
    cases parts with
    | nil => simp [List.intercalate]
    | cons next later =>
      rw [List.intercalate_cons_cons, List.mem_append, List.mem_append, ih,
        List.exists_mem_cons_iff _ part]
      simp [hc]

/-- What holds of the separator and of every character of the parts holds of the whole text. -/
theorem forall_mem_intercalate {p : Char → Prop} {sep : Char} {parts : List (List Char)}
    (hsep : p sep) (h : ∀ part ∈ parts, ∀ c ∈ part, p c) : ∀ c ∈ [sep].intercalate parts, p c := by
  intro c hmem
  by_cases hc : c = sep
  · exact hc ▸ hsep
  · obtain ⟨part, hpart, hmem⟩ := (mem_intercalate_iff hc parts).1 hmem
    exact h part hpart c hmem

/-! ## Reading all parts -/

theorem mapM_eq_some_iff_forall₂ {α β : Type} {read : α → Option β} {as : List α} {bs : List β} :
    as.mapM read = some bs ↔ List.Forall₂ (fun a b => read a = some b) as bs := by
  induction as generalizing bs with
  | nil => simp [eq_comm]
  | cons a as ih =>
    simp only [List.mapM_cons, Option.bind_eq_bind, Option.bind_eq_some_iff, ih]
    constructor
    · rintro ⟨b, hb, rest, hrest, hbs⟩
      obtain rfl : b :: rest = bs := Option.some.inj hbs
      exact .cons hb hrest
    · intro h
      cases h with
      | cons hb hrest => exact ⟨_, hb, _, hrest, rfl⟩

/-- Where what is read has one notation only, so have all together. -/
theorem mapM_eq_some_iff {α β : Type} {read : α → Option β} {write : β → α}
    (h : ∀ a b, read a = some b ↔ a = write b) {as : List α} {bs : List β} :
    as.mapM read = some bs ↔ as = bs.map write := by
  simp only [mapM_eq_some_iff_forall₂, h, ← List.forall₂_map_right_iff, List.forall₂_eq_eq_eq]

/-! ## What a reader accepts -/

section Reader

variable {ε α : Type} {result : Except ε α} {fault : ε} {P Q : α → Prop} {c : Prop}

/-- A reader with a single error fails where there is nothing to read. -/
theorem eq_error_iff_of_eq_ok_iff (hok : ∀ a, result = .ok a ↔ P a)
    (herror : ∀ e, result = .error e → e = fault) (e : ε) :
    result = .error e ↔ e = fault ∧ ∀ a, ¬ P a := by
  constructor
  · intro h
    refine ⟨herror e h, fun a ha => ?_⟩
    rw [(hok a).2 ha] at h
    cases h
  · rintro ⟨rfl, hnone⟩
    cases hresult : result with
    | ok a => exact absurd ((hok a).1 hresult) (hnone a)
    | error e' => rw [herror e' hresult]

/-- A stricter description misses what is read of the texts that it leaves out. -/
theorem eq_ok_iff_stricter_iff (hok : ∀ a, result = .ok a ↔ P a) (hstrict : ∀ a, Q a ↔ ¬ c ∧ P a) :
    (∀ a, result = .ok a ↔ Q a) ↔ (c → ∀ a, ¬ P a) := by
  simp only [hok, hstrict, iff_and_self]
  constructor
  · exact fun hexact hc a ha => hexact a ha hc
  · exact fun hnone a ha hc => hnone hc a ha

end Reader

/-! ## Two parts -/

theorem after?_eq_some_iff {lead s rest : String} :
    after? lead s = some rest ↔ s = lead ++ rest := by
  rw [after?, Option.map_eq_some_iff]
  constructor
  · rintro ⟨cs, hcs, rfl⟩
    rw [List.isPrefixOf?_eq_some_iff_append_eq] at hcs
    apply String.toList_inj.1
    rw [String.toList_append, String.toList_ofList, hcs]
  · rintro rfl
    refine ⟨rest.toList, ?_, String.ofList_toList⟩
    rw [List.isPrefixOf?_eq_some_iff_append_eq, String.toList_append]

theorem append_cons_inj {sep : Char} {a b rest rest' : List Char}
    (h : a ++ sep :: rest = b ++ sep :: rest') (ha : sep ∉ a) (hb : sep ∉ b) :
    a = b ∧ rest = rest' := by
  induction a generalizing b with
  | nil =>
    cases b with
    | nil => exact ⟨rfl, (List.cons.inj h).2⟩
    | cons c b => exact absurd ((List.cons.inj h).1 ▸ List.mem_cons_self) hb
  | cons c a ih =>
    cases b with
    | nil => exact absurd ((List.cons.inj h).1 ▸ List.mem_cons_self) ha
    | cons c' b =>
      obtain ⟨rfl, htail⟩ := List.cons.inj h
      obtain ⟨rfl, hrest⟩ := ih htail (fun hmem => ha (List.mem_cons_of_mem _ hmem))
        fun hmem => hb (List.mem_cons_of_mem _ hmem)
      exact ⟨rfl, hrest⟩

theorem append_cons_inj_of_last {sep : Char} {a b rest rest' : List Char}
    (h : a ++ sep :: rest = b ++ sep :: rest') (hrest : sep ∉ rest) (hrest' : sep ∉ rest') :
    a = b ∧ rest = rest' := by
  have hmirror := congrArg List.reverse h
  simp only [List.reverse_append, List.reverse_cons, List.append_assoc,
    List.singleton_append] at hmirror
  obtain ⟨hlast, hfirst⟩ := append_cons_inj hmirror (by simpa using hrest) (by simpa using hrest')
  exact ⟨List.reverse_injective hfirst, List.reverse_injective hlast⟩

/-- The last separator is the one that is not in what follows it. -/
theorem cutLast_append {sep : Char} {before rest : String} (h : sep ∉ rest.toList) :
    cutLast sep (before ++ String.singleton sep ++ rest) = some (before, rest) := by
  have hpass : ∀ c ∈ rest.toList.reverse, (c != sep) = true := by
    intro c hc
    rw [bne_iff_ne]
    rintro rfl
    exact h (List.mem_reverse.1 hc)
  have hmirror : (before ++ String.singleton sep ++ rest).toList.reverse =
      rest.toList.reverse ++ sep :: before.toList.reverse := by
    simp
  rw [cutLast, hmirror, List.span_eq_takeWhile_dropWhile, List.takeWhile_append_of_pos hpass,
    List.dropWhile_append_of_pos hpass, List.takeWhile_cons_of_neg (by simp),
    List.dropWhile_cons_of_neg (by simp)]
  simp

/-! ## Columns -/

/-- Columns have no blank in them and are not empty, and there are blanks between them. -/
inductive Columns : List Char → List (List Char) → Prop
  | nil {gap : List Char} (hgap : ∀ c ∈ gap, isBlank c = true) : Columns gap []
  | cons {gap column rest : List Char} {columns : List (List Char)}
      (hgap : ∀ c ∈ gap, isBlank c = true) (hne : column ≠ [])
      (hcolumn : ∀ c ∈ column, isBlank c = false) (hend : ∀ c ∈ rest.head?, isBlank c = true)
      (h : Columns rest columns) : Columns (gap ++ (column ++ rest)) (column :: columns)

/-- The pieces between blanks that are not empty. -/
def runs (cs : List Char) : List (List Char) := (piecesBy isBlank cs).filter fun w => !w.isEmpty

theorem runs_blank {c : Char} (hc : isBlank c = true) (cs : List Char) :
    runs (c :: cs) = runs cs := by
  rw [runs, piecesBy, if_pos hc, List.filter_cons_of_neg (by simp), runs]

theorem runs_gap {gap : List Char} (hgap : ∀ c ∈ gap, isBlank c = true) (cs : List Char) :
    runs (gap ++ cs) = runs cs := by
  induction gap with
  | nil => rfl
  | cons c gap ih =>
    obtain ⟨hc, hgap⟩ := List.forall_mem_cons.1 hgap
    rw [List.cons_append, runs_blank hc, ih hgap]

theorem runs_column {column rest : List Char} (hne : column ≠ [])
    (hcolumn : ∀ c ∈ column, isBlank c = false) (hend : ∀ c ∈ rest.head?, isBlank c = true) :
    runs (column ++ rest) = column :: runs rest := by
  have hkeep : ∀ l, (column :: l).filter (fun w => !w.isEmpty) =
      column :: l.filter fun w => !w.isEmpty :=
    fun l => List.filter_cons_of_pos (by simpa using hne)
  cases rest with
  | nil =>
    rw [List.append_nil, runs, piecesBy_eq_splitOnP, List.splitOnP_eq_singleton hcolumn,
      hkeep]
    rfl
  | cons c rest =>
    have hc : isBlank c = true := hend c rfl
    rw [runs_blank hc, runs, piecesBy_eq_splitOnP,
      List.splitOnP_append_cons_of_forall_mem hcolumn c hc, hkeep, runs, piecesBy_eq_splitOnP]

theorem runs_of_columns {cs : List Char} {columns : List (List Char)} (h : Columns cs columns) :
    runs cs = columns := by
  induction h with
  | @nil gap hgap =>
    have hall := runs_gap hgap []
    rwa [List.append_nil] at hall
  | cons hgap hne hcolumn hend _ ih =>
    rw [runs_gap hgap, runs_column hne hcolumn hend, ih]

theorem columns_append {column rest : List Char} {columns : List (List Char)} (hne : column ≠ [])
    (hcolumn : ∀ c ∈ column, isBlank c = false) (hend : ∀ c ∈ rest.head?, isBlank c = true)
    (h : Columns rest columns) : Columns (column ++ rest) (column :: columns) :=
  @Columns.cons [] column rest columns (by simp) hne hcolumn hend h

theorem exists_columns (cs : List Char) : ∃ columns, Columns cs columns := by
  -- one more character in front is part of the gap, lengthens the first column or is a new one
  induction cs with
  | nil => exact ⟨[], .nil (by simp)⟩
  | cons c cs ih =>
    obtain ⟨columns, h⟩ := ih
    have hone : isBlank c = false → ∀ d ∈ [c], isBlank d = false := by simp
    cases hc : isBlank c with
    | true =>
      refine ⟨columns, ?_⟩
      cases h with
      | nil hgap => exact .nil (List.forall_mem_cons.2 ⟨hc, hgap⟩)
      | cons hgap hne hcolumn hend hrest =>
        rw [← List.cons_append]
        exact .cons (List.forall_mem_cons.2 ⟨hc, hgap⟩) hne hcolumn hend hrest
    | false =>
      cases h with
      | nil hgap =>
        have hend : ∀ d ∈ cs.head?, isBlank d = true :=
          fun d hd => hgap d (List.mem_of_head? hd)
        exact ⟨[[c]], columns_append (by simp) (hone hc) hend (.nil hgap)⟩
      | @cons gap column rest columns hgap hne hcolumn hend hrest =>
        cases gap with
        | nil =>
          exact ⟨(c :: column) :: columns,
            columns_append (by simp) (List.forall_mem_cons.2 ⟨hc, hcolumn⟩) hend hrest⟩
        | cons g gap =>
          have hstart : ∀ d ∈ (g :: gap ++ (column ++ rest)).head?, isBlank d = true := by
            rintro d hd
            obtain rfl : g = d := Option.some.inj hd
            exact hgap g List.mem_cons_self
          exact ⟨[c] :: column :: columns,
            columns_append (by simp) (hone hc) hstart (.cons hgap hne hcolumn hend hrest)⟩

theorem words_eq_iff {s : String} {columns : List String} :
    words s = columns ↔ Columns s.toList (columns.map String.toList) := by
  have hwords : words s = (runs s.toList).map String.ofList := rfl
  rw [hwords, map_ofList_eq_iff]
  constructor
  · intro h
    obtain ⟨found, hfound⟩ := exists_columns s.toList
    rwa [← h, runs_of_columns hfound]
  · exact runs_of_columns

theorem Columns.not_blank {cs : List Char} {columns : List (List Char)} (h : Columns cs columns) :
    ∀ column ∈ columns, ∀ c ∈ column, isBlank c = false := by
  induction h with
  | nil => simp
  | cons _ _ hcolumn _ _ ih => exact List.forall_mem_cons.2 ⟨hcolumn, ih⟩

theorem dropWhile_isBlank_eq_self {cs : List Char} (h : ∀ c ∈ cs, isBlank c = false) :
    cs.dropWhile isBlank = cs := by
  cases cs with
  | nil => rfl
  | cons c cs => rw [List.dropWhile_cons, h c List.mem_cons_self, if_neg (by simp)]

theorem trim_eq_self {s : String} (h : ∀ c ∈ s.toList, isBlank c = false) : trim s = s := by
  rw [trim, trimChars, dropWhile_isBlank_eq_self h,
    dropWhile_isBlank_eq_self fun c hc => h c (List.mem_reverse.1 hc), List.reverse_reverse,
    String.ofList_toList]

/-! ## Blanks around a text -/

/-- The core, with any blanks before and after it. -/
def Padded (core cs : List Char) : Prop :=
  ∃ lead trail, (∀ c ∈ lead, isBlank c = true) ∧ (∀ c ∈ trail, isBlank c = true) ∧
    cs = lead ++ (core ++ trail)

theorem padded_self (cs : List Char) : Padded cs cs := ⟨[], [], by simp, by simp, by simp⟩

theorem padded_trimChars (cs : List Char) : Padded (trimChars cs) cs := by
  have hfront : cs.takeWhile isBlank ++ cs.dropWhile isBlank = cs :=
    List.takeWhile_append_dropWhile
  -- the blanks at the end are those at the start of the mirrored rest
  have hback := congrArg List.reverse
    (List.takeWhile_append_dropWhile (p := isBlank) (l := (cs.dropWhile isBlank).reverse))
  rw [List.reverse_append, List.reverse_reverse] at hback
  refine ⟨cs.takeWhile isBlank, ((cs.dropWhile isBlank).reverse.takeWhile isBlank).reverse,
    fun c hc => ?_, fun c hc => ?_, ?_⟩
  · exact List.mem_takeWhile_imp hc
  · exact List.mem_takeWhile_imp (List.mem_reverse.1 hc)
  · rw [trimChars, hback, hfront]

theorem trimChars_of_padded {core cs : List Char} (h : Padded core cs)
    (hcore : ∀ c ∈ core, isBlank c = false) : trimChars cs = core := by
  obtain ⟨lead, trail, hlead, htrail, rfl⟩ := h
  have hmirror : ∀ c ∈ core.reverse, isBlank c = false :=
    fun c hc => hcore c (List.mem_reverse.1 hc)
  have htrail' : ∀ c ∈ trail.reverse, isBlank c = true :=
    fun c hc => htrail c (List.mem_reverse.1 hc)
  rw [trimChars, List.dropWhile_append_of_pos hlead, List.dropWhile_append,
    dropWhile_isBlank_eq_self hcore]
  by_cases hnil : core = []
  · subst hnil
    rw [if_pos (by simp), List.dropWhile_eq_nil_iff.2 htrail]
    rfl
  · rw [if_neg (by simpa using hnil), List.reverse_append, List.dropWhile_append_of_pos htrail',
      dropWhile_isBlank_eq_self hmirror, List.reverse_reverse]

theorem trim_of_padded {text s : String} (h : Padded text.toList s.toList)
    (htext : ∀ c ∈ text.toList, isBlank c = false) : trim s = text := by
  rw [trim, trimChars_of_padded h htext, String.ofList_toList]

theorem mem_padded_iff {core cs : List Char} (h : Padded core cs) {c : Char}
    (hc : isBlank c = false) : c ∈ cs ↔ c ∈ core := by
  obtain ⟨lead, trail, hlead, htrail, rfl⟩ := h
  have hnot : ∀ {blanks : List Char}, (∀ d ∈ blanks, isBlank d = true) → c ∉ blanks := by
    intro blanks hblanks hmem
    rw [hblanks c hmem] at hc
    cases hc
  simp [hnot hlead, hnot htrail]

/-! ## Lines -/

/-- Lines end with a line feed, and a carriage return before it is part of the end. What follows
the last line feed is a line, unless it is empty. -/
inductive Lines : List Char → List (List Char) → Prop
  | nil : Lines [] []
  | last {line : List Char} (hne : line ≠ []) (hline : '\n' ∉ line) : Lines line [line]
  | cons {line rest : List Char} {later : List (List Char)} (hline : '\n' ∉ line)
      (h : Lines rest later) : Lines (line ++ '\n' :: rest) (dropReturn line :: later)

/-- The lines of a text from its pieces between line feeds. -/
def linesOf (parts : List (List Char)) : List (List Char) :=
  parts.dropLast.map dropReturn ++
    if (parts.getLast?.getD []).isEmpty then [] else [parts.getLast?.getD []]

theorem linesOf_cons (line : List Char) {parts : List (List Char)} (h : parts ≠ []) :
    linesOf (line :: parts) = dropReturn line :: linesOf parts := by
  obtain ⟨part, parts, rfl⟩ := List.exists_cons_of_ne_nil h
  rw [linesOf, List.dropLast_cons_of_ne_nil (by simp), List.getLast?_cons_cons]
  rfl

theorem linesOf_pieces {cs : List Char} {found : List (List Char)} (h : Lines cs found) :
    linesOf (pieces '\n' cs) = found := by
  induction h with
  | nil => rfl
  | @last line hne hline =>
    rw [pieces, piecesBy_eq_splitOnP, ← List.splitOn_eq_splitOnP, List.splitOn_eq_singleton hline]
    simp [linesOf, hne]
  | @cons line rest later hline _ ih =>
    rw [pieces, piecesBy_eq_splitOnP, ← List.splitOn_eq_splitOnP,
      List.splitOn_append_cons_self_of_not_mem hline, linesOf_cons line (List.splitOn_ne_nil _ _),
      List.splitOn_eq_splitOnP, ← piecesBy_eq_splitOnP]
    exact congrArg _ ih

theorem exists_lines (cs : List Char) : ∃ found, Lines cs found := by
  -- one more character in front lengthens the first line or ends an empty one
  induction cs with
  | nil => exact ⟨[], .nil⟩
  | cons c cs ih =>
    obtain ⟨found, h⟩ := ih
    by_cases hc : '\n' = c
    · subst hc
      exact ⟨dropReturn [] :: found, @Lines.cons [] cs found (by simp) h⟩
    · cases h with
      | nil => exact ⟨[[c]], .last (by simp) (by simpa using hc)⟩
      | last hne hline => exact ⟨[c :: cs], .last (by simp) (by simp [hc, hline])⟩
      | @cons line rest later hline hrest =>
        exact ⟨dropReturn (c :: line) :: later,
          @Lines.cons (c :: line) rest later (by simp [hc, hline]) hrest⟩

theorem lines_eq_iff {s : String} {found : List String} :
    lines s = found ↔ Lines s.toList (found.map String.toList) := by
  have hlines : lines s = (linesOf (pieces '\n' s.toList)).map String.ofList := rfl
  rw [hlines, map_ofList_eq_iff]
  constructor
  · intro h
    obtain ⟨made, hmade⟩ := exists_lines s.toList
    rwa [← h, linesOf_pieces hmade]
  · exact linesOf_pieces

end SwitchMib.Text
