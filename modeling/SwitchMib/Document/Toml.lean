import SwitchMib.Document.Datum
import SwitchMib.Text.Blank
import SwitchMib.Text.Real

/-!
# TOML

A TOML text is a list of statements that build up one table.

* `TomlStatement`: a setting, the head of a table, or the head of an item of a list of tables.
* `Toml.readStatements`: the statements of a text.
* `TomlNode`: a table under construction. It remembers how each table came about, because that
  decides what may still be added to it.
* `Toml.parseDatum`: the document of a text.
-/

namespace SwitchMib.Document
set_option autoImplicit false

/-- How a table came about. -/
inductive TomlOrigin where
  /-- By the head of a table below it. -/
  | implied
  /-- By its own head. -/
  | headed
  /-- By a dotted name. -/
  | dotted
  deriving DecidableEq, Repr

inductive TomlNode where
  | leaf (value : Datum)
  | branch (origin : TomlOrigin) (kids : List (String × TomlNode))
  /-- A list of tables, the last of which is open. -/
  | series (items : List (List (String × TomlNode)))

inductive TomlStatement where
  | setting (path : List String) (value : Datum)
  | table (path : List String)
  | item (path : List String)

namespace Toml

/-! ## Building -/

abbrev Kids := List (String × TomlNode)

/-- Puts another node under a name that is there. -/
def replaceKid (name : String) (node : TomlNode) (kids : Kids) : Kids :=
  kids.map fun kid => if kid.1 == name then (name, node) else kid

/-- Changes the table at the end of a path. Tables on the way are made where they are missing; of a
list of tables the last item is meant. A dotted path does not enter tables with heads. -/
def changeAt (isDotted : Bool) : List String → TomlOrigin → Kids →
    (TomlOrigin → Kids → Option Kids) → Option Kids
  | [], origin, kids, change => change origin kids
  | name :: path, _, kids, change =>
    match kids.lookup name with
    | none => do
      let origin := if isDotted then TomlOrigin.dotted else .implied
      let sub ← changeAt isDotted path origin [] change
      pure (kids ++ [(name, .branch origin sub)])
    | some (.branch origin sub) =>
      if isDotted && origin == .headed then none
      else do
        let sub ← changeAt isDotted path origin sub change
        pure (replaceKid name (.branch origin sub) kids)
    | some (.series items) =>
      match isDotted, items.getLast? with
      | false, some last => do
        let last ← changeAt isDotted path .headed last change
        pure (replaceKid name (.series (items.dropLast ++ [last])) kids)
      | _, _ => none
    | some (.leaf _) => none

/-- Adds a setting to a table. The name is new, and all but the last part of a dotted name lead
through tables made by dotted names. -/
def addSetting (path : List String) (value : Datum) (kids : Kids) : Option Kids :=
  match path.getLast? with
  | none => none
  | some name =>
    let lead := path.dropLast
    changeAt true lead .headed kids fun origin kids =>
      if (kids.lookup name).isSome || (!lead.isEmpty && origin != .dotted) then none
      else some (kids ++ [(name, .leaf value)])

/-- Opens the table of a head. It must not be open already. -/
def openTable (path : List String) (kids : Kids) : Option Kids :=
  match path.getLast? with
  | none => none
  | some name =>
    changeAt false path.dropLast .headed kids fun _ kids =>
      match kids.lookup name with
      | none => some (kids ++ [(name, .branch .headed [])])
      | some (.branch .implied sub) => some (replaceKid name (.branch .headed sub) kids)
      | some _ => none

/-- Opens a new item of a list of tables. -/
def openItem (path : List String) (kids : Kids) : Option Kids :=
  match path.getLast? with
  | none => none
  | some name =>
    changeAt false path.dropLast .headed kids fun _ kids =>
      match kids.lookup name with
      | none => some (kids ++ [(name, .series [[]])])
      | some (.series items) => some (replaceKid name (.series (items ++ [[]])) kids)
      | some _ => none

/-- Follows one statement. The state is the path of the open table and the whole document. -/
def follow (state : List String × Kids) : TomlStatement → Option (List String × Kids)
  | .setting path value =>
    (changeAt false state.1 .headed state.2 fun _ kids => addSetting path value kids).map
      (state.1, ·)
  | .table path => (openTable path state.2).map (path, ·)
  | .item path => (openItem path state.2).map (path, ·)

mutual

def nodeDatum : TomlNode → Datum
  | .leaf value => value
  | .branch _ kids => .table (kidData kids)
  | .series items => .list (itemData items)

def kidData : List (String × TomlNode) → List (String × Datum)
  | [] => []
  | (name, node) :: rest => (name, nodeDatum node) :: kidData rest

def itemData : List (List (String × TomlNode)) → List Datum
  | [] => []
  | kids :: rest => .table (kidData kids) :: itemData rest

end

def inlineTable (settings : List (List String × Datum)) : Option Datum :=
  (settings.foldlM (fun kids s => addSetting s.1 s.2 kids) []).map fun kids =>
    .table (kidData kids)

/-! ## Blanks and comments -/

def skipBlanks (cs : List Char) : List Char := cs.dropWhile fun c => c == ' ' || c == '\t'

/-- A character that may stand in a comment or a text on one line. -/
def isPlain (c : Char) : Bool := c == '\t' || (0x20 ≤ c.toNat && c.toNat != 0x7f)

/-- Drops a comment up to the end of its line. -/
def skipComment : List Char → Option (List Char)
  | '#' :: rest =>
    match rest.dropWhile isPlain with
    | [] => some []
    | '\n' :: rest => some ('\n' :: rest)
    | '\r' :: '\n' :: rest => some ('\r' :: '\n' :: rest)
    | _ => none
  | cs => some cs

def skipNewline : List Char → Option (List Char)
  | '\n' :: rest => some rest
  | '\r' :: '\n' :: rest => some rest
  | _ => none

/-- Drops blanks, line ends and comments. -/
def skipLines : Nat → List Char → Option (List Char)
  | 0, cs => some cs
  | fuel + 1, cs => do
    let cs ← skipComment (skipBlanks cs)
    match skipNewline cs with
    | some cs => skipLines fuel cs
    | none => pure cs

/-! ## Texts -/

/-- The character of `count` hexadecimal digits. -/
def readCode (count : Nat) (cs : List Char) : Option (Char × List Char) :=
  let digits := cs.take count
  if digits.length < count then none
  else do
    let values ← digits.mapM (Text.digitValue? 16)
    let n := values.foldl (fun n d => n * 16 + d) 0
    if n < 0xd800 ∨ (0xe000 ≤ n ∧ n < 0x110000) then pure (Char.ofNat n, cs.drop count) else none

def readEscape : List Char → Option (Char × List Char)
  | 'b' :: rest => some ('\x08', rest)
  | 't' :: rest => some ('\t', rest)
  | 'n' :: rest => some ('\n', rest)
  | 'f' :: rest => some ('\x0c', rest)
  | 'r' :: rest => some ('\r', rest)
  | 'e' :: rest => some ('\x1b', rest)
  | '"' :: rest => some ('"', rest)
  | '\\' :: rest => some ('\\', rest)
  | 'x' :: rest => readCode 2 rest
  | 'u' :: rest => readCode 4 rest
  | 'U' :: rest => readCode 8 rest
  | _ => none

def readBasic : Nat → List Char → Option (List Char × List Char)
  | 0, _ => none
  | _ + 1, [] => none
  | _ + 1, '"' :: rest => some ([], rest)
  | fuel + 1, '\\' :: rest => do
    let (c, rest) ← readEscape rest
    let (cs, rest) ← readBasic fuel rest
    pure (c :: cs, rest)
  | fuel + 1, c :: rest =>
    if isPlain c then (readBasic fuel rest).map fun (cs, rest) => (c :: cs, rest) else none

def readLiteral (cs : List Char) : Option (List Char × List Char) :=
  match cs.dropWhile fun c => isPlain c && c != '\'' with
  | '\'' :: rest => some (cs.takeWhile fun c => isPlain c && c != '\'', rest)
  | _ => none

/-- The end of a text over several lines at a run of quotes: three close it, and up to two before
them belong to the text. -/
def closeRun (quote : Char) (cs : List Char) : Option (List Char × List Char) :=
  let run := (cs.takeWhile (· == quote)).length
  if 3 ≤ run ∧ run ≤ 5 then some (List.replicate (run - 3) quote, cs.drop run) else none

/-- A backslash at the end of a line: drops the blanks up to the next character. -/
def skipFold (cs : List Char) : Option (List Char) :=
  (skipNewline (skipBlanks cs)).map fun rest =>
    rest.dropWhile fun c => c == ' ' || c == '\t' || c == '\n' || c == '\r'

/-- The rest of a text over several lines. In one with escapes the quote is double. -/
def readLong (quote : Char) : Nat → List Char → Option (List Char × List Char)
  | 0, _ => none
  | _ + 1, [] => none
  | fuel + 1, c :: rest =>
    if c == quote then
      match closeRun quote (c :: rest) with
      | some closed => some closed
      | none =>
        if rest.take 2 == [quote, quote] then none
        else (readLong quote fuel rest).map fun (cs, rest) => (c :: cs, rest)
    else if c == '\\' && quote == '"' then
      match skipFold rest with
      | some rest => readLong quote fuel rest
      | none => do
        let (e, rest) ← readEscape rest
        let (cs, rest) ← readLong quote fuel rest
        pure (e :: cs, rest)
    else if isPlain c || c == '\n' || (c == '\r' && rest.head? == some '\n') then
      (readLong quote fuel rest).map fun (cs, rest) => (c :: cs, rest)
    else none

def readText (cs : List Char) : Option (String × List Char) :=
  let fuel := cs.length + 1
  let whole (read : Option (List Char × List Char)) : Option (String × List Char) :=
    read.map fun (cs, rest) => (String.ofList cs, rest)
  match cs with
  | '"' :: '"' :: '"' :: rest => whole (readLong '"' fuel ((skipNewline rest).getD rest))
  | '\'' :: '\'' :: '\'' :: rest => whole (readLong '\'' fuel ((skipNewline rest).getD rest))
  | '"' :: rest => whole (readBasic fuel rest)
  | '\'' :: rest => whole (readLiteral rest)
  | _ => none

/-! ## Names -/

def isNameChar (c : Char) : Bool := c.isAlphanum || c == '_' || c == '-'

def readName (cs : List Char) : Option (String × List Char) :=
  match cs with
  | '"' :: rest => (readBasic (rest.length + 1) rest).map fun (cs, rest) => (String.ofList cs, rest)
  | '\'' :: rest => (readLiteral rest).map fun (cs, rest) => (String.ofList cs, rest)
  | _ =>
    let name := cs.takeWhile isNameChar
    if name.isEmpty then none else some (String.ofList name, cs.dropWhile isNameChar)

def readPath : Nat → List Char → Option (List String × List Char)
  | 0, _ => none
  | fuel + 1, cs => do
    let (name, rest) ← readName (skipBlanks cs)
    match skipBlanks rest with
    | '.' :: rest => do
      let (path, rest) ← readPath fuel rest
      pure (name :: path, rest)
    | rest => pure ([name], rest)

/-! ## Plain values -/

/-- The digits of a run in which single underscores stand between digits. -/
def digitRun (isDigit : Char → Bool) : List Char → Option (List Char)
  | [] => none
  | [c] => if isDigit c then some [c] else none
  | c :: '_' :: rest => if isDigit c then (digitRun isDigit rest).map (c :: ·) else none
  | c :: rest => if isDigit c then (digitRun isDigit rest).map (c :: ·) else none

/-- The value of a run of digits in a base. -/
def runValue (base : Nat) (cs : List Char) : Option Nat := do
  let digits ← digitRun (fun c => (Text.digitValue? base c).isSome) cs
  let values ← digits.mapM (Text.digitValue? base)
  pure (values.foldl (fun n d => n * base + d) 0)

/-- A run of decimal digits without a leading zero. -/
def wholeValue (cs : List Char) : Option Nat :=
  if cs.head? == some '0' && 1 < cs.length then none else runValue 10 cs

/-- A whole number that fits 128 bits with or without a sign. -/
def boundedInt (n : Int) : Option Datum :=
  if -0x80000000000000000000000000000000 ≤ n ∧ n < 0x100000000000000000000000000000000 then
    some (.int n)
  else none

def readInt : List Char → Option Datum
  | '0' :: 'x' :: rest => (runValue 16 rest).bind fun n => boundedInt n
  | '0' :: 'o' :: rest => (runValue 8 rest).bind fun n => boundedInt n
  | '0' :: 'b' :: rest => (runValue 2 rest).bind fun n => boundedInt n
  | '+' :: rest => (wholeValue rest).bind fun n => boundedInt n
  | '-' :: rest => (wholeValue rest).bind fun n => boundedInt (-(n : Int))
  | cs => (wholeValue cs).bind fun n => boundedInt n

/-- Whether a text is a number with a fraction or an exponent. -/
def isReal (cs : List Char) : Bool :=
  let cs := match cs with
    | '+' :: rest | '-' :: rest => rest
    | cs => cs
  if cs == ['i', 'n', 'f'] || cs == ['n', 'a', 'n'] then true
  else
    let isPowerMark := fun c : Char => c == 'e' || c == 'E'
    let (mantissa, power) := cs.span fun c => !isPowerMark c
    let (whole, fraction) := mantissa.span (· != '.')
    let fractionOk := match fraction with
      | [] => true
      | _ :: digits => (runValue 10 digits).isSome
    let powerOk := match power with
      | [] => true
      | _ :: '+' :: digits | _ :: '-' :: digits => (runValue 10 digits).isSome
      | _ :: digits => (runValue 10 digits).isSome
    (wholeValue whole).isSome && fractionOk && powerOk && !(fraction.isEmpty && power.isEmpty)

/-- A number with a fraction or an exponent that binary floating-point numbers can come near. -/
def boundedReal (cs : List Char) : Option Datum :=
  match Text.readDecimalReal (cs.filter (· != '_')) with
  | some x => if x.toFloat.isInf then none else some .real
  | none => some .real

def fixedDigits (count : Nat) (cs : List Char) : Option Nat :=
  if cs.length = count ∧ cs.all Text.isDigit then runValue 10 cs else none

def daysOfMonth (year month : Nat) : Nat :=
  if month = 2 then
    if year % 4 = 0 ∧ (year % 100 ≠ 0 ∨ year % 400 = 0) then 29 else 28
  else if month = 4 ∨ month = 6 ∨ month = 9 ∨ month = 11 then 30
  else 31

/-- Whether a text is a date. -/
def isDate (cs : List Char) : Bool :=
  match Text.pieces '-' cs with
  | [y, m, d] =>
    match fixedDigits 4 y, fixedDigits 2 m, fixedDigits 2 d with
    | some y, some m, some d => 1 ≤ m && m ≤ 12 && 1 ≤ d && d ≤ daysOfMonth y m
    | _, _, _ => false
  | _ => false

/-- Whether a text is hours and minutes, with or without seconds and their fraction. -/
def isTime (cs : List Char) : Bool :=
  let (clock, fraction) := cs.span (· != '.')
  let fractionOk := match fraction with
    | [] => true
    | _ :: digits => !digits.isEmpty && digits.all Text.isDigit
  match Text.pieces ':' clock with
  | [h, m] =>
    match fixedDigits 2 h, fixedDigits 2 m with
    | some h, some m => h ≤ 23 && m ≤ 59 && fraction.isEmpty
    | _, _ => false
  | [h, m, s] =>
    match fixedDigits 2 h, fixedDigits 2 m, fixedDigits 2 s with
    | some h, some m, some s => h ≤ 23 && m ≤ 59 && s ≤ 60 && fractionOk
    | _, _, _ => false
  | _ => false

/-- Whether a text is a time with or without its distance from universal time. -/
def isZonedTime (cs : List Char) : Bool :=
  let isZoneMark := fun c : Char => c == 'Z' || c == 'z' || c == '+' || c == '-'
  match cs.span fun c => !isZoneMark c with
  | (clock, []) => isTime clock
  | (clock, mark :: zone) =>
    isTime clock &&
      if mark == 'Z' || mark == 'z' then zone.isEmpty
      else match Text.pieces ':' zone with
        | [h, m] =>
          match fixedDigits 2 h, fixedDigits 2 m with
          | some h, some m => h ≤ 23 && m ≤ 59
          | _, _ => false
        | _ => false

/-- Whether a text is a date, a time or both. -/
def isMoment (cs : List Char) : Bool :=
  if isDate cs || isTime cs then true
  else
    let date := cs.take 10
    match cs.drop 10 with
    | mark :: time =>
      (mark == 'T' || mark == 't' || mark == ' ') && isDate date && isZonedTime time
    | [] => false

/-- A moment is handed on as a table with one text of a reserved name. -/
def momentDatum (cs : List Char) : Datum :=
  .table [("$__toml_private_datetime", .text (String.ofList cs))]

def isPlainValueChar (c : Char) : Bool :=
  c.isAlphanum || c == '_' || c == '-' || c == '+' || c == '.' || c == ':'

def plainDatum (cs : List Char) : Option Datum :=
  if cs == ['t', 'r', 'u', 'e'] then some (.bool true)
  else if cs == ['f', 'a', 'l', 's', 'e'] then some (.bool false)
  else if isMoment cs then some (momentDatum cs)
  else if isReal cs then boundedReal cs
  else readInt cs

/-- A plain value. A date and a time may be parted by a blank. -/
def readPlain (cs : List Char) : Option (Datum × List Char) :=
  let word := cs.takeWhile isPlainValueChar
  let rest := cs.dropWhile isPlainValueChar
  let longer := match rest with
    | ' ' :: after =>
      let time := after.takeWhile isPlainValueChar
      if isDate word && (time.head?.map Text.isDigit) == some true then
        some (word ++ ' ' :: time, after.dropWhile isPlainValueChar)
      else none
    | _ => none
  match longer with
  | some (word, rest) => (plainDatum word).map (·, rest)
  | none => (plainDatum word).map (·, rest)

/-! ## Values -/

mutual

/-- A value in which lists and tables nest at most `depth` times. Every call spends fuel. -/
def readValue (depth : Nat) : Nat → List Char → Option (Datum × List Char)
  | 0, _ => none
  | fuel + 1, cs =>
    match cs with
    | '"' :: _ | '\'' :: _ => (readText cs).map fun (s, rest) => (.text s, rest)
    | '[' :: rest =>
      if depth = 0 then none
      else (readItems (depth - 1) fuel rest).map fun (items, rest) => (.list items, rest)
    | '\x7b' :: rest =>
      if depth = 0 then none
      else do
        let (settings, rest) ← readSettings (depth - 1) fuel rest
        let d ← inlineTable settings
        pure (d, rest)
    | _ => readPlain cs

/-- The items of a list up to its end. -/
def readItems (depth : Nat) : Nat → List Char → Option (List Datum × List Char)
  | 0, _ => none
  | fuel + 1, cs => do
    let cs ← skipLines (cs.length + 1) cs
    match cs with
    | ']' :: rest => pure ([], rest)
    | cs => do
      let (item, rest) ← readValue depth fuel cs
      let rest ← skipLines (rest.length + 1) rest
      match rest with
      | ']' :: rest => pure ([item], rest)
      | ',' :: rest => do
        let (items, rest) ← readItems depth fuel rest
        pure (item :: items, rest)
      | _ => none

/-- The settings of a table on one line up to its end. -/
def readSettings (depth : Nat) : Nat → List Char → Option (List (List String × Datum) × List Char)
  | 0, _ => none
  | fuel + 1, cs => do
    let cs ← skipLines (cs.length + 1) cs
    match cs with
    | '\x7d' :: rest => pure ([], rest)
    | cs => do
      let (path, rest) ← readPath (cs.length + 1) cs
      match rest with
      | '=' :: rest => do
        let (value, rest) ← readValue depth fuel (skipBlanks rest)
        let rest ← skipLines (rest.length + 1) rest
        match rest with
        | '\x7d' :: rest => pure ([(path, value)], rest)
        | ',' :: rest => do
          let (settings, rest) ← readSettings depth fuel rest
          pure ((path, value) :: settings, rest)
        | _ => none
      | _ => none

end

/-! ## Statements -/

/-- How often lists and tables in a value may nest. -/
def maxDepth : Nat := 80

/-- One statement without the end of its line. -/
def readStatement (cs : List Char) : Option (TomlStatement × List Char) :=
  let fuel := cs.length + 1
  match cs with
  | '[' :: '[' :: rest => do
    let (path, rest) ← readPath fuel rest
    match rest with
    | ']' :: ']' :: rest => pure (.item path, rest)
    | _ => none
  | '[' :: rest => do
    let (path, rest) ← readPath fuel rest
    match rest with
    | ']' :: rest => pure (.table path, rest)
    | _ => none
  | _ => do
    let (path, rest) ← readPath fuel cs
    match rest with
    | '=' :: rest => do
      let (value, rest) ← readValue maxDepth (2 * rest.length + 2) (skipBlanks rest)
      pure (.setting path value, rest)
    | _ => none

/-- The statements of a text, one a line. -/
def readStatements : Nat → List Char → Option (List TomlStatement)
  | 0, _ => none
  | fuel + 1, cs => do
    let cs ← skipLines (cs.length + 1) cs
    if cs.isEmpty then pure []
    else
      let (statement, rest) ← readStatement cs
      let rest ← skipComment (skipBlanks rest)
      if rest.isEmpty then pure [statement]
      else
        let rest ← skipNewline rest
        let statements ← readStatements fuel rest
        pure (statement :: statements)

/-- The document of a text. A byte order mark before it is dropped. -/
def parseDatum (s : String) : Option Datum := do
  let cs := match s.toList with
    | '\ufeff' :: rest => rest
    | cs => cs
  let statements ← readStatements (cs.length + 1) cs
  let state ← statements.foldlM follow ([], [])
  pure (.table (kidData state.2))

/-- In this notation a list may be longer than its record, and an empty list or table stands beside
the name of a variant. -/
def dialect : Dialect where
  surplus := true
  isUnit
    | .list items => items.isEmpty
    | .table entries => entries.isEmpty
    | _ => false

end Toml

end SwitchMib.Document
