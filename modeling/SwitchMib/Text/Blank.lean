/-!
# White space, words and lines

White space is the Unicode property White_Space.

* `isBlank`: the property.
* `trim`: a text without the blanks at its ends.
* `piecesBy`, `pieces`: the parts between separators; there is always one part more than separators.
* `words`: the maximal runs without a blank.
* `lines`: the lines of a text, without their line ends.
-/

namespace SwitchMib.Text
set_option autoImplicit false

/-- The characters with the property White_Space. -/
def isBlank (c : Char) : Bool :=
  let n := c.toNat
  (0x09 ≤ n && n ≤ 0x0d) || n == 0x20 || n == 0x85 || n == 0xa0 || n == 0x1680 ||
    (0x2000 ≤ n && n ≤ 0x200a) || n == 0x2028 || n == 0x2029 || n == 0x202f || n == 0x205f ||
    n == 0x3000

def trimChars (cs : List Char) : List Char :=
  ((cs.dropWhile isBlank).reverse.dropWhile isBlank).reverse

def trim (s : String) : String := String.ofList (trimChars s.toList)

/-- The parts between the characters that satisfy `p`. -/
def piecesBy (p : Char → Bool) : List Char → List (List Char)
  | [] => [[]]
  | c :: cs =>
    if p c then [] :: piecesBy p cs
    else match piecesBy p cs with
      | [] => [[c]]
      | w :: ws => (c :: w) :: ws

def pieces (sep : Char) (cs : List Char) : List (List Char) := piecesBy (· == sep) cs

def split (sep : Char) (s : String) : List String := (pieces sep s.toList).map String.ofList

theorem piecesBy_ne_nil (p : Char → Bool) (cs : List Char) : piecesBy p cs ≠ [] := by
  cases cs with
  | nil => simp [piecesBy]
  | cons c cs =>
    unfold piecesBy
    split
    · simp
    · split <;> simp

/-- The maximal runs without a blank. -/
def words (s : String) : List String :=
  ((piecesBy isBlank s.toList).filter fun w => !w.isEmpty).map String.ofList

def dropReturn (cs : List Char) : List Char :=
  if cs.getLast? = some '\r' then cs.dropLast else cs

/-- Lines end at a line feed, with or without a carriage return before it; what follows the last
line feed is a line unless it is empty. -/
def lines (s : String) : List String :=
  let parts := pieces '\n' s.toList
  let closed := parts.dropLast.map dropReturn
  let rest := parts.getLast?.getD []
  (closed ++ if rest.isEmpty then [] else [rest]).map String.ofList

/-! ## Cutting at a given text -/

/-- What follows `lead`, if the text starts with it. -/
def after? (lead s : String) : Option String :=
  (lead.toList.isPrefixOf? s.toList).map String.ofList

/-- What follows `lead`, or the whole text if it does not start with it. -/
def dropLead (lead s : String) : String := (after? lead s).getD s

/-- The parts before and after the first separator. -/
def cutFirst (sep : Char) (s : String) : Option (String × String) :=
  match s.toList.span (· != sep) with
  | (_, []) => none
  | (before, _ :: rest) => some (String.ofList before, String.ofList rest)

/-- The parts before and after the last separator. -/
def cutLast (sep : Char) (s : String) : Option (String × String) :=
  match s.toList.reverse.span (· != sep) with
  | (_, []) => none
  | (rest, _ :: before) => some (String.ofList before.reverse, String.ofList rest.reverse)

end SwitchMib.Text
