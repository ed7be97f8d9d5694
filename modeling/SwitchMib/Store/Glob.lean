/-!
# Key patterns

* `globMatch`: whether a key fits a pattern. A star stands for any run of characters, a question
  mark for any one, neither for a line feed; every other character stands for itself.
-/

namespace SwitchMib.Store
set_option autoImplicit false

/-- Whether a key without some leading run of characters passes a test. -/
def afterSomeRun (test : List Char → Bool) : List Char → Bool
  | [] => test []
  | c :: key => test (c :: key) || (c != '\n' && afterSomeRun test key)

/-- Whether a key fits a pattern as a whole. -/
def globMatch : List Char → List Char → Bool
  | [], key => key.isEmpty
  | '*' :: pattern, key => afterSomeRun (globMatch pattern) key
  | '?' :: pattern, c :: key => c != '\n' && globMatch pattern key
  | p :: pattern, c :: key => p == c && globMatch pattern key
  | _ :: _, [] => false

end SwitchMib.Store
