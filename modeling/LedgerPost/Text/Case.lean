/-!
# Letter case

Only the letters of ASCII have a case here; all other characters stay as they are.
-/

namespace LedgerPost.Text

/-- The text with its ASCII letters in lowercase. -/
def lower (s : String) : String := String.ofList (s.toList.map Char.toLower)

/-- Whether a text has ASCII letters of both cases. -/
def isMixedCase (s : String) : Bool := s.toList.any Char.isUpper && s.toList.any Char.isLower

end LedgerPost.Text
