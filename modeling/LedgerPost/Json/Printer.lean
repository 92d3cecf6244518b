import LedgerPost.Json.Token

/-!
# Writing a JSON text

The compact text of a value is the spelling of its tokens. The spread text has a line for each
item and member, indented by two spaces for each level.
-/

namespace LedgerPost.Json

/-! ### Compact text -/

mutual

/-- The tokens of a value. -/
def tokens : Json → List Token
  | .null => [.null]
  | .bool b => [.bool b]
  | .number numeral => [.number numeral]
  | .string t => [.string t]
  | .array [] => [.openBracket, .closeBracket]
  | .array (v :: items) => .openBracket :: (v.tokens ++ tokensOfItems items)
  | .object [] => [.openBrace, .closeBrace]
  | .object ((name, v) :: members) =>
    .openBrace :: .string name :: .colon :: (v.tokens ++ tokensOfMembers members)

/-- The tokens of further items, up to the closing bracket. -/
def tokensOfItems : List Json → List Token
  | [] => [.closeBracket]
  | v :: items => .comma :: (v.tokens ++ tokensOfItems items)

/-- The tokens of further members, up to the closing brace. -/
def tokensOfMembers : List (Option String × Json) → List Token
  | [] => [.closeBrace]
  | (name, v) :: members =>
    .comma :: .string name :: .colon :: (v.tokens ++ tokensOfMembers members)

end

/-- The text of a value without any space. -/
def compact (v : Json) : String := String.ofList (v.tokens.flatMap Token.spell)

/-! ### Spread text -/

/-- The end of a line and the indentation of the next one. -/
def newline (level : Nat) : List Char := '\n' :: List.replicate (2 * level) ' '

mutual

/-- The text of a value that starts on a line of a level. -/
def spreadAt (level : Nat) : Json → List Char
  | .null => Token.spell .null
  | .bool b => Token.spell (.bool b)
  | .number numeral => numeral
  | .string t => spellText t
  | .array [] => ['[', ']']
  | .array (v :: items) =>
    '[' :: (newline (level + 1) ++ v.spreadAt (level + 1) ++ spreadItems level items)
  | .object [] => ['\x7b', '\x7d']
  | .object ((name, v) :: members) =>
    '\x7b' :: (newline (level + 1) ++ spellText name ++ [':', ' '] ++ v.spreadAt (level + 1)
      ++ spreadMembers level members)

/-- Further items, up to the closing bracket. -/
def spreadItems (level : Nat) : List Json → List Char
  | [] => newline level ++ [']']
  | v :: items =>
    ',' :: (newline (level + 1) ++ v.spreadAt (level + 1) ++ spreadItems level items)

/-- Further members, up to the closing brace. -/
def spreadMembers (level : Nat) : List (Option String × Json) → List Char
  | [] => newline level ++ ['\x7d']
  | (name, v) :: members =>
    ',' :: (newline (level + 1) ++ spellText name ++ [':', ' '] ++ v.spreadAt (level + 1)
      ++ spreadMembers level members)

end

/-- The text of a value over several lines. -/
def spread (v : Json) : String := String.ofList (v.spreadAt 0)

end LedgerPost.Json
