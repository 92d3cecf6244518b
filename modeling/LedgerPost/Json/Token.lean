import LedgerPost.Json.Basic

/-!
# JSON tokens

The marks, words, numerals and string literals of a JSON text: how each is spelled, and how a text
is split into them.
-/

namespace LedgerPost.Json

/-- A lexical element of a JSON text. -/
inductive Token
  | openBrace
  | closeBrace
  | openBracket
  | closeBracket
  | colon
  | comma
  | null
  | bool (b : Bool)
  | number (numeral : List Char)
  | string (text : Option String)
  deriving DecidableEq

/-! ### String literals -/

/-- The characters that stand for one character inside a string literal. -/
def spellChar (c : Char) : List Char :=
  if c = '"' then ['\\', '"']
  else if c = '\\' then ['\\', '\\']
  else if c = '\x08' then ['\\', 'b']
  else if c = '\t' then ['\\', 't']
  else if c = '\n' then ['\\', 'n']
  else if c = '\x0c' then ['\\', 'f']
  else if c = '\r' then ['\\', 'r']
  else if c.toNat < 0x20 then ['\\', 'u', '0', '0'] ++ Hex.digits (UInt8.ofNat c.toNat)
  else [c]

/-- The literal of a text. Where no text stands, one half of a surrogate pair does. -/
def spellText : Option String → List Char
  | some s => '"' :: s.toList.flatMap spellChar ++ ['"']
  | none => "\"\\ud800\"".toList

/-- The number spelled by four hexadecimal digits. -/
def hexWord? (a b c d : Char) : Option Nat := do
  let value (x : Char) : Option Nat := if x.toNat < 128 then Hex.digitValue? x.toUInt8 else none
  return ((← value a) * 16 + (← value b)) * 256 + ((← value c) * 16 + (← value d))

/-- The code point of an escape with a single letter or mark. -/
def escaped? (c : Char) : Option Nat :=
  if c = '"' then some 0x22
  else if c = '\\' then some 0x5c
  else if c = '/' then some 0x2f
  else if c = 'b' then some 0x08
  else if c = 'f' then some 0x0c
  else if c = 'n' then some 0x0a
  else if c = 'r' then some 0x0d
  else if c = 't' then some 0x09
  else none

/--
The code points spelled up to the closing quote, and what follows it. An escape may name half of a
surrogate pair.
-/
def codePoints? (seen : List Nat) : List Char → Option (List Nat × List Char)
  | [] => none
  | '"' :: rest => some (seen.reverse, rest)
  | '\\' :: 'u' :: a :: b :: c :: d :: rest =>
    match hexWord? a b c d with
    | some n => codePoints? (n :: seen) rest
    | none => none
  | '\\' :: c :: rest =>
    match escaped? c with
    | some n => codePoints? (n :: seen) rest
    | none => none
  | c :: rest => if c.toNat < 0x20 ∨ c = '\\' then none else codePoints? (c.toNat :: seen) rest

/-- Whether a code point is the first half of a surrogate pair. -/
def isHighSurrogate (n : Nat) : Bool := 0xd800 ≤ n && n < 0xdc00

/-- Whether a code point is the second half of a surrogate pair. -/
def isLowSurrogate (n : Nat) : Bool := 0xdc00 ≤ n && n < 0xe000

/-- The text of a list of code points, where the halves of surrogate pairs are joined. -/
def joinSurrogates? (seen : List Char) : List Nat → Option String
  | [] => some (String.ofList seen.reverse)
  | n :: rest =>
    if isLowSurrogate n then none
    else if isHighSurrogate n then
      match rest with
      | [] => none
      | m :: rest =>
        if isLowSurrogate m then
          joinSurrogates? (Char.ofNat (0x10000 + (n - 0xd800) * 0x400 + (m - 0xdc00)) :: seen) rest
        else none
    else joinSurrogates? (Char.ofNat n :: seen) rest

/-! ### Numerals -/

/-- Whether a character can stand in a numeral. -/
def isNumeralChar (c : Char) : Bool :=
  Decimal.isDigit c || c == '-' || c == '+' || c == '.' || c == 'e' || c == 'E'

/-- Whether the characters are a non-empty list of digits. -/
def isDigits (s : List Char) : Bool := !s.isEmpty && s.all Decimal.isDigit

/-- Whether the characters are an exponent or nothing. -/
def isExponent : List Char → Bool
  | [] => true
  | c :: s =>
    (c == 'e' || c == 'E') &&
      match s with
      | '+' :: ds => isDigits ds
      | '-' :: ds => isDigits ds
      | ds => isDigits ds

/-- Whether the characters are a fraction, an exponent, both in this order, or nothing. -/
def isFraction : List Char → Bool
  | '.' :: s => isDigits (s.takeWhile Decimal.isDigit) && isExponent (s.dropWhile Decimal.isDigit)
  | s => isExponent s

/-- Whether the characters are a numeral without sign. -/
def isUnsignedNumeral (s : List Char) : Bool :=
  let whole := s.takeWhile Decimal.isDigit
  isDigits whole && (whole.length == 1 || whole.head? != some '0')
    && isFraction (s.dropWhile Decimal.isDigit)

/-- Whether the characters are a numeral. -/
def isNumeral : List Char → Bool
  | '-' :: s => isUnsignedNumeral s
  | s => isUnsignedNumeral s

/-! ### Spelling -/

/-- The characters of a token. -/
def Token.spell : Token → List Char
  | .openBrace => ['\x7b']
  | .closeBrace => ['\x7d']
  | .openBracket => ['[']
  | .closeBracket => [']']
  | .colon => [':']
  | .comma => [',']
  | .null => ['n', 'u', 'l', 'l']
  | .bool true => ['t', 'r', 'u', 'e']
  | .bool false => ['f', 'a', 'l', 's', 'e']
  | .number numeral => numeral
  | .string t => spellText t

/-! ### Splitting a text -/

/-- Whether a character may stand between tokens. -/
def isSpace (c : Char) : Bool := c == ' ' || c == '\t' || c == '\n' || c == '\r'

/-- The token of one character. -/
def mark? (c : Char) : Option Token :=
  if c = '\x7b' then some .openBrace
  else if c = '\x7d' then some .closeBrace
  else if c = '[' then some .openBracket
  else if c = ']' then some .closeBracket
  else if c = ':' then some .colon
  else if c = ',' then some .comma
  else none

/-- The token of a word. -/
def word? (w : List Char) : Option Token :=
  if w = ['n', 'u', 'l', 'l'] then some .null
  else if w = ['t', 'r', 'u', 'e'] then some (.bool true)
  else if w = ['f', 'a', 'l', 's', 'e'] then some (.bool false)
  else none

/-- The token that starts with a character, and what follows the token. -/
def Token.first? (c : Char) (s : List Char) : Option (Token × List Char) :=
  match mark? c with
  | some t => some (t, s)
  | none =>
    if c = '"' then
      match codePoints? [] s with
      | some (ns, rest) => some (.string (joinSurrogates? [] ns), rest)
      | none => none
    else if isNumeralChar c then
      let numeral := c :: s.takeWhile isNumeralChar
      if isNumeral numeral then some (.number numeral, s.dropWhile isNumeralChar) else none
    else
      match word? (c :: s.takeWhile Char.isLower) with
      | some t => some (t, s.dropWhile Char.isLower)
      | none => none

theorem length_dropWhile_le {α : Type} (p : α → Bool) (s : List α) :
    (s.dropWhile p).length ≤ s.length :=
  (List.dropWhile_suffix p).sublist.length_le

theorem length_codePoints?_lt {seen ns : List Nat} {s rest : List Char}
    (h : codePoints? seen s = some (ns, rest)) : rest.length < s.length := by
  fun_induction codePoints? seen s with
  | case1 => simp at h
  | case2 => simp_all
  | case3 _ _ _ _ _ _ _ _ ih => have := ih h; simp; omega
  | case4 => simp at h
  | case5 _ _ _ _ _ _ ih => have := ih h; simp; omega
  | case6 => simp at h
  | case7 => simp at h
  | case8 _ _ _ _ _ _ _ ih => have := ih h; simp; omega

theorem Token.length_first?_le {c : Char} {s rest : List Char} {t : Token}
    (h : Token.first? c s = some (t, rest)) : rest.length ≤ s.length := by
  unfold Token.first? at h
  split at h
  · simp_all
  split at h
  · split at h
    · rename_i hs
      have := length_codePoints?_lt hs
      simp_all
      omega
    · simp at h
  split at h
  · simp only at h
    split at h
    · have := length_dropWhile_le isNumeralChar s
      simp_all
    · simp at h
  · split at h
    · have := length_dropWhile_le Char.isLower s
      simp_all
    · simp at h

/-- Splits a text into tokens, after those already seen. -/
def tokensFrom? (seen : List Token) (s : List Char) : Option (List Token) :=
  match _ : s.dropWhile isSpace with
  | [] => some seen.reverse
  | c :: rest =>
    match _ : Token.first? c rest with
    | some (t, more) => tokensFrom? (t :: seen) more
    | none => none
termination_by s.length
decreasing_by
  rename_i hs ht
  have h₁ := length_dropWhile_le isSpace s
  have h₂ := Token.length_first?_le ht
  rw [hs, List.length_cons] at h₁
  omega

/-- The tokens of a text, if it consists of tokens and space alone. -/
def tokens? (s : String) : Option (List Token) := tokensFrom? [] s.toList

end LedgerPost.Json
