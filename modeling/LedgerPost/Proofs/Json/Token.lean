import LedgerPost.Json.Printer
import LedgerPost.Proofs.Text.Decimal

/-!
# Splitting a spelled text

The tokens of a value are found again in its compact text. A literal ends at its quote, because
quotes inside are escaped; a word or a numeral ends where a mark follows, and in the text of a value
one does.
-/

namespace LedgerPost

namespace Json

open Text

variable {s rest : List Char} {seen : List Nat} {c : Char}

/-! ### String literals -/

lemma hexWord?_control {n : Nat} (hn : n < 0x20) :
    hexWord? '0' '0' (Nat.digitChar (n / 16)) (Nat.digitChar (n % 16)) = some n := by
  decide +revert

/-- The characters that stand for a character are read as its code point. -/
lemma codePoints?_spellChar (c : Char) :
    codePoints? seen (spellChar c ++ rest) = codePoints? (c.toNat :: seen) rest := by
  by_cases hescaped : c ∈ ['"', '\\', '\x08', '\t', '\n', '\x0c', '\r']
  · simp only [List.mem_cons, List.not_mem_nil, or_false] at hescaped
    rcases hescaped with rfl | rfl | rfl | rfl | rfl | rfl | rfl <;> rfl
  simp only [List.mem_cons, List.not_mem_nil, or_false, not_or] at hescaped
  by_cases hcontrol : c.toNat < 0x20
  · have hspell : spellChar c = '\\' :: 'u' :: '0' :: '0' :: Hex.digits (UInt8.ofNat c.toNat) := by
      simp [spellChar, hescaped, hcontrol]
    have hbyte : (UInt8.ofNat c.toNat).toNat = c.toNat := by
      rw [UInt8.toNat_ofNat', Nat.mod_eq_of_lt (by omega)]
    rw [hspell, Hex.digits, hbyte]
    simp only [List.cons_append, List.nil_append]
    rw [codePoints?, hexWord?_control hcontrol]
  · have hspell : spellChar c = [c] := by
      simp [spellChar, hescaped, hcontrol]
    rw [hspell, List.singleton_append, codePoints?]
    · simp [hescaped, hcontrol]
    · exact hescaped.1
    · intro a b d e rest' hc
      exact absurd hc hescaped.2.1
    · intro d rest' hc
      exact absurd hc hescaped.2.1

lemma codePoints?_spelled (cs : List Char) :
    codePoints? seen (cs.flatMap spellChar ++ '"' :: rest) =
      some (seen.reverse ++ cs.map Char.toNat, rest) := by
  induction cs generalizing seen with
  | nil => simp [codePoints?]
  | cons c cs ih =>
    rw [List.flatMap_cons, List.append_assoc, codePoints?_spellChar, ih]
    simp

/-- No character is half of a surrogate pair. -/
lemma not_surrogate (c : Char) :
    isLowSurrogate c.toNat = false ∧ isHighSurrogate c.toNat = false := by
  have hvalid : c.toNat < 0xd800 ∨ 0xdfff < c.toNat ∧ c.toNat < 0x110000 := c.valid
  simp only [isLowSurrogate, isHighSurrogate, Bool.and_eq_false_iff, decide_eq_false_iff_not]
  omega

lemma joinSurrogates?_toNat (chars cs : List Char) :
    joinSurrogates? chars (cs.map Char.toNat) = some (String.ofList (chars.reverse ++ cs)) := by
  induction cs generalizing chars with
  | nil => simp [joinSurrogates?]
  | cons c cs ih =>
    obtain ⟨hlow, hhigh⟩ := not_surrogate c
    rw [List.map_cons, joinSurrogates?.eq_def]
    simp only [hlow, hhigh, Bool.false_eq_true, if_false]
    rw [Char.ofNat_toNat, ih]
    simp

/-- A literal is read as the text it is spelled for, also if no text is. -/
lemma exists_codePoints?_spellText (text : Option String) (rest : List Char) :
    ∃ body ns, spellText text = '"' :: body ∧ codePoints? [] (body ++ rest) = some (ns, rest) ∧
      joinSurrogates? [] ns = text := by
  cases text with
  | none => exact ⟨_, [0xd800], rfl, rfl, rfl⟩
  | some text =>
    refine ⟨text.toList.flatMap spellChar ++ ['"'], text.toList.map Char.toNat, rfl, ?_, ?_⟩
    · rw [List.append_assoc, List.singleton_append, codePoints?_spelled]
      rfl
    · rw [joinSurrogates?_toNat]
      simp

/-! ### Numerals -/

/-- Digits make a numeral. -/
lemma isNumeral_digits (n : Nat) : isNumeral (Decimal.digits n) = true := by
  obtain ⟨c, cs, hdigits⟩ := List.exists_cons_of_ne_nil (Decimal.digits_ne_nil n)
  have hall : ∀ d ∈ Decimal.digits n, Decimal.isDigit d = true :=
    fun d hd => Decimal.isDigit_of_mem_digits hd
  have hzero : (Decimal.digits n).length = 1 ∨ (Decimal.digits n).head? ≠ some '0' := by
    by_cases hlt : n < 10
    · exact Or.inl (Decimal.length_digits_of_lt hlt)
    · exact Or.inr (Decimal.head?_digits_ne (by omega))
  have hwhole : (Decimal.digits n).takeWhile Decimal.isDigit = Decimal.digits n := by
    simpa using takeWhile_append hall Stops.nil
  have hrest : (Decimal.digits n).dropWhile Decimal.isDigit = [] := by
    simpa using dropWhile_append hall Stops.nil
  have hunsigned : isUnsignedNumeral (Decimal.digits n) = true := by
    rw [isUnsignedNumeral, hwhole, hrest]
    simpa [isDigits, isFraction, isExponent, Decimal.digits_ne_nil n] using ⟨hall, hzero⟩
  rw [hdigits] at hall hunsigned ⊢
  have hminus : c ≠ '-' := by
    rintro rfl
    exact absurd (hall '-' List.mem_cons_self) (by decide)
  rw [isNumeral]
  · exact hunsigned
  · intro rest hcons
    exact hminus (List.cons.inj hcons).1

lemma isNumeralChar_of_isDigit (hc : Decimal.isDigit c = true) : isNumeralChar c = true := by
  simp [isNumeralChar, hc]

/-! ### Single tokens -/

/-- A numeral is one that is read, and other tokens are always read. -/
def Token.IsSpelled : Token → Prop
  | .number numeral => isNumeral numeral = true ∧ ∀ c ∈ numeral, isNumeralChar c = true
  | _ => True

/-- Neither a word nor a numeral goes on here. -/
def Ends (rest : List Char) : Prop := Stops isNumeralChar rest ∧ Stops Char.isLower rest

lemma Ends.nil : Ends [] := ⟨.nil, .nil⟩

lemma Ends.cons (hc : isNumeralChar c = false ∧ c.isLower = false) : Ends (c :: rest) :=
  ⟨.cons hc.1, .cons hc.2⟩

variable {before : List Token}

/-- At the end of a text, all tokens have been seen. -/
lemma tokensFrom?_eq_reverse (h : s.dropWhile isSpace = []) :
    tokensFrom? before s = some before.reverse := by
  rw [tokensFrom?]
  split
  case h_1 => rfl
  case h_2 hcons =>
    rw [h] at hcons
    cases hcons

/-- The token that is read first is seen before those that are read from what follows it. -/
lemma tokensFrom?_eq_bind (h : s.dropWhile isSpace = c :: rest) :
    tokensFrom? before s =
      (Token.first? c rest).bind fun (t, more) => tokensFrom? (t :: before) more := by
  rw [tokensFrom?]
  split
  case h_1 hnil =>
    rw [h] at hnil
    cases hnil
  case h_2 hcons =>
    rw [h] at hcons
    cases hcons
    split
    case h_1 hsome => rw [hsome, Option.bind_some]
    case h_2 hnone => rw [hnone, Option.bind_none]

lemma tokensFrom?_nil (before : List Token) : tokensFrom? before [] = some before.reverse :=
  tokensFrom?_eq_reverse rfl

lemma tokensFrom?_cons {t : Token} (hspace : isSpace c = false)
    (hfirst : Token.first? c s = some (t, rest)) :
    tokensFrom? before (c :: s) = tokensFrom? (t :: before) rest := by
  have hdrop : (c :: s).dropWhile isSpace = c :: s := by simp [hspace]
  rw [tokensFrom?_eq_bind hdrop, hfirst, Option.bind_some]

/-- Space in front of a token does not matter. -/
lemma tokensFrom?_space (hspace : isSpace c = true) :
    tokensFrom? before (c :: s) = tokensFrom? before s := by
  have hdrop : (c :: s).dropWhile isSpace = s.dropWhile isSpace := by simp [hspace]
  cases hs : s.dropWhile isSpace with
  | nil => rw [tokensFrom?_eq_reverse (hdrop.trans hs), tokensFrom?_eq_reverse hs]
  | cons d more => rw [tokensFrom?_eq_bind (hdrop.trans hs), tokensFrom?_eq_bind hs]

/-- A mark is read whatever follows it. -/
lemma tokensFrom?_mark {t : Token} (hmark : mark? c = some t) (hspace : isSpace c = false) :
    tokensFrom? before (c :: rest) = tokensFrom? (t :: before) rest := by
  apply tokensFrom?_cons hspace
  rw [Token.first?, hmark]

/-- A literal is read whatever follows it. -/
lemma tokensFrom?_spellText (text : Option String) :
    tokensFrom? before (spellText text ++ rest) = tokensFrom? (.string text :: before) rest := by
  obtain ⟨body, ns, hspell, hread, htext⟩ := exists_codePoints?_spellText text rest
  rw [hspell, List.cons_append]
  apply tokensFrom?_cons (by decide)
  have hmark : mark? '"' = none := by decide
  rw [Token.first?, hmark]
  simp [hread, htext]

/-- What can stand in a numeral is no other start of a token. -/
lemma plain_of_isNumeralChar (hc : isNumeralChar c = true) :
    mark? c = none ∧ c ≠ '"' ∧ isSpace c = false := by
  have hne : ∀ d, isNumeralChar d = false → c ≠ d := by
    rintro d hd rfl
    rw [hc] at hd
    cases hd
  refine ⟨?_, hne _ rfl, ?_⟩
  · simp [mark?, hne '\x7b' rfl, hne '\x7d' rfl, hne '[' rfl, hne ']' rfl, hne ':' rfl, hne ',' rfl]
  · simp [isSpace, hne ' ' rfl, hne '\t' rfl, hne '\n' rfl, hne '\r' rfl]

lemma tokensFrom?_numeral {numeral : List Char} (hnumeral : isNumeral numeral = true)
    (hchars : ∀ c ∈ numeral, isNumeralChar c = true) (hends : Ends rest) :
    tokensFrom? before (numeral ++ rest) = tokensFrom? (.number numeral :: before) rest := by
  cases numeral with
  | nil => cases hnumeral
  | cons c cs =>
    rw [List.forall_mem_cons] at hchars
    obtain ⟨hmark, hquote, hspace⟩ := plain_of_isNumeralChar hchars.1
    rw [List.cons_append]
    apply tokensFrom?_cons hspace
    rw [Token.first?, hmark, takeWhile_append hchars.2 hends.1, dropWhile_append hchars.2 hends.1]
    simp [hquote, hchars.1, hnumeral]

lemma tokensFrom?_word {w : List Char} {t : Token} (hword : word? (c :: w) = some t)
    (hplain : mark? c = none ∧ c ≠ '"' ∧ isNumeralChar c = false ∧ isSpace c = false)
    (hlower : w.all Char.isLower = true) (hends : Ends rest) :
    tokensFrom? before (c :: w ++ rest) = tokensFrom? (t :: before) rest := by
  obtain ⟨hmark, hquote, hnumeral, hspace⟩ := hplain
  have hchars := List.all_eq_true.mp hlower
  rw [List.cons_append]
  apply tokensFrom?_cons hspace
  rw [Token.first?, hmark, takeWhile_append hchars hends.2, dropWhile_append hchars hends.2, hword]
  simp [hquote, hnumeral]

/-! ### Values -/

/-- The text behind an item or a member starts with a mark. -/
lemma ends_items (items : List Json) :
    Ends ((tokensOfItems items).flatMap Token.spell ++ rest) := by
  cases items with
  | nil => exact .cons (by decide)
  | cons v items => exact .cons (by decide)

lemma ends_members (members : List (Option String × Json)) :
    Ends ((tokensOfMembers members).flatMap Token.spell ++ rest) := by
  cases members with
  | nil => exact .cons (by decide)
  | cons m members => exact .cons (by decide)

mutual

/-- The tokens of a value are read from its text, if no word or numeral goes on behind it. -/
theorem tokensFrom?_tokens (v : Json) {before : List Token} {rest : List Char}
    (hspelled : ∀ t ∈ v.tokens, t.IsSpelled) (hends : Ends rest) :
    tokensFrom? before (v.tokens.flatMap Token.spell ++ rest) =
      tokensFrom? (v.tokens.reverse ++ before) rest := by
  match v with
  | .null => exact tokensFrom?_word rfl (by decide) rfl hends
  | .bool true => exact tokensFrom?_word rfl (by decide) rfl hends
  | .bool false => exact tokensFrom?_word rfl (by decide) rfl hends
  | .number numeral =>
    obtain ⟨hnumeral, hchars⟩ := hspelled (.number numeral) (by simp [tokens])
    simpa [tokens, Token.spell] using tokensFrom?_numeral hnumeral hchars hends
  | .string text =>
    simpa [tokens, Token.spell] using tokensFrom?_spellText text
  | .array [] =>
    change tokensFrom? before ('[' :: ']' :: rest) = _
    rw [tokensFrom?_mark (t := .openBracket) rfl rfl, tokensFrom?_mark (t := .closeBracket) rfl rfl]
    rfl
  | .array (item :: items) =>
    simp only [tokens, List.forall_mem_cons, List.forall_mem_append] at hspelled
    obtain ⟨-, hitem, hitems⟩ := hspelled
    simp only [tokens, List.flatMap_cons, List.flatMap_append, Token.spell, List.append_assoc,
      List.cons_append, List.nil_append]
    rw [tokensFrom?_mark (t := .openBracket) rfl rfl,
      tokensFrom?_tokens item hitem (ends_items items), tokensFrom?_tokensOfItems items hitems]
    simp
  | .object [] =>
    change tokensFrom? before ('\x7b' :: '\x7d' :: rest) = _
    rw [tokensFrom?_mark (t := .openBrace) rfl rfl, tokensFrom?_mark (t := .closeBrace) rfl rfl]
    rfl
  | .object ((name, v) :: members) =>
    simp only [tokens, List.forall_mem_cons, List.forall_mem_append] at hspelled
    obtain ⟨-, -, -, hv, hmembers⟩ := hspelled
    simp only [tokens, List.flatMap_cons, List.flatMap_append, Token.spell, List.append_assoc,
      List.cons_append, List.nil_append]
    rw [tokensFrom?_mark (t := .openBrace) rfl rfl, tokensFrom?_spellText,
      tokensFrom?_mark (t := .colon) rfl rfl, tokensFrom?_tokens v hv (ends_members members),
      tokensFrom?_tokensOfMembers members hmembers]
    simp

/-- Further items are read whatever follows their bracket. -/
theorem tokensFrom?_tokensOfItems (items : List Json) {before : List Token} {rest : List Char}
    (hspelled : ∀ t ∈ tokensOfItems items, t.IsSpelled) :
    tokensFrom? before ((tokensOfItems items).flatMap Token.spell ++ rest) =
      tokensFrom? ((tokensOfItems items).reverse ++ before) rest := by
  match items with
  | [] => exact tokensFrom?_mark rfl rfl
  | item :: items =>
    simp only [tokensOfItems, List.forall_mem_cons, List.forall_mem_append] at hspelled
    obtain ⟨-, hitem, hitems⟩ := hspelled
    simp only [tokensOfItems, List.flatMap_cons, List.flatMap_append, Token.spell,
      List.append_assoc, List.cons_append, List.nil_append]
    rw [tokensFrom?_mark (t := .comma) rfl rfl, tokensFrom?_tokens item hitem (ends_items items),
      tokensFrom?_tokensOfItems items hitems]
    simp

/-- Further members are read whatever follows their brace. -/
theorem tokensFrom?_tokensOfMembers (members : List (Option String × Json)) {before : List Token}
    {rest : List Char} (hspelled : ∀ t ∈ tokensOfMembers members, t.IsSpelled) :
    tokensFrom? before ((tokensOfMembers members).flatMap Token.spell ++ rest) =
      tokensFrom? ((tokensOfMembers members).reverse ++ before) rest := by
  match members with
  | [] => exact tokensFrom?_mark rfl rfl
  | (name, v) :: members =>
    simp only [tokensOfMembers, List.forall_mem_cons, List.forall_mem_append] at hspelled
    obtain ⟨-, -, -, hv, hmembers⟩ := hspelled
    simp only [tokensOfMembers, List.flatMap_cons, List.flatMap_append, Token.spell,
      List.append_assoc, List.cons_append, List.nil_append]
    rw [tokensFrom?_mark (t := .comma) rfl rfl, tokensFrom?_spellText,
      tokensFrom?_mark (t := .colon) rfl rfl, tokensFrom?_tokens v hv (ends_members members),
      tokensFrom?_tokensOfMembers members hmembers]
    simp

end

/-- Every numeral in a value is one that is read. -/
def IsSpelled (v : Json) : Prop := ∀ t ∈ v.tokens, t.IsSpelled

/-- The tokens of a value are found again in its compact text. -/
theorem tokens?_compact {v : Json} (hspelled : v.IsSpelled) :
    tokens? v.compact = some v.tokens := by
  have hread : tokensFrom? [] (v.tokens.flatMap Token.spell ++ []) = _ :=
    tokensFrom?_tokens v hspelled Ends.nil
  rw [List.append_nil, List.append_nil, tokensFrom?_nil, List.reverse_reverse] at hread
  rw [tokens?, compact, String.toList_ofList]
  exact hread

/-! ### Written values -/

@[simp] lemma isSpelled_ofText (s : String) : (ofText s).IsSpelled := by
  simp [IsSpelled, ofText, tokens, Token.IsSpelled]

@[simp] lemma isSpelled_bool (b : Bool) : (Json.bool b).IsSpelled := by
  simp [IsSpelled, tokens, Token.IsSpelled]

@[simp] lemma isSpelled_ofNat (n : Nat) : (ofNat n).IsSpelled := by
  have hchars : ∀ c ∈ Decimal.digits n, isNumeralChar c = true :=
    fun c hc => isNumeralChar_of_isDigit (Decimal.isDigit_of_mem_digits hc)
  simpa [IsSpelled, ofNat, tokens, Token.IsSpelled, isNumeral_digits] using hchars

lemma forall_mem_tokensOfItems (items : List Json) :
    (∀ t ∈ tokensOfItems items, t.IsSpelled) ↔ ∀ v ∈ items, v.IsSpelled := by
  induction items with
  | nil => simp [tokensOfItems, Token.IsSpelled]
  | cons v items ih =>
    simp only [tokensOfItems, List.forall_mem_cons, List.forall_mem_append, ih]
    simp [Token.IsSpelled, IsSpelled]

lemma isSpelled_array (items : List Json) :
    (Json.array items).IsSpelled ↔ ∀ v ∈ items, v.IsSpelled := by
  rw [IsSpelled]
  cases items with
  | nil => simp [tokens, Token.IsSpelled]
  | cons v items =>
    rw [tokens]
    simp only [List.forall_mem_cons, List.forall_mem_append, forall_mem_tokensOfItems]
    simp [Token.IsSpelled, IsSpelled]

lemma forall_mem_tokensOfMembers (fields : Fields) :
    (∀ t ∈ tokensOfMembers (fields.map fun field => (some field.1, field.2)), t.IsSpelled) ↔
      ∀ field ∈ fields, field.2.IsSpelled := by
  induction fields with
  | nil => simp [tokensOfMembers, Token.IsSpelled]
  | cons field fields ih =>
    simp only [List.map_cons, tokensOfMembers, List.forall_mem_cons, List.forall_mem_append, ih]
    simp [Token.IsSpelled, IsSpelled]

@[simp] lemma isSpelled_ofFields (fields : Fields) :
    (ofFields fields).IsSpelled ↔ ∀ field ∈ fields, field.2.IsSpelled := by
  have hfields : ofFields fields = .object (fields.map fun field => (some field.1, field.2)) := rfl
  rw [IsSpelled, hfields]
  cases fields with
  | nil => simp [tokens, Token.IsSpelled]
  | cons field fields =>
    rw [List.map_cons, tokens]
    simp only [List.forall_mem_cons, List.forall_mem_append, forall_mem_tokensOfMembers]
    simp [Token.IsSpelled, IsSpelled]

end Json

end LedgerPost
