import LedgerPost.Proofs.Json.Parser

/-!
# Reading a spread text

The spread text of a value has the tokens of the compact one, with space between them. So it is
read as the same value. The induction is that of the compact text, at every level of indentation.
-/

namespace LedgerPost

namespace Json

variable {rest : List Char} {before : List Token}

/-! ### Ends of lines -/

lemma tokensFrom?_newline (level : Nat) :
    tokensFrom? before (newline level ++ rest) = tokensFrom? before rest := by
  rw [newline, List.cons_append, tokensFrom?_space (by decide)]
  induction 2 * level with
  | zero => rfl
  | succ n ih =>
    rw [List.replicate_succ, List.cons_append, tokensFrom?_space (by decide), ih]

/-! ### Values -/

/-- The text behind an item or a member starts with a mark or with the end of its line. -/
lemma ends_spreadItems (level : Nat) (items : List Json) :
    Ends (spreadItems level items ++ rest) := by
  cases items with
  | nil => exact .cons (by decide)
  | cons v items => exact .cons (by decide)

lemma ends_spreadMembers (level : Nat) (members : List (Option String × Json)) :
    Ends (spreadMembers level members ++ rest) := by
  cases members with
  | nil => exact .cons (by decide)
  | cons m members => exact .cons (by decide)

mutual

/-- The tokens of a value are read from its spread text, if no word or numeral goes on behind it. -/
theorem tokensFrom?_spreadAt (v : Json) {level : Nat} {before : List Token} {rest : List Char}
    (hspelled : ∀ t ∈ v.tokens, t.IsSpelled) (hends : Ends rest) :
    tokensFrom? before (v.spreadAt level ++ rest) =
      tokensFrom? (v.tokens.reverse ++ before) rest := by
  match v with
  | .null => exact tokensFrom?_word rfl (by decide) rfl hends
  | .bool true => exact tokensFrom?_word rfl (by decide) rfl hends
  | .bool false => exact tokensFrom?_word rfl (by decide) rfl hends
  | .number numeral =>
    obtain ⟨hnumeral, hchars⟩ := hspelled (.number numeral) (by simp [tokens])
    simpa [tokens, spreadAt] using tokensFrom?_numeral hnumeral hchars hends
  | .string text =>
    simpa [tokens, spreadAt] using tokensFrom?_spellText text
  | .array [] =>
    change tokensFrom? before ('[' :: ']' :: rest) = _
    rw [tokensFrom?_mark (t := .openBracket) rfl rfl, tokensFrom?_mark (t := .closeBracket) rfl rfl]
    rfl
  | .array (item :: items) =>
    simp only [tokens, List.forall_mem_cons, List.forall_mem_append] at hspelled
    obtain ⟨-, hitem, hitems⟩ := hspelled
    rw [spreadAt, List.cons_append, List.append_assoc, List.append_assoc,
      tokensFrom?_mark (t := .openBracket) rfl rfl, tokensFrom?_newline,
      tokensFrom?_spreadAt item hitem (ends_spreadItems level items),
      tokensFrom?_spreadItems items hitems]
    simp [tokens]
  | .object [] =>
    change tokensFrom? before ('\x7b' :: '\x7d' :: rest) = _
    rw [tokensFrom?_mark (t := .openBrace) rfl rfl, tokensFrom?_mark (t := .closeBrace) rfl rfl]
    rfl
  | .object ((name, v) :: members) =>
    simp only [tokens, List.forall_mem_cons, List.forall_mem_append] at hspelled
    obtain ⟨-, -, -, hv, hmembers⟩ := hspelled
    simp only [spreadAt, List.cons_append, List.append_assoc, List.nil_append]
    rw [tokensFrom?_mark (t := .openBrace) rfl rfl, tokensFrom?_newline, tokensFrom?_spellText,
      tokensFrom?_mark (t := .colon) rfl rfl, tokensFrom?_space (by decide),
      tokensFrom?_spreadAt v hv (ends_spreadMembers level members),
      tokensFrom?_spreadMembers members hmembers]
    simp [tokens]

/-- Further items are read whatever follows their bracket. -/
theorem tokensFrom?_spreadItems (items : List Json) {level : Nat} {before : List Token}
    {rest : List Char} (hspelled : ∀ t ∈ tokensOfItems items, t.IsSpelled) :
    tokensFrom? before (spreadItems level items ++ rest) =
      tokensFrom? ((tokensOfItems items).reverse ++ before) rest := by
  match items with
  | [] =>
    rw [spreadItems, List.append_assoc, tokensFrom?_newline]
    exact tokensFrom?_mark rfl rfl
  | item :: items =>
    simp only [tokensOfItems, List.forall_mem_cons, List.forall_mem_append] at hspelled
    obtain ⟨-, hitem, hitems⟩ := hspelled
    rw [spreadItems, List.cons_append, List.append_assoc, List.append_assoc,
      tokensFrom?_mark (t := .comma) rfl rfl, tokensFrom?_newline,
      tokensFrom?_spreadAt item hitem (ends_spreadItems level items),
      tokensFrom?_spreadItems items hitems]
    simp [tokensOfItems]

/-- Further members are read whatever follows their brace. -/
theorem tokensFrom?_spreadMembers (members : List (Option String × Json)) {level : Nat}
    {before : List Token} {rest : List Char}
    (hspelled : ∀ t ∈ tokensOfMembers members, t.IsSpelled) :
    tokensFrom? before (spreadMembers level members ++ rest) =
      tokensFrom? ((tokensOfMembers members).reverse ++ before) rest := by
  match members with
  | [] =>
    rw [spreadMembers, List.append_assoc, tokensFrom?_newline]
    exact tokensFrom?_mark rfl rfl
  | (name, v) :: members =>
    simp only [tokensOfMembers, List.forall_mem_cons, List.forall_mem_append] at hspelled
    obtain ⟨-, -, -, hv, hmembers⟩ := hspelled
    simp only [spreadMembers, List.cons_append, List.append_assoc, List.nil_append]
    rw [tokensFrom?_mark (t := .comma) rfl rfl, tokensFrom?_newline, tokensFrom?_spellText,
      tokensFrom?_mark (t := .colon) rfl rfl, tokensFrom?_space (by decide),
      tokensFrom?_spreadAt v hv (ends_spreadMembers level members),
      tokensFrom?_spreadMembers members hmembers]
    simp [tokensOfMembers]

end

/-! ### Texts -/

/-- The spread text of a value is read as the value, also with an end of line behind it. -/
theorem parse?_spread_line {v : Json} (hspelled : v.IsSpelled) :
    parse? (v.spread ++ "\n") = some v := by
  have hends : Ends ['\n'] := .cons (by decide)
  have htokens : tokens? (v.spread ++ "\n") = some v.tokens := by
    have hread : tokensFrom? [] (v.spreadAt 0 ++ ['\n']) = _ :=
      tokensFrom?_spreadAt v hspelled hends
    rw [tokensFrom?_space (by decide), tokensFrom?_nil, List.append_nil, List.reverse_reverse]
      at hread
    rw [tokens?, spread, String.toList_append, String.toList_ofList]
    exact hread
  have hcompact := parse?_compact hspelled
  rw [parse?, tokens?_compact hspelled] at hcompact
  rw [parse?, htokens, hcompact]

end Json

end LedgerPost
