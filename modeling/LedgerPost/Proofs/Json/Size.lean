import LedgerPost.Json.Printer
import LedgerPost.Proofs.Bytes.Text
import LedgerPost.Proofs.Text.Decimal

/-!
# Sizes of documents

The bytes of a compact text are those of its tokens, one after the other. So the size of a record
depends on the names of its fields and on the sizes of its values. The literal of a plain text has a
byte for each character, and two for its quotes.
-/

namespace LedgerPost

namespace Json

/-- The bytes of a token. -/
def Token.bytes (t : Token) : Bytes := t.spell.flatMap String.utf8EncodeChar

/-- The number of bytes of the compact text of a value. -/
def size (v : Json) : Nat := (Bytes.ofText v.compact).length

lemma ofText_compact (v : Json) : Bytes.ofText v.compact = v.tokens.flatMap Token.bytes := by
  rw [Bytes.ofText_eq_flatMap, compact, String.toList_ofList, List.flatMap_assoc]
  rfl

lemma size_eq (v : Json) : v.size = (v.tokens.flatMap Token.bytes).length := by
  rw [size, ofText_compact]

/-! ### Records -/

/-- Fields with the same names, and with values of the same sizes. -/
abbrev SameSizes : Fields → Fields → Prop :=
  List.Forall₂ fun field field' => field.1 = field'.1 ∧ field.2.size = field'.2.size

lemma length_tokensOfMembers_congr {fields fields' : Fields} (h : SameSizes fields fields') :
    ((tokensOfMembers (fields.map fun field => (some field.1, field.2))).flatMap
        Token.bytes).length =
      ((tokensOfMembers (fields'.map fun field => (some field.1, field.2))).flatMap
        Token.bytes).length := by
  induction h with
  | nil => rfl
  | cons hfield _ ih =>
    obtain ⟨hname, hsize⟩ := hfield
    rw [size_eq, size_eq] at hsize
    simp only [List.map_cons, tokensOfMembers, List.flatMap_cons, List.flatMap_append,
      List.length_append, hname, hsize, ih]

/-- Records whose values have the same sizes have the same size. -/
theorem size_ofFields_congr {fields fields' : Fields} (h : SameSizes fields fields') :
    (ofFields fields).size = (ofFields fields').size := by
  rw [size_eq, size_eq]
  cases h with
  | nil => rfl
  | cons hfield hfields =>
    obtain ⟨hname, hsize⟩ := hfield
    rw [size_eq, size_eq] at hsize
    have hrest := length_tokensOfMembers_congr hfields
    simp only [ofFields, List.map_cons, tokens, List.flatMap_cons, List.flatMap_append,
      List.length_append, hname, hsize, hrest]

/-! ### Plain texts -/

/-- A character that stands for itself in a literal, and is one byte. -/
def IsPlain (c : Char) : Prop := spellChar c = [c] ∧ c.toNat < 128

instance : DecidablePred IsPlain := fun c =>
  inferInstanceAs (Decidable (spellChar c = [c] ∧ c.toNat < 128))

lemma isPlain_of_isDigit {c : Char} (hc : Decimal.isDigit c = true) : IsPlain c := by
  have hrange : 48 ≤ c.toNat ∧ c.toNat ≤ 57 := by
    simpa [Decimal.isDigit, Char.le_def, UInt32.le_iff_toNat_le] using hc
  have hdigit : ∀ n < 58, 48 ≤ n → IsPlain (Char.ofNat n) := by decide
  have hplain := hdigit c.toNat (Nat.lt_succ_of_le hrange.2) hrange.1
  rwa [Char.ofNat_toNat] at hplain

lemma length_spelled {cs : List Char} (h : ∀ c ∈ cs, IsPlain c) :
    ((cs.flatMap spellChar).flatMap String.utf8EncodeChar).length = cs.length := by
  induction cs with
  | nil => rfl
  | cons c cs ih =>
    rw [List.forall_mem_cons] at h
    rw [List.flatMap_cons, h.1.1, List.flatMap_append, List.length_append, ih h.2,
      List.flatMap_singleton, Bytes.utf8EncodeChar_of_lt h.1.2, List.length_singleton,
      List.length_cons, Nat.add_comm]

/-- The literal of a plain text. -/
theorem size_ofText {s : String} (h : ∀ c ∈ s.toList, IsPlain c) :
    (ofText s).size = s.toList.length + 2 := by
  have hquote : (String.utf8EncodeChar '"').length = 1 := by
    rw [Bytes.utf8EncodeChar_of_lt (by decide), List.length_singleton]
  have hspell : spellText (some s) = '"' :: s.toList.flatMap spellChar ++ ['"'] := rfl
  rw [size_eq, ofText, tokens, List.flatMap_singleton, Token.bytes, Token.spell, hspell,
    List.flatMap_append, List.flatMap_cons, List.length_append, List.length_append,
    length_spelled h, List.flatMap_singleton, hquote]
  omega

end Json

end LedgerPost
