import LedgerPost.Bytes.Basic
import Mathlib.Data.List.Basic
import Mathlib.Tactic.Common

/-!
# Texts as bytes

The bytes of a text are those of its characters, one after the other. A character below 128 is one
byte, and no other character has a byte below 128, so an ASCII character can be searched for among
the bytes of a text.
-/

namespace LedgerPost

namespace Bytes

/-! ### Bytes of characters -/

lemma ofText_eq_flatMap (s : String) : ofText s = s.toList.flatMap String.utf8EncodeChar := by
  have h : s.toByteArray = s.toList.utf8Encode := by rw [String.utf8Encode_toList]
  rw [ofText, String.toUTF8_eq_toByteArray, h, List.utf8Encode]
  simp

lemma ofText_inj {s t : String} (h : ofText s = ofText t) : s = t := by
  have htext : text? (ofText s) = text? (ofText t) := by rw [h]
  rw [text?_ofText, text?_ofText] at htext
  exact Option.some.inj htext

lemma ofText_eq_nil {s : String} : ofText s = [] ↔ s.toList = [] := by
  rw [ofText_eq_flatMap, List.flatMap_eq_nil_iff]
  constructor
  · intro h
    rw [List.eq_nil_iff_forall_not_mem]
    intro c hc
    exact String.utf8EncodeChar_ne_nil (h c hc)
  · intro h c hc
    rw [h] at hc
    cases hc

lemma utf8EncodeChar_inj {c d : Char} (h : String.utf8EncodeChar c = String.utf8EncodeChar d) :
    c = d := by
  have htext : ofText (String.ofList [c]) = ofText (String.ofList [d]) := by
    simp [ofText_eq_flatMap, h]
  exact List.singleton_inj.mp (String.ofList_injective (ofText_inj htext))

/-- The text of some bytes is the text with these bytes. -/
lemma text?_eq_some {bs : Bytes} {s : String} : text? bs = some s ↔ bs = ofText s := by
  constructor
  · intro h
    rw [text?, String.fromUTF8?] at h
    split at h
    case isTrue hvalid =>
      obtain rfl := Option.some.inj h
      simp [ofText, String.fromUTF8]
    case isFalse => cases h
  · rintro rfl
    exact text?_ofText s

/-! ### ASCII characters -/

/-- A byte of a character is below 128 only if it is all of the character. -/
lemma eq_of_mem_utf8EncodeChar {b : UInt8} {c : Char} (hmem : b ∈ String.utf8EncodeChar c)
    (hlt : b.toNat < 128) : String.utf8EncodeChar c = [b] ∧ b = c.val.toUInt8 := by
  -- Every byte of a longer character has its top bit set.
  have hhigh : ∀ x y : UInt8, 128 ≤ y.toNat → b ≠ x ||| y := by
    intro x y hy hb
    have hle : y.toNat ≤ (x ||| y).toNat := by
      rw [UInt8.toNat_or]
      exact Nat.right_le_or
    rw [← hb] at hle
    omega
  obtain h | h | h | h := c.utf8Size_eq
  · rw [String.utf8EncodeChar_eq_singleton h] at hmem ⊢
    obtain rfl := List.mem_singleton.mp hmem
    exact ⟨rfl, rfl⟩
  · rw [String.utf8EncodeChar_eq_cons_cons h] at hmem
    simp only [List.mem_cons, List.not_mem_nil, or_false] at hmem
    obtain hb | hb := hmem
    all_goals exact absurd hb (hhigh _ _ (by decide))
  · rw [String.utf8EncodeChar_eq_cons_cons_cons h] at hmem
    simp only [List.mem_cons, List.not_mem_nil, or_false] at hmem
    obtain hb | hb | hb := hmem
    all_goals exact absurd hb (hhigh _ _ (by decide))
  · rw [String.utf8EncodeChar_eq_cons_cons_cons_cons h] at hmem
    simp only [List.mem_cons, List.not_mem_nil, or_false] at hmem
    obtain hb | hb | hb | hb := hmem
    all_goals exact absurd hb (hhigh _ _ (by decide))

/-- A character below 128 is one byte. -/
lemma utf8EncodeChar_of_lt {c : Char} (h : c.toNat < 128) :
    String.utf8EncodeChar c = [UInt8.ofNat c.toNat] := by
  have hsize : c.utf8Size = 1 := by
    rw [Char.utf8Size_eq_one_iff, UInt32.le_iff_toNat_le]
    exact Nat.le_of_lt_succ h
  rw [String.utf8EncodeChar_eq_singleton hsize]
  congr 1

/-- The bytes of a text of ASCII characters are the numbers of these. -/
lemma ofText_ofList_of_lt {cs : List Char} (h : ∀ c ∈ cs, c.toNat < 128) :
    ofText (String.ofList cs) = cs.map fun c => UInt8.ofNat c.toNat := by
  rw [ofText_eq_flatMap, String.toList_ofList]
  induction cs with
  | nil => rfl
  | cons c cs ih =>
    rw [List.forall_mem_cons] at h
    rw [List.flatMap_cons, utf8EncodeChar_of_lt h.1, ih h.2]
    rfl

/-- An ASCII character stands in a text exactly if its byte stands among those of the text. -/
lemma mem_ofText {c : Char} (hc : c.toNat < 128) {s : String} :
    UInt8.ofNat c.toNat ∈ ofText s ↔ c ∈ s.toList := by
  have hbyte : (UInt8.ofNat c.toNat).toNat = c.toNat :=
    UInt8.toNat_ofNat_of_lt (Nat.lt_of_lt_of_le hc (by decide))
  rw [ofText_eq_flatMap, List.mem_flatMap]
  constructor
  · rintro ⟨d, hd, hmem⟩
    obtain ⟨hall, heq⟩ := eq_of_mem_utf8EncodeChar hmem (by omega)
    have hcd : String.utf8EncodeChar c = String.utf8EncodeChar d := by
      rw [hall, utf8EncodeChar_of_lt hc]
    rw [utf8EncodeChar_inj hcd]
    exact hd
  · intro h
    refine ⟨c, h, ?_⟩
    rw [utf8EncodeChar_of_lt hc]
    exact List.mem_singleton_self _

end Bytes

end LedgerPost
