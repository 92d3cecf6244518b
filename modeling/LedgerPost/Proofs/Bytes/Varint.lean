import LedgerPost.Proofs.Bytes.Delimited

/-!
# The shortest counts

A small count can also be written behind a marker, in a word that is wider than it has to be. The
form that is written is the shortest one, so the width of a count grows with the count, and it
grows at three counts only.
-/

namespace LedgerPost.Varint

/-- The forms of a count: a byte below the markers, or a word behind the marker of its width. -/
inductive Form : Bytes → UInt64 → Prop
  | byte {b : UInt8} (h : b < 0xfd) : Form [b] b.toUInt64
  | word16 (n : UInt16) : Form (0xfd :: Bytes.word16 n) n.toUInt64
  | word32 (n : UInt32) : Form (0xfe :: Bytes.word32 n) n.toUInt64
  | word64 (n : UInt64) : Form (0xff :: Bytes.word64 n) n

variable {m n : UInt64} {bs : Bytes}

/-! ### Widths -/

/-- The width by the number that is counted. -/
lemma width_eq (n : UInt64) :
    width n = if n.toNat < 253 then 1 else if n.toNat ≤ 65535 then 3
      else if n.toNat ≤ 4294967295 then 5 else 9 := by
  simp [width, UInt64.lt_iff_toNat_lt, UInt64.le_iff_toNat_le]

/-- A larger count is no shorter. -/
lemma width_le_width (h : m ≤ n) : width m ≤ width n := by
  rw [UInt64.le_iff_toNat_le] at h
  rw [width_eq, width_eq]
  split_ifs <;> omega

lemma width_ofNat_le {k l : Nat} (h : k ≤ l) (hl : l < UInt64.size) :
    width (UInt64.ofNat k) ≤ width (UInt64.ofNat l) := by
  apply width_le_width
  rw [UInt64.le_iff_toNat_le, UInt64.toNat_ofNat_of_lt' hl,
    UInt64.toNat_ofNat_of_lt' (Nat.lt_of_le_of_lt h hl)]
  exact h

/-- By how much the next count is wider. -/
def growth (n : Nat) : Nat :=
  if n = 252 ∨ n = 65535 then 2 else if n = 4294967295 then 4 else 0

lemma width_succ {n : Nat} (h : n + 1 < UInt64.size) :
    width (UInt64.ofNat (n + 1)) = width (UInt64.ofNat n) + growth n := by
  rw [width_eq, width_eq, UInt64.toNat_ofNat_of_lt' h,
    UInt64.toNat_ofNat_of_lt' (Nat.lt_of_succ_lt h), growth]
  split_ifs <;> omega

/-! ### Narrow words -/

lemma toUInt64_toUInt8 (h : n < 0xfd) : n.toUInt8.toUInt64 = n := by
  rw [← UInt64.toNat_inj, UInt8.toNat_toUInt64, toNat_toUInt8_of_lt h]

lemma toUInt64_toUInt16 (h : n ≤ 0xffff) : n.toUInt16.toUInt64 = n := by
  rw [UInt64.le_iff_toNat_le] at h
  rw [← UInt64.toNat_inj, UInt16.toNat_toUInt64, UInt64.toNat_toUInt16]
  exact Nat.mod_eq_of_lt (Nat.lt_succ_of_le h)

lemma toUInt64_toUInt32 (h : n ≤ 0xffffffff) : n.toUInt32.toUInt64 = n := by
  rw [UInt64.le_iff_toNat_le] at h
  rw [← UInt64.toNat_inj, UInt32.toNat_toUInt64, UInt64.toNat_toUInt32]
  exact Nat.mod_eq_of_lt (Nat.lt_succ_of_le h)

/-! ### Forms -/

lemma encode_of_lt (h : n < 0xfd) : encode n = [n.toUInt8] := if_pos h

lemma encode_of_le_word16 (hlow : ¬ n < 0xfd) (h : n ≤ 0xffff) :
    encode n = 0xfd :: Bytes.word16 n.toUInt16 := by
  rw [encode, if_neg hlow, if_pos h]

lemma encode_of_le_word32 (hlow : ¬ n ≤ 0xffff) (h : n ≤ 0xffffffff) :
    encode n = 0xfe :: Bytes.word32 n.toUInt32 := by
  have hbyte : ¬ n < 0xfd := fun hlt => hlow (UInt64.le_trans (UInt64.le_of_lt hlt) (by decide))
  rw [encode, if_neg hbyte, if_neg hlow, if_pos h]

lemma encode_of_word64 (hlow : ¬ n ≤ 0xffffffff) : encode n = 0xff :: Bytes.word64 n := by
  have hword16 : ¬ n ≤ 0xffff := fun hle => hlow (UInt64.le_trans hle (by decide))
  have hbyte : ¬ n < 0xfd := fun hlt => hword16 (UInt64.le_trans (UInt64.le_of_lt hlt) (by decide))
  rw [encode, if_neg hbyte, if_neg hword16, if_neg hlow]

/-- What is written for a count is a form of it. -/
lemma form_encode (n : UInt64) : Form (encode n) n := by
  by_cases hbyte : n < 0xfd
  · have hlt : n.toUInt8 < 0xfd := by
      rw [UInt8.lt_iff_toNat_lt, toNat_toUInt8_of_lt hbyte]
      exact UInt64.lt_iff_toNat_lt.mp hbyte
    have hform := Form.byte hlt
    rwa [toUInt64_toUInt8 hbyte, ← encode_of_lt hbyte] at hform
  · by_cases hword16 : n ≤ 0xffff
    · have hform := Form.word16 n.toUInt16
      rwa [toUInt64_toUInt16 hword16, ← encode_of_le_word16 hbyte hword16] at hform
    · by_cases hword32 : n ≤ 0xffffffff
      · have hform := Form.word32 n.toUInt32
        rwa [toUInt64_toUInt32 hword32, ← encode_of_le_word32 hword16 hword32] at hform
      · rw [encode_of_word64 hword32]
        exact .word64 n

/-- A form of a count is the one that is written, or it is longer. -/
lemma Form.eq_encode_or_lt (h : Form bs n) : bs = encode n ∨ (encode n).length < bs.length := by
  rw [length_encode]
  cases h with
  | @byte b h =>
    left
    have hlt : b.toUInt64 < 0xfd := UInt8.toUInt64_lt.mpr h
    rw [encode_of_lt hlt, UInt8.toUInt8_toUInt64]
  | word16 n =>
    by_cases hlow : n.toUInt64 < 0xfd
    · right
      rw [width, if_pos hlow]
      simp [Bytes.word16]
    · left
      have hle : n.toUInt64 ≤ 0xffff := UInt64.le_iff_toNat_le.mpr (Nat.le_of_lt_succ n.toNat_lt)
      rw [encode_of_le_word16 hlow hle, UInt16.toUInt16_toUInt64]
  | word32 n =>
    by_cases hlow : n.toUInt64 ≤ 0xffff
    · right
      have hwidth : width n.toUInt64 ≤ 3 := width_le_width hlow
      have hlength : (0xfe :: Bytes.word32 n).length = 5 := by simp [Bytes.word32]
      omega
    · left
      have hle : n.toUInt64 ≤ 0xffffffff :=
        UInt64.le_iff_toNat_le.mpr (Nat.le_of_lt_succ n.toNat_lt)
      rw [encode_of_le_word32 hlow hle, UInt32.toUInt32_toUInt64]
  | word64 n =>
    by_cases hlow : n ≤ 0xffffffff
    · right
      have hwidth : width n ≤ 5 := width_le_width hlow
      have hlength : (0xff :: Bytes.word64 n).length = 9 := by simp [Bytes.word64]
      omega
    · left
      rw [encode_of_word64 hlow]

/-- A count is read off what is written for it in one way only, whatever follows. It is as long as
its width says, which does not fall when the count grows, and every other form of it is longer. -/
theorem encode_shortest (v w : UInt64) (s t : Bytes) :
    (encode v ++ s = encode w ++ t ↔ v = w ∧ s = t) ∧
      (encode v).length = width v ∧ (v ≤ w → width v ≤ width w) ∧
      Form (encode v) v ∧ ∀ bs, Form bs v → bs = encode v ∨ (encode v).length < bs.length := by
  refine ⟨⟨?_, ?_⟩, length_encode v, width_le_width, form_encode v, ?_⟩
  · intro h
    exact selfDelimiting_encode trivial trivial h
  · rintro ⟨rfl, rfl⟩
    rfl
  · intro bs h
    exact h.eq_encode_or_lt

/-- A count of 300 takes three bytes, and five behind the next marker. -/
theorem three_hundred_shortest :
    Form (0xfe :: Bytes.word32 300) 300 ∧ (encode 300).length = 3 ∧ width 252 ≤ width 300 ∧
      (encode 300).length < (0xfe :: Bytes.word32 300).length := by
  have hform : Form (0xfe :: Bytes.word32 300) 300 := .word32 300
  obtain ⟨-, -, hmono, -⟩ := encode_shortest 252 300 [] []
  obtain ⟨-, hlength, -, -, hlonger⟩ := encode_shortest 300 300 [] []
  refine ⟨hform, hlength, hmono (by decide), ?_⟩
  exact (hlonger _ hform).resolve_left (by decide)

end LedgerPost.Varint
