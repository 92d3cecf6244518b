import LedgerPost.Bytes.Hex
import LedgerPost.Proofs.Bytes.Text
import LedgerPost.Proofs.Except

/-!
# Reading hexadecimal digits

Digits are read exactly if, once in lower case, they are the digits that are written. So a byte
string has one hexadecimal form up to case, and what is written is read back.
-/

namespace LedgerPost

namespace Hex

/-! ### Digits -/

/-- An ASCII byte with `A` to `F` in lower case. -/
def lowered (d : UInt8) : UInt8 :=
  if 65 ≤ d.toNat ∧ d.toNat ≤ 70 then d + 32 else d

/-- The ASCII byte of a digit. -/
def digitByte (n : Nat) : UInt8 := UInt8.ofNat (Nat.digitChar n).toNat

lemma toNat_digitByte {n : Nat} (hn : n < 16) :
    (digitByte n).toNat = if n < 10 then 48 + n else 87 + n := by
  decide +revert

lemma toNat_lowered (d : UInt8) :
    (lowered d).toNat = if 65 ≤ d.toNat ∧ d.toNat ≤ 70 then d.toNat + 32 else d.toNat := by
  unfold lowered
  split
  case isTrue h =>
    rw [UInt8.toNat_add]
    exact Nat.mod_eq_of_lt (by change d.toNat + 32 < 256; omega)
  case isFalse => rfl

lemma toNat_digitChar_lt {n : Nat} (hn : n < 16) : (Nat.digitChar n).toNat < 128 := by
  decide +revert

/-- A byte is the digit of a number exactly if it is the digit that is written, up to case. -/
lemma digitValue?_eq_some {d : UInt8} {n : Nat} :
    digitValue? d = some n ↔ n < 16 ∧ lowered d = digitByte n := by
  constructor
  · intro h
    have hn : n < 16 := by
      unfold digitValue? at h
      grind
    refine ⟨hn, UInt8.toNat_inj.mp ?_⟩
    rw [toNat_digitByte hn, toNat_lowered]
    unfold digitValue? at h
    grind
  · rintro ⟨hn, h⟩
    have hnat := congrArg UInt8.toNat h
    rw [toNat_digitByte hn, toNat_lowered] at hnat
    unfold digitValue?
    grind

lemma digit_eq_ok {position : Nat} {d : UInt8} {n : Nat} :
    digit position d = .ok n ↔ n < 16 ∧ lowered d = digitByte n := by
  rw [← digitValue?_eq_some, digit]
  cases digitValue? d <;> simp

/-! ### Byte strings -/

lemma ofText_encode (bs : Bytes) :
    Bytes.ofText (encode bs) =
      bs.flatMap fun b => [digitByte (b.toNat / 16), digitByte (b.toNat % 16)] := by
  have hascii : ∀ c ∈ bs.flatMap digits, c.toNat < 128 := by
    intro c hc
    obtain ⟨b, -, hdigit⟩ := List.mem_flatMap.mp hc
    have hb := b.toNat_lt
    simp only [digits, List.mem_cons, List.not_mem_nil, or_false] at hdigit
    obtain rfl | rfl := hdigit
    · exact toNat_digitChar_lt (by omega)
    · exact toNat_digitChar_lt (by omega)
  rw [encode, Bytes.ofText_ofList_of_lt hascii, List.map_flatMap]
  rfl

lemma length_ofText_encode (bs : Bytes) : (Bytes.ofText (encode bs)).length = 2 * bs.length := by
  rw [ofText_encode]
  induction bs with
  | nil => rfl
  | cons b bs ih =>
    rw [List.flatMap_cons, List.length_append, ih, List.length_cons]
    simp only [List.length_cons, List.length_nil]
    omega

lemma decodePairs_eq_ok {position : Nat} {ds bs : Bytes} :
    decodePairs position ds = .ok bs ↔ ds.map lowered = Bytes.ofText (encode bs) := by
  rw [ofText_encode]
  induction position, ds using decodePairs.induct generalizing bs with
  | case1 position =>
    cases bs with
    | nil => simp [decodePairs]
    | cons b bs => simp [decodePairs]
  | case2 position d =>
    cases bs with
    | nil => simp [decodePairs]
    | cons b bs => simp [decodePairs]
  | case3 position high low rest ih =>
    constructor
    · intro h
      rw [decodePairs] at h
      obtain ⟨x, hhigh, h⟩ := bind_eq_ok.mp h
      obtain ⟨y, hlow, h⟩ := bind_eq_ok.mp h
      obtain ⟨more, hrest, h⟩ := bind_eq_ok.mp h
      obtain ⟨hx, hhigh⟩ := digit_eq_ok.mp hhigh
      obtain ⟨hy, hlow⟩ := digit_eq_ok.mp hlow
      obtain rfl := Except.ok.inj h
      have hbyte : (UInt8.ofNat (16 * x + y)).toNat = 16 * x + y := by
        apply UInt8.toNat_ofNat_of_lt
        change 16 * x + y < 256
        omega
      have hdiv : (16 * x + y) / 16 = x := by omega
      have hmod : (16 * x + y) % 16 = y := by omega
      rw [List.flatMap_cons, hbyte, hdiv, hmod, ← ih.mp hrest, ← hhigh, ← hlow]
      rfl
    · intro h
      cases bs with
      | nil => cases h
      | cons b bs =>
        have hb := b.toNat_lt
        simp only [List.map_cons, List.flatMap_cons, List.cons_append, List.nil_append,
          List.cons.injEq] at h
        obtain ⟨hhigh, hlow, hrest⟩ := h
        have hx : digit position high = .ok (b.toNat / 16) := digit_eq_ok.mpr ⟨by omega, hhigh⟩
        have hy : digit (position + 1) low = .ok (b.toNat % 16) :=
          digit_eq_ok.mpr ⟨by omega, hlow⟩
        have hbyte : UInt8.ofNat (16 * (b.toNat / 16) + b.toNat % 16) = b := by
          rw [Nat.div_add_mod, UInt8.ofNat_toNat]
        rw [decodePairs, hx, hy, ih.mpr hrest]
        change Except.ok (UInt8.ofNat (16 * (b.toNat / 16) + b.toNat % 16) :: bs) = _
        rw [hbyte]

/-- Digits are read as some bytes exactly if, in lower case, they are the digits of these. -/
theorem decodeDigits_eq_ok {ds bs : Bytes} :
    decodeDigits ds = .ok bs ↔ ds.map lowered = Bytes.ofText (encode bs) := by
  constructor
  · intro h
    rw [decodeDigits] at h
    split at h
    · cases h
    · exact decodePairs_eq_ok.mp h
  · intro h
    have hlength : ds.length = 2 * bs.length := by
      rw [← length_ofText_encode, ← h, List.length_map]
    rw [decodeDigits, if_neg (by omega)]
    exact decodePairs_eq_ok.mpr h

/-- Written digits are in lower case. -/
lemma map_lowered_ofText_encode (bs : Bytes) :
    (Bytes.ofText (encode bs)).map lowered = Bytes.ofText (encode bs) := by
  have hdigit : ∀ n < 16, lowered (digitByte n) = digitByte n := by decide
  rw [ofText_encode, List.map_flatMap]
  apply List.flatMap_congr
  intro b _
  have hb := b.toNat_lt
  rw [List.map_cons, List.map_cons, hdigit _ (by omega), hdigit _ (by omega)]
  rfl

/-- A written byte string is read back. -/
theorem decode_encode (bs : Bytes) : decode (encode bs) = .ok bs :=
  decodeDigits_eq_ok.mpr (map_lowered_ofText_encode bs)

/-- A written block is read back. -/
theorem decodeBlock_encode {n : Nat} (b : Block n) : decodeBlock n (encode b.toList) = .ok b := by
  have hlength : (Bytes.ofText (encode b.toList)).length = 2 * n := by
    rw [length_ofText_encode, b.length_toList]
  have hpairs : decodePairs 0 (Bytes.ofText (encode b.toList)) = .ok b.toList :=
    decodePairs_eq_ok.mpr (map_lowered_ofText_encode b.toList)
  rw [decodeBlock]
  simp only [hlength]
  rw [if_neg (by omega), if_neg (by simp), hpairs]
  simp [bind, Except.bind, pure, Except.pure]

end Hex

end LedgerPost
