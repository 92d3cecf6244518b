import LedgerPost.Ledger.Address.Checksum
import Mathlib.Data.List.Induction
import Mathlib.Tactic.Common

/-!
# Groups of five bits and of eight

Quintets and bytes are lists of bits cut into groups. Between the two nothing changes but the end:
the last quintet is filled up with zeros, and bits that do not fill a byte are left over.
-/

namespace LedgerPost.Base32

/-! ### Numbers as bits -/

lemma bits_succ_eq_append (width n : Nat) :
    bits (width + 1) n = bits width (n / 2) ++ [n.testBit 0] := by
  induction width with
  | zero => rfl
  | succ width ih => rw [bits, ih, bits, List.cons_append, Nat.testBit_succ]

lemma ofBits_append_singleton (bs : List Bool) (b : Bool) :
    ofBits (bs ++ [b]) = 2 * ofBits bs + b.toNat := by
  simp [ofBits]

lemma ofBits_append_singleton_div_two (bs : List Bool) (b : Bool) :
    ofBits (bs ++ [b]) / 2 = ofBits bs := by
  have hlt : b.toNat < 2 := b.toNat_lt
  rw [ofBits_append_singleton]
  omega

lemma testBit_zero_ofBits_append_singleton (bs : List Bool) (b : Bool) :
    (ofBits (bs ++ [b])).testBit 0 = b := by
  rw [ofBits_append_singleton, Nat.testBit_zero]
  cases b <;> simp

@[simp] lemma ofBits_shiftRight_length (bs : List Bool) : ofBits bs >>> bs.length = 0 := by
  induction bs using List.reverseRecOn with
  | nil => rfl
  | append_singleton bs b ih =>
    rw [List.length_append, List.length_singleton, Nat.shiftRight_succ_inside,
      ofBits_append_singleton_div_two, ih]

@[simp] lemma bits_ofBits (bs : List Bool) : bits bs.length (ofBits bs) = bs := by
  induction bs using List.reverseRecOn with
  | nil => rfl
  | append_singleton bs b ih =>
    rw [List.length_append, List.length_singleton, bits_succ_eq_append,
      ofBits_append_singleton_div_two, ih, testBit_zero_ofBits_append_singleton]

/-- A number without further bits is spelled by its bits. -/
lemma ofBits_bits {width n : Nat} (h : n >>> width = 0) : ofBits (bits width n) = n := by
  induction width generalizing n with
  | zero => exact h.symm
  | succ width ih =>
    rw [Nat.shiftRight_succ_inside] at h
    rw [bits_succ_eq_append, ofBits_append_singleton, ih h, Nat.testBit_zero]
    rcases Nat.mod_two_eq_zero_or_one n with hn | hn
    · simp only [hn, Nat.zero_ne_one, decide_false, Bool.toNat_false]
      omega
    · simp only [hn, decide_true, Bool.toNat_true]
      omega

/-! ### The bits of bytes and quintets -/

/-- The bits of a byte string. -/
def bitsOfBytes (bs : Bytes) : List Bool := bs.flatMap fun b => bits 8 b.toNat

/-- The bits of a list of quintets. -/
def bitsOfQuintets (qs : List Quintet) : List Bool := qs.flatMap fun q => bits 5 q.val

@[simp] lemma bitsOfBytes_nil : bitsOfBytes [] = [] := rfl

@[simp] lemma bitsOfBytes_cons (b : UInt8) (bs : Bytes) :
    bitsOfBytes (b :: bs) = bits 8 b.toNat ++ bitsOfBytes bs := rfl

@[simp] lemma bitsOfQuintets_nil : bitsOfQuintets [] = [] := rfl

@[simp] lemma bitsOfQuintets_cons (q : Quintet) (qs : List Quintet) :
    bitsOfQuintets (q :: qs) = bits 5 q.val ++ bitsOfQuintets qs := rfl

@[simp] lemma length_bitsOfBytes (bs : Bytes) : (bitsOfBytes bs).length = 8 * bs.length := by
  induction bs with
  | nil => rfl
  | cons b bs ih =>
    simp only [bitsOfBytes_cons, List.length_append, length_bits, ih, List.length_cons]
    omega

@[simp] lemma length_bitsOfQuintets (qs : List Quintet) :
    (bitsOfQuintets qs).length = 5 * qs.length := by
  induction qs with
  | nil => rfl
  | cons q qs ih =>
    simp only [bitsOfQuintets_cons, List.length_append, length_bits, ih, List.length_cons]
    omega

lemma bits_byte {bs : List Bool} (h : bs.length = 8) :
    bits 8 (UInt8.ofNat (ofBits bs)).toNat = bs := by
  have hlt : ofBits bs < 256 := by
    have hshift := ofBits_shiftRight_length bs
    rw [h, Nat.shiftRight_eq_div_pow] at hshift
    omega
  rw [UInt8.toNat_ofNat_of_lt' hlt, ← h, bits_ofBits]

lemma byte_bits (b : UInt8) : UInt8.ofNat (ofBits (bits 8 b.toNat)) = b := by
  have hshift : b.toNat >>> 8 = 0 := by
    have hlt := b.toNat_lt
    rw [Nat.shiftRight_eq_div_pow]
    omega
  rw [ofBits_bits hshift, UInt8.ofNat_toNat]

lemma bits_quintet {bs : List Bool} (h : bs.length = 5) :
    bits 5 (quintet (ofBits bs)).val = bs := by
  have hlt : ofBits bs < 32 := by
    have hshift := ofBits_shiftRight_length bs
    rw [h, Nat.shiftRight_eq_div_pow] at hshift
    omega
  have hval : (quintet (ofBits bs)).val = ofBits bs := Nat.mod_eq_of_lt hlt
  rw [hval, ← h, bits_ofBits]

lemma quintet_bits (q : Quintet) : quintet (ofBits (bits 5 q.val)) = q := by
  have hshift : q.val >>> 5 = 0 := by
    rw [Nat.shiftRight_eq_div_pow]
    omega
  rw [ofBits_bits hshift]
  exact Fin.ext (Nat.mod_eq_of_lt q.isLt)

/-! ### Cutting bits into groups -/

/-- Bits that do not fill a byte are left out. -/
lemma length_bytesOfBits (bs : List Bool) : (bytesOfBits bs).length = bs.length / 8 := by
  induction bs using bytesOfBits.induct with
  | case1 a b c d e f g h rest ih =>
    simp only [bytesOfBits, List.length_cons, ih]
    omega
  | case2 bs hshort =>
    have hlt : bs.length < 8 := by
      rcases bs with _ | ⟨a, _ | ⟨b, _ | ⟨c, _ | ⟨d, _ | ⟨e, _ | ⟨f, _ | ⟨g, _ | ⟨h, rest⟩⟩⟩⟩⟩⟩⟩⟩
      all_goals first
        | exact (hshort _ _ _ _ _ _ _ _ _ rfl).elim
        | simp
    rw [bytesOfBits.eq_2 bs hshort, List.length_nil, Nat.div_eq_of_lt hlt]

lemma bytesOfBits_of_lt {bs : List Bool} (h : bs.length < 8) : bytesOfBits bs = [] := by
  rw [← List.length_eq_zero_iff, length_bytesOfBits, Nat.div_eq_of_lt h]

/-- Bits that are left over behind a byte string are not read. -/
lemma bytesOfBits_append {stray : List Bool} (bs : Bytes) (h : stray.length < 8) :
    bytesOfBits (bitsOfBytes bs ++ stray) = bs := by
  induction bs with
  | nil => exact bytesOfBits_of_lt h
  | cons b bs ih =>
    change UInt8.ofNat (ofBits (bits 8 b.toNat)) :: bytesOfBits (bitsOfBytes bs ++ stray) = _
    rw [byte_bits, ih]

/-- All bits are those of the bytes that they fill, or left over. -/
lemma exists_eq_bitsOfBytes_append (bs : List Bool) :
    ∃ stray, stray.length < 8 ∧ bs = bitsOfBytes (bytesOfBits bs) ++ stray := by
  induction bs using bytesOfBits.induct with
  | case1 a b c d e f g h rest ih =>
    obtain ⟨stray, hstray, hrest⟩ := ih
    refine ⟨stray, hstray, ?_⟩
    rw [bytesOfBits, bitsOfBytes_cons, bits_byte rfl, List.append_assoc, ← hrest]
    rfl
  | case2 bs hshort =>
    have hlt : bs.length < 8 := by
      have hlength := length_bytesOfBits bs
      rw [bytesOfBits.eq_2 bs hshort, List.length_nil] at hlength
      omega
    refine ⟨bs, hlt, ?_⟩
    rw [bytesOfBits_of_lt hlt]
    rfl

@[simp] lemma quintetsOfBits_bitsOfQuintets (qs : List Quintet) :
    quintetsOfBits (bitsOfQuintets qs) = qs := by
  induction qs with
  | nil => rfl
  | cons q qs ih =>
    change quintet (ofBits (bits 5 q.val)) :: quintetsOfBits (bitsOfQuintets qs) = _
    rw [quintet_bits, ih]

lemma bitsOfQuintets_injective : Function.Injective bitsOfQuintets :=
  Function.LeftInverse.injective quintetsOfBits_bitsOfQuintets

/-- Bits that fill groups of five are those of their quintets. -/
lemma bitsOfQuintets_quintetsOfBits {bs : List Bool} (h : bs.length % 5 = 0) :
    bitsOfQuintets (quintetsOfBits bs) = bs := by
  induction bs using quintetsOfBits.induct with
  | case1 a b c d e rest ih =>
    rw [quintetsOfBits, bitsOfQuintets_cons, bits_quintet rfl, ih]
    · rfl
    · simp only [List.length_cons] at h
      omega
  | case2 => rfl
  | case3 rest hgroup hne =>
    exfalso
    rcases rest with _ | ⟨a, _ | ⟨b, _ | ⟨c, _ | ⟨d, _ | ⟨e, rest⟩⟩⟩⟩⟩
    · exact hne rfl
    · simp at h
    · simp at h
    · simp at h
    · simp at h
    · exact hgroup _ _ _ _ _ _ rfl

/-- The zeros that fill up the last of some groups of five. -/
def fillers (length : Nat) : List Bool := List.replicate ((5 - length % 5) % 5) false

lemma length_fillers_lt (length : Nat) : (fillers length).length < 5 := by
  rw [fillers, List.length_replicate]
  omega

lemma add_length_fillers (length : Nat) : (length + (fillers length).length) % 5 = 0 := by
  rw [fillers, List.length_replicate]
  omega

/-- A list of zeros that is short enough fills up the last group. -/
lemma eq_fillers_iff {length : Nat} {bs : List Bool} (h : (length + bs.length) % 5 = 0) :
    bs = fillers length ↔ bs.length < 5 ∧ ∀ b ∈ bs, b = false := by
  constructor
  · rintro rfl
    exact ⟨length_fillers_lt length, fun b hb => List.eq_of_mem_replicate hb⟩
  · rintro ⟨hlt, hzeros⟩
    rw [fillers, List.eq_replicate_iff]
    exact ⟨by omega, hzeros⟩

/-- The last group is filled up with zeros. -/
lemma quintetsOfBits_append_fillers (bs : List Bool) :
    quintetsOfBits (bs ++ fillers bs.length) = quintetsOfBits bs := by
  induction bs using quintetsOfBits.induct with
  | case1 a b c d e rest ih =>
    have hlength : fillers (a :: b :: c :: d :: e :: rest).length = fillers rest.length := by
      simp only [fillers, List.length_cons, Nat.add_assoc]
      congr 3
      omega
    rw [hlength, quintetsOfBits, ← ih]
    rfl
  | case2 => rfl
  | case3 rest hgroup hne =>
    rcases rest with _ | ⟨a, _ | ⟨b, _ | ⟨c, _ | ⟨d, _ | ⟨e, rest⟩⟩⟩⟩⟩
    · rfl
    · rfl
    · rfl
    · rfl
    · rfl
    · exact (hgroup _ _ _ _ _ _ rfl).elim

/-! ### From bytes to quintets and back -/

lemma length_toBytes (qs : List Quintet) : (toBytes qs).length = 5 * qs.length / 8 := by
  rw [toBytes, ← bitsOfQuintets, length_bytesOfBits, length_bitsOfQuintets]

/-- The quintets of a byte string are those of its bits and of the zeros that fill them up. -/
lemma bitsOfQuintets_ofBytes (bs : Bytes) :
    bitsOfQuintets (ofBytes bs) = bitsOfBytes bs ++ fillers (8 * bs.length) := by
  have hfill := quintetsOfBits_append_fillers (bitsOfBytes bs)
  rw [length_bitsOfBytes] at hfill
  rw [ofBytes, ← bitsOfBytes, ← hfill, bitsOfQuintets_quintetsOfBits]
  rw [List.length_append, length_bitsOfBytes, add_length_fillers]

lemma length_ofBytes (bs : Bytes) : (ofBytes bs).length = (8 * bs.length + 4) / 5 := by
  have hbits := congrArg List.length (bitsOfQuintets_ofBytes bs)
  simp only [length_bitsOfQuintets, List.length_append, length_bitsOfBytes, fillers,
    List.length_replicate] at hbits
  omega

/-- Quintets spell a byte string if their bits are those of the bytes and some that are left
over. -/
lemma toBytes_eq_iff {qs : List Quintet} {bs : Bytes} :
    toBytes qs = bs ↔ ∃ stray, stray.length < 8 ∧ bitsOfQuintets qs = bitsOfBytes bs ++ stray := by
  constructor
  · rintro rfl
    exact exists_eq_bitsOfBytes_append (bitsOfQuintets qs)
  · rintro ⟨stray, hstray, hbits⟩
    rw [toBytes, ← bitsOfQuintets, hbits, bytesOfBits_append bs hstray]

@[simp] lemma toBytes_ofBytes (bs : Bytes) : toBytes (ofBytes bs) = bs := by
  rw [toBytes_eq_iff]
  exact ⟨_, Nat.lt_trans (length_fillers_lt _) (by decide), bitsOfQuintets_ofBytes bs⟩

end LedgerPost.Base32
