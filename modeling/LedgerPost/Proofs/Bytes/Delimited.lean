import LedgerPost.Bytes.Varint
import Mathlib.Data.List.Basic

/-!
# Self-delimiting byte forms

A byte form is self-delimiting when what is written can be read off the bytes in one way only,
whatever bytes follow. Forms of a fixed width are, counts are, and so is a byte string behind its
length. Lists of such forms can be told apart as long as their lengths agree, or nothing follows.
-/

namespace LedgerPost

variable {α : Type} {P : α → Prop} {write : α → Bytes}

/-- The values with a property are written in a form whose end does not depend on what follows. -/
def SelfDelimiting (P : α → Prop) (write : α → Bytes) : Prop :=
  ∀ ⦃a b : α⦄, P a → P b → ∀ ⦃s t : Bytes⦄, write a ++ s = write b ++ t → a = b ∧ s = t

namespace SelfDelimiting

lemma injective (h : SelfDelimiting P write) {a b : α} (ha : P a) (hb : P b)
    (heq : write a = write b) : a = b := by
  have happend : write a ++ [] = write b ++ [] := by rw [heq]
  exact (h ha hb happend).1

/-- A form of a fixed width ends where its width says. -/
lemma of_length {n : Nat} (hlength : ∀ a, (write a).length = n)
    (hinjective : Function.Injective write) : SelfDelimiting (fun _ => True) write := by
  intro a b _ _ s t h
  obtain ⟨hwrite, hrest⟩ := List.append_inj h (by rw [hlength, hlength])
  exact ⟨hinjective hwrite, hrest⟩

/-- Lists of the same length are told apart, whatever follows them. -/
lemma flatMap (h : SelfDelimiting P write) {as bs : List α} (ha : ∀ a ∈ as, P a)
    (hb : ∀ b ∈ bs, P b) (hlength : as.length = bs.length) {s t : Bytes}
    (heq : as.flatMap write ++ s = bs.flatMap write ++ t) : as = bs ∧ s = t := by
  induction as generalizing bs with
  | nil =>
    cases bs with
    | nil => exact ⟨rfl, heq⟩
    | cons b bs => cases hlength
  | cons a as ih =>
    cases bs with
    | nil => cases hlength
    | cons b bs =>
      rw [List.forall_mem_cons] at ha hb
      rw [List.flatMap_cons, List.flatMap_cons, List.append_assoc, List.append_assoc] at heq
      obtain ⟨rfl, hrest⟩ := h ha.1 hb.1 heq
      obtain ⟨rfl, rfl⟩ := ih ha.2 hb.2 (Nat.succ.inj hlength) hrest
      exact ⟨rfl, rfl⟩

/-- What is read off a part of each item is that part. -/
lemma map_eq {β : Type} (h : SelfDelimiting (fun _ => True) write) {part : β → α} {as bs : List β}
    (hlength : as.length = bs.length)
    (heq : as.flatMap (fun a => write (part a)) = bs.flatMap fun b => write (part b)) :
    as.map part = bs.map part := by
  have hmap : (as.map part).flatMap write ++ [] = (bs.map part).flatMap write ++ [] := by
    rw [List.flatMap_map, List.flatMap_map, heq]
  have hlength' : (as.map part).length = (bs.map part).length := by
    rw [List.length_map, List.length_map, hlength]
  exact (h.flatMap (fun _ _ => trivial) (fun _ _ => trivial) hlength' hmap).1

/-- Lists of any length are told apart when nothing follows them and no form is empty. -/
lemma flatMap_inj (h : SelfDelimiting P write) (hne : ∀ a, write a ≠ []) {as bs : List α}
    (ha : ∀ a ∈ as, P a) (hb : ∀ b ∈ bs, P b) (heq : as.flatMap write = bs.flatMap write) :
    as = bs := by
  induction as generalizing bs with
  | nil =>
    cases bs with
    | nil => rfl
    | cons b bs =>
      rw [List.flatMap_cons] at heq
      exact absurd (List.append_eq_nil_iff.mp heq.symm).1 (hne b)
  | cons a as ih =>
    cases bs with
    | nil =>
      rw [List.flatMap_cons] at heq
      exact absurd (List.append_eq_nil_iff.mp heq).1 (hne a)
    | cons b bs =>
      rw [List.forall_mem_cons] at ha hb
      obtain ⟨rfl, hrest⟩ := h ha.1 hb.1 heq
      rw [ih ha.2 hb.2 hrest]

end SelfDelimiting

/-! ### Words and blocks -/

namespace Bytes

lemma ofLittleEndian_word16 (n : UInt16) : ofLittleEndian (word16 n) = n.toNat := by
  have hlt := n.toNat_lt_size
  simp only [word16, littleEndian, ofLittleEndian, UInt8.toNat_ofNat', UInt16.size] at hlt ⊢
  omega

lemma ofLittleEndian_word32 (n : UInt32) : ofLittleEndian (word32 n) = n.toNat := by
  have hlt := n.toNat_lt_size
  simp only [word32, littleEndian, ofLittleEndian, UInt8.toNat_ofNat', UInt32.size] at hlt ⊢
  omega

lemma ofLittleEndian_word64 (n : UInt64) : ofLittleEndian (word64 n) = n.toNat := by
  have hlt := n.toNat_lt_size
  simp only [word64, littleEndian, ofLittleEndian, UInt8.toNat_ofNat', UInt64.size] at hlt ⊢
  omega

lemma selfDelimiting_word16 : SelfDelimiting (fun _ => True) word16 := by
  apply SelfDelimiting.of_length (n := 2)
  · intro n
    exact length_littleEndian 2 _
  · intro m n h
    rw [← UInt16.toNat_inj, ← ofLittleEndian_word16, h, ofLittleEndian_word16]

lemma selfDelimiting_word32 : SelfDelimiting (fun _ => True) word32 := by
  apply SelfDelimiting.of_length (n := 4)
  · intro n
    exact length_littleEndian 4 _
  · intro m n h
    rw [← UInt32.toNat_inj, ← ofLittleEndian_word32, h, ofLittleEndian_word32]

lemma selfDelimiting_word64 : SelfDelimiting (fun _ => True) word64 := by
  apply SelfDelimiting.of_length (n := 8)
  · intro n
    exact length_littleEndian 8 _
  · intro m n h
    rw [← UInt64.toNat_inj, ← ofLittleEndian_word64, h, ofLittleEndian_word64]

/-- A length that fits into a word is read off its count. -/
lemma length_eq_of_count_eq {bs bs' : Bytes} (h : bs.length < UInt64.size)
    (h' : bs'.length < UInt64.size) (heq : bs.count = bs'.count) : bs.length = bs'.length := by
  have hnat := congrArg UInt64.toNat heq
  rwa [count, count, UInt64.toNat_ofNat_of_lt' h, UInt64.toNat_ofNat_of_lt' h'] at hnat

/-- A byte string behind its count, where the count itself is self-delimiting. -/
lemma selfDelimiting_counted {write : UInt64 → Bytes} (h : SelfDelimiting (fun _ => True) write) :
    SelfDelimiting (fun bs => bs.length < UInt64.size) fun bs => write bs.count ++ bs := by
  intro bs bs' hbs hbs' s t heq
  dsimp only at heq
  rw [List.append_assoc, List.append_assoc] at heq
  obtain ⟨hcount, hrest⟩ := h trivial trivial heq
  exact List.append_inj hrest (length_eq_of_count_eq hbs hbs' hcount)

lemma selfDelimiting_measured :
    SelfDelimiting (fun bs => bs.length < UInt64.size) measured :=
  selfDelimiting_counted selfDelimiting_word64

end Bytes

lemma Block.selfDelimiting_toList (n : Nat) :
    SelfDelimiting (fun _ => True) (Block.toList (n := n)) := by
  apply SelfDelimiting.of_length (n := n)
  · exact Block.length_toList
  · intro b b' h
    cases b
    cases b'
    congr

/-! ### Counts -/

namespace Varint

/-- The width of a count, by the byte that it starts with. -/
def widthFrom (b : UInt8) : Nat :=
  if b < 0xfd then 1 else if b = 0xfd then 3 else if b = 0xfe then 5 else 9

/-- The count that bytes spell, which is a byte or stands behind a marker. -/
def value : Bytes → Nat
  | [] => 0
  | [b] => b.toNat
  | _ :: word => Bytes.ofLittleEndian word

lemma toNat_toUInt8_of_lt {n : UInt64} (h : n < 0xfd) : n.toUInt8.toNat = n.toNat := by
  rw [UInt64.lt_iff_toNat_lt] at h
  rw [UInt64.toNat_toUInt8]
  have hbound : (0xfd : UInt64).toNat = 253 := rfl
  exact Nat.mod_eq_of_lt (by omega)

/-- Each of the four forms keeps the whole count. -/
lemma value_encode (n : UInt64) : value (encode n) = n.toNat := by
  unfold encode
  split_ifs with hbyte hword16 hword32
  · exact toNat_toUInt8_of_lt hbyte
  · have hbound : (0xffff : UInt64).toNat = 65535 := rfl
    rw [UInt64.le_iff_toNat_le] at hword16
    rw [value, Bytes.ofLittleEndian_word16, UInt64.toNat_toUInt16]
    · exact Nat.mod_eq_of_lt (by omega)
    · simp [Bytes.word16, Bytes.littleEndian]
  · have hbound : (0xffffffff : UInt64).toNat = 4294967295 := rfl
    rw [UInt64.le_iff_toNat_le] at hword32
    rw [value, Bytes.ofLittleEndian_word32, UInt64.toNat_toUInt32]
    · exact Nat.mod_eq_of_lt (by omega)
    · simp [Bytes.word32, Bytes.littleEndian]
  · rw [value, Bytes.ofLittleEndian_word64]
    simp [Bytes.word64, Bytes.littleEndian]

/-- No byte below the markers starts a longer form. -/
lemma encode_eq_cons (n : UInt64) : ∃ b word, encode n = b :: word ∧ width n = widthFrom b := by
  unfold encode width
  split_ifs with hbyte hword16 hword32
  · refine ⟨_, _, rfl, ?_⟩
    have hlt : n.toUInt8 < 0xfd := by
      rw [UInt8.lt_iff_toNat_lt, toNat_toUInt8_of_lt hbyte]
      exact UInt64.lt_iff_toNat_lt.mp hbyte
    rw [widthFrom, if_pos hlt]
  · exact ⟨_, _, rfl, rfl⟩
  · exact ⟨_, _, rfl, rfl⟩
  · exact ⟨_, _, rfl, rfl⟩

/-- A count is read off its first byte and as many bytes as that one asks for. -/
lemma selfDelimiting_encode : SelfDelimiting (fun _ => True) encode := by
  intro v w _ _ s t h
  obtain ⟨b, word, hv, hwidth⟩ := encode_eq_cons v
  obtain ⟨b', word', hw, hwidth'⟩ := encode_eq_cons w
  have hhead : b = b' := by
    rw [hv, hw, List.cons_append, List.cons_append] at h
    exact (List.cons.inj h).1
  have hlength : (encode v).length = (encode w).length := by
    rw [length_encode, length_encode, hwidth, hwidth', hhead]
  obtain ⟨hencode, hrest⟩ := List.append_inj h hlength
  refine ⟨?_, hrest⟩
  rw [← UInt64.toNat_inj, ← value_encode, hencode, value_encode]

lemma selfDelimiting_measured :
    SelfDelimiting (fun bs => bs.length < UInt64.size) measured :=
  Bytes.selfDelimiting_counted selfDelimiting_encode

/-- The forms of a list of values behind their number. -/
def listed {α : Type} (write : α → Bytes) (as : List α) : Bytes :=
  encode (UInt64.ofNat as.length) ++ as.flatMap write

lemma selfDelimiting_listed (h : SelfDelimiting P write) :
    SelfDelimiting (fun as => as.length < UInt64.size ∧ ∀ a ∈ as, P a) (listed write) := by
  intro as bs has hbs s t heq
  rw [listed, listed, List.append_assoc, List.append_assoc] at heq
  obtain ⟨hcount, hrest⟩ := selfDelimiting_encode trivial trivial heq
  have hlength := congrArg UInt64.toNat hcount
  rw [UInt64.toNat_ofNat_of_lt' has.1, UInt64.toNat_ofNat_of_lt' hbs.1] at hlength
  exact h.flatMap has.2 hbs.2 hlength hrest

end Varint

end LedgerPost
