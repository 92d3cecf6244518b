import LedgerPost.Message.Body
import LedgerPost.Proofs.Json.Size
import LedgerPost.Proofs.Time.Timestamp

/-!
# Sizes of bodies

A moment in a year of four digits has a text of 24 plain characters, and a generated identifier of a
conversation one of 36. So the size of a body depends neither on the moment nor on the value of the
identifier.
-/

namespace LedgerPost

open Json

/-! ### Moments -/

namespace Timestamp

variable {t : Timestamp}

/-- Whether the year of a moment has four digits and no sign. -/
def HasPlainYear (t : Timestamp) : Prop := 0 ≤ t.date.year ∧ t.date.year ≤ 9999

instance (t : Timestamp) : Decidable t.HasPlainYear :=
  inferInstanceAs (Decidable (0 ≤ t.date.year ∧ t.date.year ≤ 9999))

lemma yearText_eq (h : t.HasPlainYear) :
    yearText t.date.year = Decimal.padded 4 t.date.year.toNat :=
  if_pos h

lemma isPlain_of_mem_text (h : t.HasPlainYear) : ∀ c ∈ t.text.toList, IsPlain c := by
  have hdigits : ∀ width n, ∀ c ∈ Decimal.padded width n, IsPlain c :=
    fun _ _ _ hc => isPlain_of_isDigit (Decimal.isDigit_of_mem_padded hc)
  have hmarks : IsPlain '-' ∧ IsPlain 'T' ∧ IsPlain ':' ∧ IsPlain '.' ∧ IsPlain 'Z' := by decide
  rw [text, yearText_eq h, String.toList_ofList]
  simp only [List.forall_mem_append, List.forall_mem_cons, hmarks, true_and]
  exact ⟨⟨⟨⟨⟨⟨⟨hdigits _ _, hdigits _ _⟩, hdigits _ _⟩, hdigits _ _⟩, hdigits _ _⟩, hdigits _ _⟩,
    hdigits _ _⟩, List.forall_mem_nil _⟩

/-- In every part but the year there are as many digits as there can be. -/
lemma length_text (h : t.HasPlainYear) : t.text.toList.length = 24 := by
  have hyear : (Decimal.padded 4 t.date.year.toNat).length = 4 := by
    have hle := h.2
    exact Decimal.length_padded (by decide) (by change t.date.year.toNat < 10000; omega)
  have htwo : ∀ n < 100, (Decimal.padded 2 n).length = 2 :=
    fun n hn => Decimal.length_padded (by decide) hn
  have hmonth : t.date.month < 100 := Nat.lt_of_le_of_lt t.date.month_mem.2 (by decide)
  have hhour : t.hour < 100 := Nat.lt_trans t.hour_lt (by decide)
  have hminute : t.minute < 100 := Nat.lt_trans t.minute_lt (by decide)
  have hsecond : t.second < 100 := Nat.lt_of_le_of_lt t.second_le (by decide)
  have hmillis : (Decimal.padded 3 (t.nanos / 1000000)).length = 3 := by
    have hlt := t.nanos_lt
    exact Decimal.length_padded (by decide) (by change t.nanos / 1000000 < 1000; omega)
  rw [text, yearText_eq h, String.toList_ofList]
  simp only [List.length_append, List.length_cons, List.length_nil, hyear, htwo _ hmonth,
    htwo _ (day_lt t.date), htwo _ hhour, htwo _ hminute, htwo _ hsecond, hmillis]

lemma size_toJson (h : t.HasPlainYear) : t.toJson.size = 26 := by
  rw [toJson, size_ofText (isPlain_of_mem_text h), length_text h]

end Timestamp

/-! ### Identifiers -/

/-- The characters of a universally unique identifier: its digits in five groups. -/
def Uuid.characters (id : Block 16) : List Char :=
  (id.toList.take 4).flatMap Hex.digits ++ '-' :: ((id.toList.drop 4).take 2).flatMap Hex.digits
    ++ '-' :: ((id.toList.drop 6).take 2).flatMap Hex.digits
    ++ '-' :: ((id.toList.drop 8).take 2).flatMap Hex.digits
    ++ '-' :: (id.toList.drop 10).flatMap Hex.digits

/-- The text of a universally unique identifier. -/
def Uuid.text (id : Block 16) : String := String.ofList (characters id)

lemma Hex.isPlain_of_mem_digits {b : UInt8} : ∀ c ∈ Hex.digits b, IsPlain c := by
  have hdigit : ∀ n < 16, IsPlain (Nat.digitChar n) := by decide
  have hb := b.toNat_lt
  rw [Hex.digits, List.forall_mem_cons, List.forall_mem_singleton]
  exact ⟨hdigit _ (by omega), hdigit _ (by omega)⟩

lemma Uuid.size_ofText (id : Block 16) : (ofText (text id)).size = 38 := by
  have hlength : ∀ bs : Bytes, (bs.flatMap Hex.digits).length = 2 * bs.length := by
    intro bs
    rw [List.length_flatMap]
    simp [Hex.digits, Nat.mul_comm]
  have hdash : IsPlain '-' := by decide
  have hplain : ∀ bs : Bytes, ∀ c ∈ bs.flatMap Hex.digits, IsPlain c := by
    intro bs c hc
    obtain ⟨b, -, hc⟩ := List.mem_flatMap.mp hc
    exact Hex.isPlain_of_mem_digits c hc
  have hid := id.length_toList
  rw [Json.size_ofText]
  · simp [text, characters, hlength, hid]
  · rw [text, characters, String.toList_ofList]
    simp only [List.forall_mem_append, List.forall_mem_cons]
    exact ⟨⟨⟨⟨hplain _, hdash, hplain _⟩, hdash, hplain _⟩, hdash, hplain _⟩, hdash, hplain _⟩

/-! ### Bodies -/

variable {now now' : Timestamp}

/-- A handshake composed at another time, and with another generated identifier. -/
theorem Handshake.size_compose (hnow : now.HasPlainYear) (hnow' : now'.HasPlainYear)
    (id id' : Block 16) (nickname recipientAddress : String) (conversationId : Option String)
    (isResponse : Bool) :
    (compose nickname recipientAddress (conversationId.getD (Uuid.text id)) isResponse
        now).toJson.size =
      (compose nickname recipientAddress (conversationId.getD (Uuid.text id')) isResponse
        now').toJson.size := by
  have hid : (ofText (conversationId.getD (Uuid.text id))).size =
      (ofText (conversationId.getD (Uuid.text id'))).size := by
    cases conversationId with
    | none => rw [Option.getD_none, Option.getD_none, Uuid.size_ofText, Uuid.size_ofText]
    | some conversationId => rfl
  apply size_ofFields_congr
  simp [compose, SameSizes, Timestamp.size_toJson, hnow, hnow', hid]

/-- A backup composed at another time. -/
theorem Backup.size_compose (hnow : now.HasPlainYear) (hnow' : now'.HasPlainYear)
    (partnerAddress nickname conversationId : String) (isResponse : Bool) :
    (compose partnerAddress nickname conversationId isResponse now).toJson.size =
      (compose partnerAddress nickname conversationId isResponse now').toJson.size := by
  apply size_ofFields_congr
  simp [compose, SameSizes, Timestamp.size_toJson, hnow, hnow']

/-- A note composed at another time. -/
theorem Note.size_compose (hnow : now.HasPlainYear) (hnow' : now'.HasPlainYear) (message : String)
    (amount : UInt64) :
    (compose message amount now).toJson.size = (compose message amount now').toJson.size := by
  apply size_ofFields_congr
  simp [compose, SameSizes, Timestamp.size_toJson, hnow, hnow']

end LedgerPost
