import LedgerPost.Proofs.Bytes.Hex
import LedgerPost.Proofs.Json.Parser

/-!
# Documents that lose nothing

A kind of document is given by a writer and a reader of JSON values. If the reader finds each value
that the writer wrote, then texts of the kind lose nothing: a printed value is read back, and a text
that somebody else wrote is printed in one form only.
-/

namespace LedgerPost

namespace Json

variable {α : Type} {write : α → Json} {read : Json → Option α}

/-- A reader finds what a writer wrote, which can be printed. -/
structure Faithful (write : α → Json) (read : Json → Option α) : Prop where
  isSpelled : ∀ x, (write x).IsSpelled
  read_write : ∀ x, read (write x) = some x

/-- The text of what a text says, in the writer's own form. -/
def reprint? (write : α → Json) (read : Json → Option α) (s : String) : Option String :=
  (read? read s).map fun x => (write x).compact

/-- The texts of a kind of document lose nothing. -/
structure Lossless (write : α → Json) (read : Json → Option α) : Prop where
  /-- A printed value is read back. -/
  read?_compact : ∀ x, read? read (write x).compact = some x
  /-- A text is that of one value. -/
  compact_inj : ∀ x y, (write x).compact = (write y).compact → x = y
  /-- A text that is printed again keeps its value, and keeps its form from then on. -/
  reprint?_stable : ∀ s t, reprint? write read s = some t →
    read? read t = read? read s ∧ reprint? write read t = some t

namespace Faithful

lemma read?_compact (h : Faithful write read) (x : α) :
    read? read (write x).compact = some x := by
  rw [Json.read?_compact (h.isSpelled x), h.read_write]

theorem lossless (h : Faithful write read) : Lossless write read := by
  refine ⟨h.read?_compact, ?_, ?_⟩
  · intro x y hxy
    have hread : some x = some y := by
      rw [← h.read?_compact x, ← h.read?_compact y, hxy]
    exact Option.some.inj hread
  · intro s t hst
    obtain ⟨x, hx, rfl⟩ := Option.map_eq_some_iff.mp hst
    rw [hx, reprint?, h.read?_compact]
    exact ⟨rfl, rfl⟩

end Faithful

/-! ### Parts of a document -/

lemma faithful_text : Faithful ofText text? := ⟨isSpelled_ofText, text?_ofText⟩

lemma faithful_word64 : Faithful (fun n : UInt64 => ofNat n.toNat) word64? :=
  ⟨fun n => isSpelled_ofNat n.toNat, word64?_ofNat⟩

@[simp] lemma isSpelled_ofBytes (bs : Bytes) : (ofBytes bs).IsSpelled :=
  isSpelled_ofText (Hex.encode bs)

@[simp] lemma bytes?_ofBytes (bs : Bytes) : (ofBytes bs).bytes? = some bs := by
  rw [bytes?, ofBytes, text?_ofText, Option.bind_some, Hex.decode_encode]
  rfl

@[simp] lemma block?_ofBytes {n : Nat} (b : Block n) : (ofBytes b.toList).block? n = some b := by
  rw [block?, ofBytes, text?_ofText, Option.bind_some, Hex.decodeBlock_encode]
  rfl

/-! ### Lists and values that may be missing -/

/-- A list is read back if its items are. -/
theorem Faithful.list (h : Faithful write read) : Faithful (ofList write) (list? read) where
  isSpelled xs := by
    rw [ofList, isSpelled_array, List.forall_mem_map]
    intro x _
    exact h.isSpelled x
  read_write xs := by
    rw [ofList, list?]
    induction xs with
    | nil => rfl
    | cons x xs ih =>
      rw [List.map_cons, List.mapM_cons, h.read_write, ih]
      rfl

/-- A value that may be missing is read back if it is never written as what stands for nothing. -/
theorem Faithful.option (h : Faithful write read) (hnull : ∀ x, write x ≠ .null) :
    Faithful (ofOption write) (option? read) where
  isSpelled x := by
    cases x with
    | none => simp [ofOption, IsSpelled, tokens, Token.IsSpelled]
    | some x => exact h.isSpelled x
  read_write x := by
    cases x with
    | none => rfl
    | some x =>
      rw [ofOption, option?, h.read_write]
      · rfl
      · exact hnull x

end Json

end LedgerPost
