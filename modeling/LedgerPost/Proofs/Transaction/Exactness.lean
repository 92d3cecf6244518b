import LedgerPost.Proofs.Transaction.Encoding
import LedgerPost.Proofs.Transaction.Mass
import Mathlib.Algebra.Group.Nat.Defs

/-!
# Exact masses and fees

The way to a mass goes through counts that are words and through products and sums, any of which
may be refused. For a transaction whose encoding is not excessively long the counts are words, and
then a mass or fee is refused only if the exact number does not fit itself.
-/

namespace LedgerPost

lemma total_map_le {α : Type} {f g : α → Nat} {as : List α} {k : Nat}
    (h : ∀ a ∈ as, f a ≤ k * g a) : total (as.map f) ≤ k * total (as.map g) := by
  induction as with
  | nil => exact Nat.zero_le _
  | cons a as ih =>
    rw [List.forall_mem_cons] at h
    rw [List.map_cons, List.map_cons, total_cons, total_cons, Nat.mul_add]
    exact Nat.add_le_add h.1 (ih h.2)

lemma Varint.one_le_width (n : UInt64) : 1 ≤ Varint.width n := by
  unfold width
  split
  · exact Nat.le_refl 1
  split
  · decide
  split <;> decide

namespace Transaction

variable {tx tx' : Transaction} {p : MassParameters}

/-! ### Counts and the encoded length -/

/-- What the inputs and the outputs add to the encoded length. -/
lemma totals_le_encodedLength (tx : Transaction) :
    total (tx.inputs.map fun i => inputLength i.dimensions)
      + total (tx.outputs.map fun o => outputLength o.dimension) ≤ tx.encodedLength := by
  rw [encodedLength_eq, List.map_map, List.map_map]
  change total (tx.inputs.map (inputLength ∘ _)) + total (tx.outputs.map (outputLength ∘ _)) ≤ _
  omega

lemma scriptTotal_le (tx : Transaction) : tx.scriptTotal ≤ tx.encodedLength := by
  have houtputs : tx.scriptTotal ≤
      1 * total (tx.outputs.map fun o => outputLength o.dimension) := by
    apply total_map_le
    intro o _
    rw [outputLength, Output.dimension]
    omega
  have htotals := totals_le_encodedLength tx
  omega

lemma signatureCount_le (tx : Transaction) : tx.signatureCount ≤ 6 * tx.encodedLength := by
  have hinputs : tx.signatureCount ≤
      6 * total (tx.inputs.map fun i => inputLength i.dimensions) := by
    apply total_map_le
    intro i _
    have hbyte := i.sigOpCount.toNat_lt
    rw [inputLength]
    omega
  have htotals := totals_le_encodedLength tx
  omega

/-- Placeholders make the encoding at most three times as long. -/
lemma encodedLength_withPlaceholders_le (tx : Transaction) :
    tx.withPlaceholders.encodedLength ≤ 3 * tx.encodedLength := by
  have hinputs : total (tx.inputs.map fun i => inputLength (66, i.sigOpCount)) ≤
      3 * total (tx.inputs.map fun i => inputLength i.dimensions) := by
    apply total_map_le
    intro i _
    have hone : Varint.width (UInt64.ofNat 66) = 1 := by decide
    have hwidth := Varint.one_le_width (UInt64.ofNat i.dimensions.1)
    simp only [inputLength, hone]
    omega
  have hmap : (tx.withPlaceholders.inputs.map Input.dimensions).map inputLength =
      tx.inputs.map fun i => inputLength (66, i.sigOpCount) := by
    rw [map_dimensions_withPlaceholders, List.map_map]
    rfl
  have hlength : tx.withPlaceholders.inputs.length = tx.inputs.length := List.length_map _
  have houtputs : tx.withPlaceholders.outputs = tx.outputs := rfl
  have hpayload : tx.withPlaceholders.payload = tx.payload := rfl
  have hins : (tx.inputs.map Input.dimensions).map inputLength =
      tx.inputs.map fun i => inputLength i.dimensions := List.map_map
  rw [encodedLength_eq, encodedLength_eq, hmap, hlength, houtputs, hpayload, hins]
  omega

/-! ### One check at the end -/

/-- With counts that are words, a mass is refused only when the exact mass does not fit. -/
lemma computeMass_eq_ofNat (h : 6 * tx.encodedLength < UInt64.size) :
    tx.computeMass p = Amount.ofNat (tx.exactMass p) := by
  have hscripts := scriptTotal_le tx
  have hcount := signatureCount_le tx
  obtain ⟨bytes, hbytes⟩ := Amount.exists_ofNat_eq_ok (n := tx.encodedLength) (by omega)
  obtain ⟨scripts, hscripts⟩ := Amount.exists_ofNat_eq_ok (n := tx.scriptTotal) (by omega)
  obtain ⟨signatures, hsignatures⟩ :=
    Amount.exists_ofNat_eq_ok (n := tx.signatureCount) (by omega)
  rw [computeMass, scriptSize_eq, hbytes, hscripts, hsignatures]
  change p.weigh bytes scripts signatures = _
  rw [MassParameters.weigh_eq, Amount.ofNat_eq_ok_iff.mp hbytes, Amount.ofNat_eq_ok_iff.mp hscripts,
    Amount.ofNat_eq_ok_iff.mp hsignatures, exactMass, length_encode_eq_encodedLength]

lemma requiredFee_eq_ofNat (h : 18 * tx.encodedLength < UInt64.size) :
    tx.requiredFee p = Amount.ofNat (tx.withPlaceholders.exactMass p + p.feeBuffer.toNat) := by
  have hlength := encodedLength_withPlaceholders_le tx
  have hsigned : tx.signedMass p = Amount.ofNat (tx.withPlaceholders.exactMass p) :=
    computeMass_eq_ofNat (by omega)
  apply (failsOnOverflow_requiredFee p tx).eq_ofNat
  intro fee
  constructor
  · exact toNat_requiredFee
  · intro hfee
    have hsize := fee.toNat_lt_size
    obtain ⟨mass, hmass⟩ :=
      Amount.exists_ofNat_eq_ok (n := tx.withPlaceholders.exactMass p) (by omega)
    rw [requiredFee_eq_ok_iff]
    exact ⟨mass, hsigned.trans hmass, by rw [hfee, Amount.ofNat_eq_ok_iff.mp hmass]⟩

/-- Signature scripts of the right length have the dimensions of placeholders. -/
lemma sameDimensions_resealed {script : Nat → Bytes → Bytes}
    (h : ∀ n bs, (script n bs).length = 66) :
    SameDimensions tx.withPlaceholders (tx.resealed script) := by
  refine ⟨?_, rfl, rfl⟩
  rw [map_dimensions_withPlaceholders]
  apply List.ext_getElem
  · simp [resealed]
  · intro n h₁ h₂
    simp [resealed, Input.dimensions, h]

/-- A mass is the exact one, and refused if that does not fit. A fee is the exact mass with any
signature scripts of the right length, and the buffer; and it is refused if that does not fit. So
it depends neither on the signature scripts nor on outpoints and values. -/
theorem mass_and_fee_exact (p : MassParameters) (h : tx.encode.length < 2 ^ 56) :
    tx.computeMass p = Amount.ofNat (tx.exactMass p) ∧
    (∀ script : Nat → Bytes → Bytes, (∀ n bs, (script n bs).length = 66) →
      tx.requiredFee p = Amount.ofNat ((tx.resealed script).exactMass p + p.feeBuffer.toNat)) ∧
    ∀ tx' : Transaction, tx'.inputs.map (·.sigOpCount) = tx.inputs.map (·.sigOpCount) →
      tx'.outputs.map (·.scriptPublicKey) = tx.outputs.map (·.scriptPublicKey) →
      tx'.payload = tx.payload → tx'.requiredFee p = tx.requiredFee p := by
  rw [length_encode_eq_encodedLength] at h
  have hsize : 18 * tx.encodedLength < UInt64.size := by
    rw [UInt64.size]
    omega
  refine ⟨computeMass_eq_ofNat (by omega), ?_, ?_⟩
  · intro script hscript
    rw [requiredFee_eq_ofNat hsize, (sameDimensions_resealed hscript).exactMass_eq]
  · intro tx' hin hout hpayload
    apply requiredFee_congr hin
    · have hlengths := congrArg (List.map fun s : ScriptPublicKey => s.script.length) hout
      rw [List.map_map, List.map_map] at hlengths
      exact hlengths
    · rw [hpayload]

/-- Weights of which the first is so large that most transactions have no mass. -/
def heavy : MassParameters := { MassParameters.standard with perByte := 1152921504606846976 }

theorem split_mass_and_fee_exact :
    split.encode.length < 2 ^ 56 ∧ split.computeMass .standard = .ok 2199 ∧
      split.computeMass heavy = .error .amountOverflow ∧ split.requiredFee .standard = .ok 2268 ∧
      swapped.requiredFee .standard = .ok 2268 := by
  have hlength : split.encode.length < 2 ^ 56 := by
    rw [length_encode_eq_encodedLength]
    decide +kernel
  obtain ⟨hmass, hfee, hsame⟩ := mass_and_fee_exact .standard hlength
  obtain ⟨hheavy, -⟩ := mass_and_fee_exact heavy hlength
  have hfee' := hfee (fun _ _ => Script.placeholder) fun _ _ => by decide
  have hfee'' : split.requiredFee .standard = .ok 2268 := by
    rw [hfee']
    decide +kernel
  refine ⟨hlength, ?_, ?_, hfee'', ?_⟩
  · rw [hmass]
    decide +kernel
  · rw [hheavy]
    decide +kernel
  · rw [hsame swapped (by decide) (by decide) rfl, hfee'']

end Transaction

end LedgerPost
