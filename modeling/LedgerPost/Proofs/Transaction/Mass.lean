import LedgerPost.Transaction.Mass
import LedgerPost.Proofs.Ledger.Amount
import LedgerPost.Proofs.Transaction.Signing

/-!
# Mass before and after signing

Mass depends on lengths and counts alone. So a transaction weighs the same with placeholders as
with its signatures, and a fee that was sized on a draft is right for what is signed. What is
weighed is the exact mass, since each step towards it is checked.
-/

namespace LedgerPost

/-! ### Checked weights -/

/-- The weights are checked one after the other, which is as good as one check of their sum. -/
lemma MassParameters.weigh_eq (p : MassParameters) (bytes scripts signatures : UInt64) :
    p.weigh bytes scripts signatures = Amount.ofNat (bytes.toNat * p.perByte.toNat
      + scripts.toNat * p.perScriptByte.toNat + signatures.toNat * p.perSignature.toNat) := by
  have hchecked := Amount.failsOnOverflow_ofNat
  apply Amount.FailsOnOverflow.eq_ofNat
  · exact (hchecked _).bind fun _ => (hchecked _).bind fun _ => (hchecked _).bind fun _ =>
      (hchecked _).bind fun _ => hchecked _
  · intro mass
    simp only [weigh, bind_eq_ok, Amount.mul_eq_ok_iff, Amount.add_eq_ok_iff]
    constructor
    · rintro ⟨ofBytes, hbytes, ofScripts, hscripts, ofSignatures, hsignatures, sum, hsum, hmass⟩
      omega
    · intro hmass
      -- Each step is no more than the mass, so it fits as well.
      have hsize := mass.toNat_lt_size
      have hword : ∀ n ≤ mass.toNat, ∃ a : UInt64, a.toNat = n := fun n hn =>
        ⟨.ofNat n, UInt64.toNat_ofNat_of_lt' (Nat.lt_of_le_of_lt hn hsize)⟩
      obtain ⟨ofBytes, hbytes⟩ := hword (bytes.toNat * p.perByte.toNat) (by omega)
      obtain ⟨ofScripts, hscripts⟩ := hword (scripts.toNat * p.perScriptByte.toNat) (by omega)
      obtain ⟨ofSignatures, hsignatures⟩ :=
        hword (signatures.toNat * p.perSignature.toNat) (by omega)
      obtain ⟨sum, hsum⟩ := hword (ofBytes.toNat + ofScripts.toNat) (by omega)
      exact ⟨ofBytes, hbytes, ofScripts, hscripts, ofSignatures, hsignatures, sum, hsum, by omega⟩

/-- What mass depends on in an input: the length of its script and its signature operations. -/
def Input.dimensions (i : Input) : Nat × UInt8 := (i.signatureScript.length, i.sigOpCount)

/-- What mass depends on in an output: the length of its script. -/
def Output.dimension (o : Output) : Nat := o.scriptPublicKey.script.length

/-! ### Lengths -/

lemma length_flatMap_eq_total {α : Type} (f : α → Bytes) (as : List α) :
    (as.flatMap f).length = total (as.map fun a => (f a).length) := by
  induction as with
  | nil => rfl
  | cons a as ih => rw [List.flatMap_cons, List.length_append, ih, List.map_cons, total_cons]

lemma Varint.length_measured (bs : Bytes) :
    (Varint.measured bs).length = Transaction.measuredLength bs := by
  rw [Varint.measured, List.length_append, Varint.length_encode, Transaction.measuredLength]

lemma Input.length_encode (i : Input) :
    i.encode.length = 32 + 4 + Transaction.measuredLength i.signatureScript + 8 + 1 := by
  simp only [encode, Outpoint.encode, List.length_append, List.length_singleton,
    Varint.length_measured, Bytes.word32, Bytes.word64, Bytes.length_littleEndian,
    i.previousOutpoint.transactionId.hash.length_toList]

lemma Output.length_encode (o : Output) :
    o.encode.length = 8 + 2 + Transaction.measuredLength o.scriptPublicKey.script := by
  simp only [encode, List.length_append, Varint.length_measured, Bytes.word16, Bytes.word64,
    Bytes.length_littleEndian]

namespace Transaction

variable {tx tx' : Transaction} {key : SecretKey} {spent : List UnspentOutput}
  {p : MassParameters} {mass fee : UInt64}

/-- The length that is found without writing the bytes is that of the bytes. -/
lemma length_encode_eq_encodedLength (tx : Transaction) : tx.encode.length = tx.encodedLength := by
  simp only [encode, encodedLength, List.length_append, Varint.length_encode,
    Varint.length_measured, length_flatMap_eq_total, Input.length_encode, Output.length_encode,
    tx.subnetworkId.length_toList, Bytes.word16, Bytes.word64, Bytes.length_littleEndian]

lemma measuredLength_congr {bs bs' : Bytes} (h : bs.length = bs'.length) :
    measuredLength bs = measuredLength bs' := by
  simp [measuredLength, Bytes.count, h]

/-! ### Mass by dimensions -/

/-- The size of the output scripts, each with its version, without a bound. -/
def scriptTotal (tx : Transaction) : Nat :=
  total (tx.outputs.map fun o => 2 + o.scriptPublicKey.script.length)

/-- The compute mass of a transaction, without a bound: its bytes, its output scripts with their
versions, and its signature operations, each by its weight. -/
def exactMass (p : MassParameters) (tx : Transaction) : Nat :=
  tx.encode.length * p.perByte.toNat + tx.scriptTotal * p.perScriptByte.toNat
    + tx.signatureCount * p.perSignature.toNat

/-- The encoded length of an input, from its dimensions. -/
def inputLength (d : Nat × UInt8) : Nat := 32 + 4 + (Varint.width (UInt64.ofNat d.1) + d.1) + 8 + 1

/-- The encoded length of an output, from its dimension. -/
def outputLength (d : Nat) : Nat := 8 + 2 + (Varint.width (UInt64.ofNat d) + d)

lemma encodedLength_eq (tx : Transaction) :
    tx.encodedLength =
      2 + Varint.width (UInt64.ofNat tx.inputs.length)
        + total ((tx.inputs.map Input.dimensions).map inputLength)
        + Varint.width (UInt64.ofNat tx.outputs.length)
        + total ((tx.outputs.map Output.dimension).map outputLength)
        + 8 + 20 + 8 + measuredLength tx.payload := by
  simp only [List.map_map]
  rfl

lemma scriptTotal_eq (tx : Transaction) :
    tx.scriptTotal = total ((tx.outputs.map Output.dimension).map (2 + ·)) := by
  simp only [List.map_map]
  rfl

lemma signatureCount_eq (tx : Transaction) :
    tx.signatureCount = total ((tx.inputs.map Input.dimensions).map (·.2.toNat)) := by
  simp only [List.map_map]
  rfl

/-- Mass as a function of dimensions. -/
lemma exactMass_eq (p : MassParameters) (tx : Transaction) :
    tx.exactMass p =
      (2 + Varint.width (UInt64.ofNat tx.inputs.length)
          + total ((tx.inputs.map Input.dimensions).map inputLength)
          + Varint.width (UInt64.ofNat tx.outputs.length)
          + total ((tx.outputs.map Output.dimension).map outputLength)
          + 8 + 20 + 8 + measuredLength tx.payload) * p.perByte.toNat
        + total ((tx.outputs.map Output.dimension).map (2 + ·)) * p.perScriptByte.toNat
        + total ((tx.inputs.map Input.dimensions).map (·.2.toNat)) * p.perSignature.toNat := by
  rw [exactMass, length_encode_eq_encodedLength, encodedLength_eq, scriptTotal_eq,
    signatureCount_eq]

/-- The checks of the size of the output scripts are one check. -/
lemma scriptSize_eq (tx : Transaction) : tx.scriptSize = Amount.ofNat tx.scriptTotal := by
  have h := Amount.foldlM_ofNat 0 (tx.outputs.map fun o => 2 + o.scriptPublicKey.script.length)
  rw [List.foldlM_map, UInt64.toNat_zero, Nat.zero_add] at h
  exact h

/-- Transactions with the same script lengths and signature operations, and with payloads of the
same length. -/
structure SameDimensions (tx tx' : Transaction) : Prop where
  inputs : tx.inputs.map Input.dimensions = tx'.inputs.map Input.dimensions
  outputs : tx.outputs.map Output.dimension = tx'.outputs.map Output.dimension
  payload : tx.payload.length = tx'.payload.length

namespace SameDimensions

lemma encodedLength_eq (h : SameDimensions tx tx') : tx.encodedLength = tx'.encodedLength := by
  have hins : tx.inputs.length = tx'.inputs.length := by
    simpa using congrArg List.length h.inputs
  have houts : tx.outputs.length = tx'.outputs.length := by
    simpa using congrArg List.length h.outputs
  rw [Transaction.encodedLength_eq, Transaction.encodedLength_eq, h.inputs, h.outputs, hins, houts,
    measuredLength_congr h.payload]

lemma scriptTotal_eq (h : SameDimensions tx tx') : tx.scriptTotal = tx'.scriptTotal := by
  rw [Transaction.scriptTotal_eq, Transaction.scriptTotal_eq, h.outputs]

lemma signatureCount_eq (h : SameDimensions tx tx') : tx.signatureCount = tx'.signatureCount := by
  rw [Transaction.signatureCount_eq, Transaction.signatureCount_eq, h.inputs]

/-- Transactions of the same dimensions have the same exact mass. -/
lemma exactMass_eq (h : SameDimensions tx tx') : tx.exactMass p = tx'.exactMass p := by
  rw [exactMass, exactMass, length_encode_eq_encodedLength, length_encode_eq_encodedLength,
    h.encodedLength_eq, h.scriptTotal_eq, h.signatureCount_eq]

/-- Transactions of the same dimensions have the same mass, or are refused alike. -/
lemma computeMass_eq (h : SameDimensions tx tx') : tx.computeMass p = tx'.computeMass p := by
  rw [computeMass, computeMass, scriptSize_eq, scriptSize_eq, h.encodedLength_eq, h.scriptTotal_eq,
    h.signatureCount_eq]

end SameDimensions

/-! ### Signatures and placeholders -/

lemma map_dimensions_withPlaceholders (tx : Transaction) :
    tx.withPlaceholders.inputs.map Input.dimensions =
      tx.inputs.map fun i => (66, i.sigOpCount) := by
  simp [withPlaceholders, mapSignatureScripts, Input.dimensions, Script.placeholder]

lemma map_dimensions_signed (h : spent.length = tx.inputs.length) :
    (tx.signed key spent).inputs.map Input.dimensions =
      tx.inputs.map fun i => (66, i.sigOpCount) := by
  apply map_signed_inputs h
  intro i u
  simp [sealInput, Input.dimensions]

/-- Signatures weigh as much as their placeholders. -/
lemma computeMass_signed (h : spent.length = tx.inputs.length) :
    (tx.signed key spent).computeMass p = tx.signedMass p := by
  apply SameDimensions.computeMass_eq
  refine ⟨?_, rfl, rfl⟩
  rw [map_dimensions_signed h, map_dimensions_withPlaceholders]

/-! ### Checked mass -/

/-- A mass is exact. -/
lemma toNat_computeMass (h : tx.computeMass p = .ok mass) : mass.toNat = tx.exactMass p := by
  rw [computeMass, scriptSize_eq] at h
  obtain ⟨bytes, hbytes, h⟩ := bind_eq_ok.mp h
  obtain ⟨scripts, hscripts, h⟩ := bind_eq_ok.mp h
  obtain ⟨signatures, hsignatures, h⟩ := bind_eq_ok.mp h
  rw [MassParameters.weigh_eq, Amount.ofNat_eq_ok_iff] at h
  rw [Amount.ofNat_eq_ok_iff] at hbytes hscripts hsignatures
  rw [h, hbytes, hscripts, hsignatures, exactMass, length_encode_eq_encodedLength]

lemma failsOnOverflow_computeMass (p : MassParameters) (tx : Transaction) :
    Amount.FailsOnOverflow (tx.computeMass p) := by
  rw [computeMass, scriptSize_eq]
  have hchecked := Amount.failsOnOverflow_ofNat
  refine (hchecked _).bind fun _ => (hchecked _).bind fun _ => (hchecked _).bind fun _ => ?_
  rw [MassParameters.weigh_eq]
  exact hchecked _

/-- A fee is the mass of the signed transaction and the buffer. -/
lemma requiredFee_eq_ok_iff :
    tx.requiredFee p = .ok fee ↔
      ∃ mass, tx.signedMass p = .ok mass ∧ fee.toNat = mass.toNat + p.feeBuffer.toNat := by
  simp only [requiredFee, bind_eq_ok, Amount.add_eq_ok_iff]

/-- A fee is the exact mass with placeholders and the buffer. -/
lemma toNat_requiredFee (h : tx.requiredFee p = .ok fee) :
    fee.toNat = tx.withPlaceholders.exactMass p + p.feeBuffer.toNat := by
  obtain ⟨mass, hmass, hfee⟩ := requiredFee_eq_ok_iff.mp h
  rw [hfee, toNat_computeMass hmass]

lemma failsOnOverflow_requiredFee (p : MassParameters) (tx : Transaction) :
    Amount.FailsOnOverflow (tx.requiredFee p) :=
  (failsOnOverflow_computeMass p _).bind fun _ => Amount.failsOnOverflow_ofNat _

/-- The fee of a transaction that is not signed yet depends on its signature operations, its
output scripts and the length of its payload. -/
lemma requiredFee_congr
    (hin : tx.inputs.map (·.sigOpCount) = tx'.inputs.map (·.sigOpCount))
    (hout : tx.outputs.map Output.dimension = tx'.outputs.map Output.dimension)
    (hpayload : tx.payload.length = tx'.payload.length) :
    tx.requiredFee p = tx'.requiredFee p := by
  have hsame : SameDimensions tx.withPlaceholders tx'.withPlaceholders := by
    refine ⟨?_, hout, hpayload⟩
    rw [map_dimensions_withPlaceholders, map_dimensions_withPlaceholders]
    simpa [Function.comp_def] using congrArg (List.map ((66 : Nat), ·)) hin
  rw [requiredFee, requiredFee, signedMass, signedMass, hsame.computeMass_eq]

/-- The fee of a draft is the mass of the signed transaction and the buffer. -/
lemma requiredFee_eq_ok_iff_signed (h : spent.length = tx.inputs.length)
    (hmass : (tx.signed key spent).computeMass p = .ok mass) :
    tx.requiredFee p = .ok fee ↔ fee.toNat = mass.toNat + p.feeBuffer.toNat := by
  rw [requiredFee_eq_ok_iff, ← computeMass_signed h, hmass]
  simp only [Except.ok.injEq, exists_eq_left']

end Transaction

end LedgerPost
