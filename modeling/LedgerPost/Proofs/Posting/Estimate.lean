import LedgerPost.Proofs.Bytes.Varint
import LedgerPost.Proofs.Ledger.Config
import LedgerPost.Proofs.Posting.Fee
import LedgerPost.Proofs.Transaction.Exactness
import Mathlib.Tactic.Ring

/-!
# What an estimate depends on

The fee that is estimated for a choice of outputs is that of a draft, which is not signed yet. So
it depends on how many outputs are chosen and on nothing else about them. One more output costs a
signature, the bytes of a signed input, and those by which the count of the inputs gets wider.
-/

namespace LedgerPost

lemma total_replicate (n k : Nat) : total (List.replicate n k) = k * n := by
  induction n with
  | zero => rfl
  | succ n ih =>
    rw [List.replicate_succ, total_cons, ih, Nat.mul_succ, Nat.add_comm]

lemma length_le_total {ns : List Nat} (h : ∀ n ∈ ns, 1 ≤ n) : ns.length ≤ total ns := by
  induction ns with
  | nil => exact Nat.le_refl 0
  | cons n ns ih =>
    rw [List.forall_mem_cons] at h
    rw [List.length_cons, total_cons, Nat.add_comm n]
    exact Nat.add_le_add (ih h.2) h.1

/-! ### Drafts by number -/

namespace Transaction

variable {p : MassParameters} {outs : List Output} {payload : Bytes}
  {chosen chosen' : List UnspentOutput} {m n : Nat}

/-- What the encoding of a draft takes beside its inputs and their count. -/
def outerLength (outs : List Output) (payload : Bytes) : Nat :=
  2 + Varint.width (UInt64.ofNat outs.length)
    + total ((outs.map Output.dimension).map outputLength) + 8 + 20 + 8 + measuredLength payload

/-- The size of output scripts, each with its version. -/
def scriptsLength (outs : List Output) : Nat := total ((outs.map Output.dimension).map (2 + ·))

/-- What the encoding takes for a number of inputs of the same length, with their count. -/
def inputsLength (each n : Nat) : Nat := Varint.width (UInt64.ofNat n) + each * n

/-- The fee of a draft with the given number of inputs, without a bound. A signed input takes 112
bytes. -/
def exactFee (p : MassParameters) (outs : List Output) (payload : Bytes) (n : Nat) : Nat :=
  (outerLength outs payload + inputsLength 112 n) * p.perByte.toNat
    + scriptsLength outs * p.perScriptByte.toNat + n * p.perSignature.toNat + p.feeBuffer.toNat

lemma map_dimensions_draft (chosen : List UnspentOutput) (outs : List Output) (payload : Bytes) :
    (draft chosen outs payload).inputs.map Input.dimensions =
      List.replicate chosen.length (0, 1) := by
  rw [draft_inputs, List.map_map, ← List.map_const']
  rfl

lemma map_dimensions_draft_withPlaceholders (chosen : List UnspentOutput) (outs : List Output)
    (payload : Bytes) :
    (draft chosen outs payload).withPlaceholders.inputs.map Input.dimensions =
      List.replicate chosen.length (66, 1) := by
  rw [map_dimensions_withPlaceholders, draft_inputs, List.map_map, ← List.map_const']
  rfl

/-- An input that is not signed yet takes 46 bytes. -/
lemma encodedLength_draft (chosen : List UnspentOutput) (outs : List Output) (payload : Bytes) :
    (draft chosen outs payload).encodedLength =
      outerLength outs payload + inputsLength 46 chosen.length := by
  have hinput : inputLength (0, 1) = 46 := by decide
  have hlength : (draft chosen outs payload).inputs.length = chosen.length :=
    (length_draft_inputs ..).symm
  have houtputs : (draft chosen outs payload).outputs = outs := rfl
  have hpayload : (draft chosen outs payload).payload = payload := rfl
  rw [encodedLength_eq, map_dimensions_draft, List.map_replicate, total_replicate, hlength,
    houtputs, hpayload, hinput, outerLength, inputsLength]
  omega

lemma exactMass_draft (p : MassParameters) (chosen : List UnspentOutput) (outs : List Output)
    (payload : Bytes) :
    (draft chosen outs payload).withPlaceholders.exactMass p + p.feeBuffer.toNat =
      exactFee p outs payload chosen.length := by
  have hinput : inputLength (66, 1) = 112 := by decide
  have hlength : (draft chosen outs payload).withPlaceholders.inputs.length = chosen.length :=
    (List.length_map _).trans (length_draft_inputs ..).symm
  have houtputs : (draft chosen outs payload).withPlaceholders.outputs = outs := rfl
  have hpayload : (draft chosen outs payload).withPlaceholders.payload = payload := rfl
  have hcount : (1 : UInt8).toNat = 1 := rfl
  rw [exactMass_eq, map_dimensions_draft_withPlaceholders, List.map_replicate, List.map_replicate,
    total_replicate, total_replicate, hlength, houtputs, hpayload, hinput, hcount, exactFee,
    outerLength, inputsLength, scriptsLength, Nat.one_mul]
  congr 4
  omega

/-- The fee of a draft that is not excessively long is the exact one, and refused if that does not
fit. -/
lemma requiredFee_draft (h : (draft chosen outs payload).encode.length < 2 ^ 56) :
    (draft chosen outs payload).requiredFee p =
      Amount.ofNat (exactFee p outs payload chosen.length) := by
  rw [length_encode_eq_encodedLength] at h
  rw [← exactMass_draft]
  apply requiredFee_eq_ofNat
  rw [UInt64.size]
  omega

/-- The inputs and the outputs of a draft are no more than its bytes. -/
lemma lengths_le_encode (chosen : List UnspentOutput) (outs : List Output) (payload : Bytes) :
    chosen.length + outs.length ≤ (draft chosen outs payload).encode.length := by
  have houts : ((outs.map Output.dimension).map outputLength).length ≤
      total ((outs.map Output.dimension).map outputLength) := by
    apply length_le_total
    intro n hn
    obtain ⟨d, -, rfl⟩ := List.mem_map.mp hn
    rw [outputLength]
    omega
  rw [List.length_map, List.length_map] at houts
  rw [length_encode_eq_encodedLength, encodedLength_draft, outerLength, inputsLength]
  omega

/-! ### One more input, one more output -/

lemma inputsLength_le (each : Nat) (h : m ≤ n) (hn : n < UInt64.size) :
    inputsLength each m ≤ inputsLength each n :=
  Nat.add_le_add (Varint.width_ofNat_le h hn) (Nat.mul_le_mul_left each h)

/-- One more input adds a signature operation, its bytes, and what its count takes more. -/
lemma exactFee_succ (h : n + 1 < UInt64.size) :
    exactFee p outs payload (n + 1) = exactFee p outs payload n + p.perSignature.toNat
      + p.perByte.toNat * (112 + Varint.growth n) := by
  rw [exactFee, exactFee, inputsLength, inputsLength, Varint.width_succ h]
  ring

/-- Fewer inputs cost no more. -/
lemma exactFee_le (p : MassParameters) (outs : List Output) (payload : Bytes) (h : m ≤ n)
    (hn : n < UInt64.size) : exactFee p outs payload m ≤ exactFee p outs payload n := by
  have hbytes := Nat.mul_le_mul_right p.perByte.toNat
    (Nat.add_le_add_left (inputsLength_le 112 h hn) (outerLength outs payload))
  have hsignatures := Nat.mul_le_mul_right p.perSignature.toNat h
  rw [exactFee, exactFee]
  omega

/-- One more output adds its bytes. -/
lemma outerLength_lt_concat (payload : Bytes) (o : Output) (h : outs.length + 1 < UInt64.size) :
    outerLength outs payload < outerLength (outs ++ [o]) payload := by
  have hwidth : Varint.width (UInt64.ofNat outs.length) ≤
      Varint.width (UInt64.ofNat (outs.length + 1)) := Varint.width_ofNat_le (Nat.le_succ _) h
  simp only [outerLength, List.length_append, List.length_singleton, List.map_append,
    List.map_singleton, total_append, total_cons, total_nil, outputLength]
  omega

lemma exactFee_add_le_concat (p : MassParameters) (payload : Bytes) (n : Nat) (o : Output)
    (h : outs.length + 1 < UInt64.size) :
    exactFee p outs payload n + p.perByte.toNat ≤ exactFee p (outs ++ [o]) payload n := by
  have hlength := outerLength_lt_concat payload o h
  have hbytes := Nat.mul_le_mul_right p.perByte.toNat
    (Nat.add_lt_add_right hlength (inputsLength 112 n))
  have hscripts : scriptsLength outs ≤ scriptsLength (outs ++ [o]) := by simp [scriptsLength]
  have hweights := Nat.mul_le_mul_right p.perScriptByte.toNat hscripts
  rw [Nat.succ_mul] at hbytes
  rw [exactFee, exactFee]
  omega

end Transaction

/-! ### Estimates -/

namespace Posting

open Transaction

variable {c : Config} {primary : List Output} {script : ScriptPublicKey} {payload : Bytes}
  {chosen chosen' : List UnspentOutput} {withChange asks : Bool} {fee fee' : UInt64}

/-- The outputs of the draft that an estimate is about. -/
def candidateOutputs (primary : List Output) (script : ScriptPublicKey) (withChange : Bool) :
    List Output :=
  primary ++ changeOutputs script (if withChange then some 0 else none)

/-- The draft that an estimate is about. -/
def candidate (primary : List Output) (script : ScriptPublicKey) (payload : Bytes)
    (chosen : List UnspentOutput) (withChange : Bool) : Transaction :=
  draft chosen (candidateOutputs primary script withChange) payload

lemma fee_eq_requiredFee (c : Config) (primary : List Output) (script : ScriptPublicKey)
    (payload : Bytes) (chosen : List UnspentOutput) (withChange : Bool) :
    Posting.fee c primary script payload chosen withChange =
      (candidate primary script payload chosen withChange).requiredFee c.mass := rfl

lemma candidateOutputs_true (primary : List Output) (script : ScriptPublicKey) :
    candidateOutputs primary script true =
      candidateOutputs primary script false ++ [⟨0, script⟩] := by
  simp [candidateOutputs, changeOutputs]

/-- What one more output does not lessen is no less with change. -/
lemma le_of_candidateOutputs {f : List Output → Nat}
    (hf : ∀ outs o, outs.length + 1 < UInt64.size → f outs ≤ f (outs ++ [o]))
    (hasks : asks ≤ withChange)
    (h : (candidateOutputs primary script withChange).length < UInt64.size) :
    f (candidateOutputs primary script asks) ≤ f (candidateOutputs primary script withChange) := by
  cases withChange with
  | false =>
    cases asks with
    | false => exact Nat.le_refl _
    | true => exact absurd hasks (by decide)
  | true =>
    cases asks with
    | false =>
      rw [candidateOutputs_true, List.length_append] at h
      rw [candidateOutputs_true]
      exact hf _ _ h
    | true => exact Nat.le_refl _

lemma lengths_lt_of_encode
    (h : (candidate primary script payload chosen withChange).encode.length < 2 ^ 56) :
    chosen.length < UInt64.size ∧
      (candidateOutputs primary script withChange).length < UInt64.size := by
  have hlengths := lengths_le_encode chosen (candidateOutputs primary script withChange) payload
  rw [candidate] at h
  rw [UInt64.size]
  omega

/-- A fee depends on the number of outputs that are spent and on the length of the payload. -/
lemma fee_congr {payload' : Bytes} (h : chosen.length = chosen'.length)
    (hpayload : payload.length = payload'.length) :
    Posting.fee c primary script payload chosen =
      Posting.fee c primary script payload' chosen' := by
  funext withChange
  apply requiredFee_congr
  · rw [map_sigOpCount_draft, map_sigOpCount_draft, List.map_const', List.map_const', h]
  · rfl
  · exact hpayload

/-- An estimate is exact. -/
lemma toNat_fee (h : Posting.fee c primary script payload chosen withChange = .ok fee) :
    fee.toNat =
      exactFee c.mass (candidateOutputs primary script withChange) payload chosen.length := by
  rw [fee_eq_requiredFee] at h
  rw [toNat_requiredFee h, candidate, exactMass_draft]

/-- An estimate is refused only if the exact fee does not fit. -/
lemma fee_eq_ofNat
    (h : (candidate primary script payload chosen withChange).encode.length < 2 ^ 56) :
    Posting.fee c primary script payload chosen withChange = Amount.ofNat
      (exactFee c.mass (candidateOutputs primary script withChange) payload chosen.length) := by
  rw [fee_eq_requiredFee]
  exact requiredFee_draft h

/-- Fewer inputs make a shorter draft, and so does a change output less. -/
lemma encode_candidate_lt (hle : chosen.length ≤ chosen'.length) (hasks : asks ≤ withChange)
    (h : (candidate primary script payload chosen' withChange).encode.length < 2 ^ 56) :
    (candidate primary script payload chosen asks).encode.length < 2 ^ 56 := by
  obtain ⟨hinputs, houtputs⟩ := lengths_lt_of_encode h
  have hinner := inputsLength_le 46 hle hinputs
  have houter := le_of_candidateOutputs (f := (outerLength · payload))
    (fun _ o hsize => Nat.le_of_lt (outerLength_lt_concat payload o hsize)) hasks houtputs
  rw [candidate, length_encode_eq_encodedLength, encodedLength_draft] at h ⊢
  omega

/-- An estimate that does not overflow is not refused for fewer inputs, nor without change. -/
lemma exists_fee_of_le (hle : chosen.length ≤ chosen'.length) (hasks : asks ≤ withChange)
    (h : (candidate primary script payload chosen' withChange).encode.length < 2 ^ 56)
    (hfee' : Posting.fee c primary script payload chosen' withChange = .ok fee') :
    ∃ fee, Posting.fee c primary script payload chosen asks = .ok fee := by
  obtain ⟨hinputs, houtputs⟩ := lengths_lt_of_encode h
  have hexact := toNat_fee hfee'
  have hchange := le_of_candidateOutputs (f := (exactFee c.mass · payload chosen'.length))
    (fun _ o hsize => Nat.le_of_add_right_le (exactFee_add_le_concat c.mass payload _ o hsize))
    hasks houtputs
  have hfewer := exactFee_le c.mass (candidateOutputs primary script asks) payload hle hinputs
  have hsize := fee'.toNat_lt_size
  rw [fee_eq_ofNat (encode_candidate_lt hle hasks h)]
  exact Amount.exists_ofNat_eq_ok (by omega)

/-- One more input costs a signature operation and its bytes. -/
lemma toNat_fee_succ (hsucc : chosen'.length = chosen.length + 1)
    (h : (candidate primary script payload chosen' withChange).encode.length < 2 ^ 56)
    (hfee : Posting.fee c primary script payload chosen withChange = .ok fee)
    (hfee' : Posting.fee c primary script payload chosen' withChange = .ok fee') :
    fee'.toNat = fee.toNat + c.mass.perSignature.toNat
      + c.mass.perByte.toNat * (112 + Varint.growth chosen.length) := by
  have hinputs := (lengths_lt_of_encode h).1
  rw [hsucc] at hinputs
  rw [toNat_fee hfee', toNat_fee hfee, hsucc, exactFee_succ hinputs]

/-- Change costs at least a byte. -/
lemma fee_lt_of_change (hbyte : c.mass.perByte ≠ 0)
    (h : (candidate primary script payload chosen true).encode.length < 2 ^ 56)
    (hbare : Posting.fee c primary script payload chosen false = .ok fee)
    (hfull : Posting.fee c primary script payload chosen true = .ok fee') : fee < fee' := by
  have houtputs := (lengths_lt_of_encode h).2
  rw [candidateOutputs_true, List.length_append] at houtputs
  have hcosts := exactFee_add_le_concat c.mass payload chosen.length ⟨0, script⟩ houtputs
  rw [← candidateOutputs_true, ← toNat_fee hbare, ← toNat_fee hfull] at hcosts
  rw [← UInt64.pos_iff_ne_zero, UInt64.lt_iff_toNat_lt, UInt64.toNat_zero] at hbyte
  rw [UInt64.lt_iff_toNat_lt]
  omega

/-- An estimate depends on the number of chosen outputs. Unless it overflows, one more of them
raises it by a signature operation and the bytes of a signed input and of a wider count, change
raises it, and for fewer outputs it does not overflow either, with the same outputs or without
change. -/
theorem fee_grows (hvalid : c.Valid) (primary : List Output) (script : ScriptPublicKey)
    (payload : Bytes) (chosen chosen' : List UnspentOutput) (withChange : Bool) :
    (chosen.length = chosen'.length →
      Posting.fee c primary script payload chosen withChange =
        Posting.fee c primary script payload chosen' withChange) ∧
    ((candidate primary script payload chosen' withChange).encode.length < 2 ^ 56 →
      ∀ fee', Posting.fee c primary script payload chosen' withChange = .ok fee' →
        (chosen'.length = chosen.length + 1 →
          ∃ fee, Posting.fee c primary script payload chosen withChange = .ok fee ∧ fee < fee' ∧
            fee'.toNat = fee.toNat + c.mass.perSignature.toNat
              + c.mass.perByte.toNat * (112 + Varint.growth chosen.length)) ∧
        (withChange = true →
          ∃ bare, Posting.fee c primary script payload chosen' false = .ok bare ∧ bare < fee') ∧
        (chosen.length ≤ chosen'.length → ∀ asks ≤ withChange,
          ∃ fee, Posting.fee c primary script payload chosen asks = .ok fee)) := by
  obtain ⟨hbyte, -, hsignature, -⟩ := Config.valid_iff.mp hvalid
  refine ⟨fun h => congrFun (fee_congr h rfl) withChange, ?_⟩
  intro hencode fee' hfee'
  refine ⟨?_, ?_, fun hle asks hasks => exists_fee_of_le hle hasks hencode hfee'⟩
  · intro hsucc
    have hle : chosen.length ≤ chosen'.length := by omega
    obtain ⟨fee, hfee⟩ := exists_fee_of_le hle (Bool.le_refl withChange) hencode hfee'
    have hexact := toNat_fee_succ hsucc hencode hfee hfee'
    refine ⟨fee, hfee, ?_, hexact⟩
    rw [← UInt64.pos_iff_ne_zero, UInt64.lt_iff_toNat_lt, UInt64.toNat_zero] at hsignature
    rw [UInt64.lt_iff_toNat_lt]
    omega
  · rintro rfl
    obtain ⟨bare, hbare⟩ := exists_fee_of_le (Nat.le_refl _) (Bool.false_le true) hencode hfee'
    exact ⟨bare, hbare, fee_lt_of_change hbyte hencode hbare hfee'⟩

/-- Outputs that differ in their index alone. -/
def roll (n : Nat) : List UnspentOutput :=
  (List.range n).map fun i =>
    ⟨⟨⟨.zero 32⟩, UInt32.ofNat i⟩, 1000, .payToPublicKey (.zero 32), false⟩

/-- What is paid out of a roll. -/
def purchase : List Output := [⟨50000, .payToPublicKey (.zero 32)⟩]

/-- The fee that is estimated for a purchase out of a roll. -/
def rollFee (n : Nat) (withChange : Bool) : Except Error UInt64 :=
  Posting.fee (.standard .mainnet) purchase (.payToPublicKey (.zero 32)) [0xaa] (roll n) withChange

/-- The first count that takes three bytes costs two bytes more. -/
theorem roll_fee_grows :
    (Config.standard .mainnet).Valid ∧
      (candidate purchase (.payToPublicKey (.zero 32)) [0xaa] (roll 253) true).encode.length
        < 2 ^ 56 ∧
      rollFee 253 true = .ok 282193 ∧
      (∃ fee, rollFee 252 true = .ok fee ∧ (282193 : UInt64).toNat = fee.toNat + 1000 + 114) ∧
      ∃ bare, rollFee 253 false = .ok bare ∧ bare < 282193 := by
  have hvalid : (Config.standard .mainnet).Valid := by decide
  have hencode : (candidate purchase (.payToPublicKey (.zero 32)) [0xaa] (roll 253)
      true).encode.length < 2 ^ 56 := by
    rw [length_encode_eq_encodedLength]
    decide +kernel
  have hfee : rollFee 253 true = .ok 282193 := by decide +kernel
  obtain ⟨-, h⟩ := fee_grows hvalid purchase (.payToPublicKey (.zero 32)) [0xaa] (roll 252)
    (roll 253) true
  obtain ⟨hsucc, hchange, -⟩ := h hencode 282193 hfee
  obtain ⟨fee, hfee', -, hexact⟩ := hsucc (by simp [roll])
  have hcount : (roll 252).length = 252 := by simp [roll]
  rw [hcount] at hexact
  exact ⟨hvalid, hencode, hfee, ⟨fee, hfee', hexact⟩, hchange rfl⟩

end Posting

end LedgerPost
