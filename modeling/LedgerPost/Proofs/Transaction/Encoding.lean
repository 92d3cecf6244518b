import LedgerPost.Proofs.Bytes.Delimited
import LedgerPost.Proofs.Transaction.Signing

/-!
# Unambiguous encodings

Each part of a transaction is written in a self-delimiting form, so the encoding belongs to one
transaction only. The identifier is the digest of the encoding without signature scripts. It
commits to everything else, unless two different encodings have the same digest.
-/

namespace LedgerPost

/-- Two byte strings with the same digest. -/
structure Blake2b.Collision (key : Key) (data data' : Bytes) : Prop where
  ne : data ≠ data'
  hash_eq : hash key data = hash key data'

/-- An input whose script has a length that fits into a word. -/
def Input.Sized (i : Input) : Prop := i.signatureScript.length < UInt64.size

instance (i : Input) : Decidable i.Sized := inferInstanceAs (Decidable (_ < _))

/-- An output whose script has a length that fits into a word. -/
def Output.Sized (o : Output) : Prop := o.scriptPublicKey.script.length < UInt64.size

instance (o : Output) : Decidable o.Sized := inferInstanceAs (Decidable (_ < _))

namespace Transaction

/-- The lengths of all lists and byte strings of the transaction fit into words. -/
structure Sized (tx : Transaction) : Prop where
  length_inputs : tx.inputs.length < UInt64.size
  inputs : ∀ i ∈ tx.inputs, i.Sized
  length_outputs : tx.outputs.length < UInt64.size
  outputs : ∀ o ∈ tx.outputs, o.Sized
  payload : tx.payload.length < UInt64.size

/-- The bytes whose digest is the identifier. -/
def idBytes (tx : Transaction) : Bytes := tx.unsigned.encode

/-- The transaction with the signature script at each position replaced. -/
def resealed (tx : Transaction) (script : Nat → Bytes → Bytes) : Transaction :=
  { tx with
    inputs := tx.inputs.mapIdx fun n i => { i with signatureScript := script n i.signatureScript } }

end Transaction

/-! ### Parts of a transaction -/

lemma Outpoint.selfDelimiting_encode : SelfDelimiting (fun _ => True) Outpoint.encode := by
  rintro ⟨⟨id⟩, index⟩ ⟨⟨id'⟩, index'⟩ _ _ s t h
  simp only [Outpoint.encode, List.append_assoc] at h
  obtain ⟨hid, h⟩ := Block.selfDelimiting_toList 32 trivial trivial h
  obtain ⟨hindex, h⟩ := Bytes.selfDelimiting_word32 trivial trivial h
  exact ⟨by rw [hid, hindex], h⟩

lemma Input.selfDelimiting_encode : SelfDelimiting Input.Sized Input.encode := by
  rintro ⟨outpoint, script, sequence, count⟩ ⟨outpoint', script', sequence', count'⟩ hi hi' s t h
  simp only [Input.encode, List.append_assoc] at h
  obtain ⟨houtpoint, h⟩ := Outpoint.selfDelimiting_encode trivial trivial h
  obtain ⟨hscript, h⟩ := Varint.selfDelimiting_measured hi hi' h
  obtain ⟨hsequence, h⟩ := Bytes.selfDelimiting_word64 trivial trivial h
  obtain ⟨hcount, h⟩ := List.cons.inj h
  refine ⟨?_, h⟩
  rw [Input.mk.injEq]
  exact ⟨houtpoint, hscript, hsequence, hcount⟩

lemma Output.selfDelimiting_encode : SelfDelimiting Output.Sized Output.encode := by
  rintro ⟨value, ⟨version, script⟩⟩ ⟨value', ⟨version', script'⟩⟩ ho ho' s t h
  simp only [Output.encode, List.append_assoc] at h
  obtain ⟨hvalue, h⟩ := Bytes.selfDelimiting_word64 trivial trivial h
  obtain ⟨hversion, h⟩ := Bytes.selfDelimiting_word16 trivial trivial h
  obtain ⟨hscript, h⟩ := Varint.selfDelimiting_measured ho ho' h
  refine ⟨?_, h⟩
  rw [Output.mk.injEq, ScriptPublicKey.mk.injEq]
  exact ⟨hvalue, hversion, hscript⟩

/-! ### Transactions -/

namespace Transaction

variable {tx tx' : Transaction}

/-- The parts of an encoding in their order. -/
lemma encode_eq (tx : Transaction) :
    tx.encode = Bytes.word16 tx.version ++ (Varint.listed Input.encode tx.inputs
      ++ (Varint.listed Output.encode tx.outputs ++ (Bytes.word64 tx.lockTime
      ++ (tx.subnetworkId.toList ++ (Bytes.word64 tx.gas ++ Varint.measured tx.payload))))) := by
  simp only [encode, Varint.listed, List.append_assoc]

/-- The end of an encoding does not depend on what follows it. -/
lemma selfDelimiting_encode : SelfDelimiting Sized encode := by
  intro tx tx' htx htx' s t h
  simp only [encode_eq, List.append_assoc] at h
  obtain ⟨hversion, h⟩ := Bytes.selfDelimiting_word16 trivial trivial h
  obtain ⟨hinputs, h⟩ := Varint.selfDelimiting_listed Input.selfDelimiting_encode
    ⟨htx.length_inputs, htx.inputs⟩ ⟨htx'.length_inputs, htx'.inputs⟩ h
  obtain ⟨houtputs, h⟩ := Varint.selfDelimiting_listed Output.selfDelimiting_encode
    ⟨htx.length_outputs, htx.outputs⟩ ⟨htx'.length_outputs, htx'.outputs⟩ h
  obtain ⟨hlockTime, h⟩ := Bytes.selfDelimiting_word64 trivial trivial h
  obtain ⟨hsubnetworkId, h⟩ := Block.selfDelimiting_toList 20 trivial trivial h
  obtain ⟨hgas, h⟩ := Bytes.selfDelimiting_word64 trivial trivial h
  obtain ⟨hpayload, h⟩ := Varint.selfDelimiting_measured htx.payload htx'.payload h
  refine ⟨?_, h⟩
  rw [mk.injEq]
  exact ⟨hversion, hinputs, houtputs, hlockTime, hsubnetworkId, hgas, hpayload⟩

/-- Without its signature scripts a transaction is no larger. -/
lemma Sized.unsigned (h : tx.Sized) : tx.unsigned.Sized := by
  obtain ⟨hlength, hinputs, hlength', houtputs, hpayload⟩ := h
  rw [unsigned_eq]
  refine ⟨?_, ?_, hlength', houtputs, hpayload⟩
  · rw [List.length_map]
    exact hlength
  · intro i hi
    obtain ⟨i, -, rfl⟩ := List.mem_map.mp hi
    exact Nat.zero_lt_succ _

/-- Replacing signature scripts changes nothing else. -/
lemma unsigned_resealed (tx : Transaction) (script : Nat → Bytes → Bytes) :
    (tx.resealed script).unsigned = tx.unsigned := by
  have hinputs : (tx.resealed script).inputs.map Input.cleared = tx.inputs.map Input.cleared := by
    apply List.ext_getElem
    · simp [resealed]
    · intro n h₁ h₂
      simp [resealed, Input.cleared]
  rw [unsigned_eq, hinputs]
  rfl

lemma id_congr (h : tx.unsigned = tx'.unsigned) : tx.id = tx'.id := by
  rw [id, h]
  rfl

/-- The encoding belongs to one transaction, and the bytes behind an identifier to one transaction
without signature scripts. So an identifier is that of all transactions that differ in signature
scripts alone, and of no others unless digests collide. -/
theorem encode_unambiguous (htx : tx.Sized) (htx' : tx'.Sized) :
    (tx.encode = tx'.encode ↔ tx = tx') ∧
      (tx.idBytes = tx'.idBytes ↔ tx.unsigned = tx'.unsigned) ∧
      (∀ script, (tx.resealed script).id = tx.id) ∧
      (tx.id = tx'.id ↔
        tx.unsigned = tx'.unsigned ∨ Blake2b.Collision idKey tx.idBytes tx'.idBytes) := by
  have hidBytes : tx.idBytes = tx'.idBytes ↔ tx.unsigned = tx'.unsigned := by
    constructor
    · intro h
      exact selfDelimiting_encode.injective htx.unsigned htx'.unsigned h
    · intro h
      rw [idBytes, h]
      rfl
  refine ⟨⟨selfDelimiting_encode.injective htx htx', congrArg encode⟩, hidBytes, ?_, ?_, ?_⟩
  · intro script
    exact id_congr (unsigned_resealed tx script)
  · intro h
    by_cases hbytes : tx.idBytes = tx'.idBytes
    · exact .inl (hidBytes.mp hbytes)
    · exact .inr ⟨hbytes, congrArg TransactionId.hash h⟩
  · rintro (h | hcollision)
    · exact id_congr h
    · exact congrArg TransactionId.mk hcollision.hash_eq

/-- A transaction with two outputs, whose payload takes a count of more than one byte. -/
def split : Transaction where
  version := 0
  inputs := [.unsigned ⟨⟨.zero 32⟩, 1⟩]
  outputs := [⟨5000, .payToPublicKey (.zero 32)⟩, ⟨7000, .payToPublicKey (.zero 32)⟩]
  lockTime := 0
  subnetworkId := .native
  gas := 0
  payload := List.replicate 300 0xaa

/-- The same transaction with its outputs the other way round. -/
def swapped : Transaction := { split with outputs := split.outputs.reverse }

theorem split_encode_unambiguous :
    split.Sized ∧ swapped.Sized ∧ split.encode ≠ swapped.encode ∧
      split.idBytes ≠ swapped.idBytes ∧ (∀ script, (split.resealed script).id = split.id) ∧
      (split.id = swapped.id → Blake2b.Collision idKey split.idBytes swapped.idBytes) := by
  have hlength : split.payload.length = 300 := List.length_replicate
  have hpayload : split.payload.length < UInt64.size := by
    rw [hlength]
    decide
  have hsplit : split.Sized := ⟨by decide, by decide, by decide, by decide, hpayload⟩
  have hswapped : swapped.Sized := ⟨by decide, by decide, by decide, by decide, hpayload⟩
  have hne : split ≠ swapped := by decide
  have hne' : split.unsigned ≠ swapped.unsigned := by decide
  obtain ⟨hencode, hidBytes, hresealed, hid⟩ := encode_unambiguous hsplit hswapped
  refine ⟨hsplit, hswapped, ?_, ?_, hresealed, ?_⟩
  · rwa [Ne, hencode]
  · rwa [Ne, hidBytes]
  · intro h
    exact (hid.mp h).resolve_left hne'

end Transaction

end LedgerPost
