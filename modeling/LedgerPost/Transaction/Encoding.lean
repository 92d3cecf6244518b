import LedgerPost.Bytes.Varint
import LedgerPost.Hash.Blake2b
import LedgerPost.Total
import LedgerPost.Transaction.Basic

/-!
# The encoding of transactions

The canonical byte form, its length, and the identifier, which is the digest of the byte form
without signature scripts.
-/

namespace LedgerPost

/-- The bytes of an outpoint. -/
def Outpoint.encode (o : Outpoint) : Bytes :=
  o.transactionId.hash.toList ++ Bytes.word32 o.index

/-- The bytes of an input. -/
def Input.encode (i : Input) : Bytes :=
  i.previousOutpoint.encode ++ Varint.measured i.signatureScript ++ Bytes.word64 i.sequence
    ++ [i.sigOpCount]

/-- The bytes of an output. -/
def Output.encode (o : Output) : Bytes :=
  Bytes.word64 o.value ++ Bytes.word16 o.scriptPublicKey.version
    ++ Varint.measured o.scriptPublicKey.script

namespace Transaction

/-- The bytes of a transaction. -/
def encode (tx : Transaction) : Bytes :=
  Bytes.word16 tx.version
    ++ Varint.encode (UInt64.ofNat tx.inputs.length) ++ tx.inputs.flatMap Input.encode
    ++ Varint.encode (UInt64.ofNat tx.outputs.length) ++ tx.outputs.flatMap Output.encode
    ++ Bytes.word64 tx.lockTime ++ tx.subnetworkId.toList ++ Bytes.word64 tx.gas
    ++ Varint.measured tx.payload

/-! ### Length -/

/-- The length of a byte string together with the count in front of it. -/
def measuredLength (bs : Bytes) : Nat := Varint.width bs.count + bs.length

/-- The length of the bytes of a transaction, found without writing them. -/
def encodedLength (tx : Transaction) : Nat :=
  let inputs := tx.inputs.map fun i => 32 + 4 + measuredLength i.signatureScript + 8 + 1
  let outputs := tx.outputs.map fun o => 8 + 2 + measuredLength o.scriptPublicKey.script
  2 + Varint.width (UInt64.ofNat tx.inputs.length) + total inputs
    + Varint.width (UInt64.ofNat tx.outputs.length) + total outputs
    + 8 + 20 + 8 + measuredLength tx.payload

/-! ### Identifiers -/

/-- The key under which identifiers are hashed. -/
def idKey : Blake2b.Key := ⟨Bytes.ofText "TransactionID", by decide⟩

/-- The identifier of a transaction, which no signature changes. -/
def id (tx : Transaction) : TransactionId := ⟨Blake2b.hash idKey tx.unsigned.encode⟩

end Transaction

end LedgerPost
