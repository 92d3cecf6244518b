import LedgerPost.Ledger.Error
import LedgerPost.Transaction.Encoding

/-!
# Signing digests

What the signature of an input covers: the whole transaction but its signature scripts, the
position of the input, and the amount and script of the output that it consumes. Parts that all
inputs have in common are hashed once.
-/

namespace LedgerPost

/-- The key under which signing digests and their parts are hashed. -/
def signingKey : Blake2b.Key := ⟨Bytes.ofText "TransactionSigningHash", by decide⟩

/-- The digest of a byte string under the signing key. -/
def signingHash (bs : Bytes) : Block 32 := Blake2b.hash signingKey bs

/-- The digests that the inputs of a transaction have in common. -/
structure SharedDigests where
  previousOutpoints : Block 32
  sequences : Block 32
  sigOpCounts : Block 32
  outputs : Block 32
  payload : Block 32
  deriving DecidableEq

/-- The bytes of an output under a signing digest. -/
def Output.signedBytes (o : Output) : Bytes :=
  Bytes.word64 o.value ++ Bytes.word16 o.scriptPublicKey.version
    ++ Bytes.measured o.scriptPublicKey.script

namespace Transaction

/-- The digest of the payload, which is zero for a native transaction without one. -/
def payloadDigest (tx : Transaction) : Block 32 :=
  if tx.subnetworkId = .native ∧ tx.payload = [] then .zero 32
  else signingHash (Bytes.measured tx.payload)

/-- The digests that all inputs have in common. -/
def sharedDigests (tx : Transaction) : SharedDigests where
  previousOutpoints := signingHash (tx.inputs.flatMap fun i => i.previousOutpoint.encode)
  sequences := signingHash (tx.inputs.flatMap fun i => Bytes.word64 i.sequence)
  sigOpCounts := signingHash (tx.inputs.map (·.sigOpCount))
  outputs := signingHash (tx.outputs.flatMap Output.signedBytes)
  payload := tx.payloadDigest

/-- The bytes whose digest is signed for an input. -/
def signedBytes (tx : Transaction) (shared : SharedDigests) (input : Input) (spent : SpentOutput) :
    Bytes :=
  Bytes.word16 tx.version
    ++ shared.previousOutpoints.toList ++ shared.sequences.toList ++ shared.sigOpCounts.toList
    ++ input.previousOutpoint.encode
    ++ Bytes.word16 0 ++ Bytes.measured spent.scriptPublicKey.script
    ++ Bytes.word64 spent.amount
    ++ Bytes.word64 input.sequence ++ [input.sigOpCount]
    ++ shared.outputs.toList
    ++ Bytes.word64 tx.lockTime ++ tx.subnetworkId.toList ++ Bytes.word64 tx.gas
    ++ shared.payload.toList
    ++ [1]

/-- The digest that is signed for the input with the given position. -/
def inputDigest (tx : Transaction) (shared : SharedDigests) (index : Nat) (spent : SpentOutput) :
    Except Error (Block 32) :=
  match tx.inputs[index]? with
  | some input => .ok (signingHash (tx.signedBytes shared input spent))
  | none => .error (.inputOutOfRange index tx.inputs.length)

/-- The digest that is signed for an input, from the transaction alone. -/
def signingDigest (tx : Transaction) (index : Nat) (spent : SpentOutput) :
    Except Error (Block 32) :=
  tx.inputDigest tx.sharedDigests index spent

end Transaction

end LedgerPost
