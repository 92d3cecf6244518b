import LedgerPost.Curve.Schnorr
import LedgerPost.Funding.Choice
import LedgerPost.Message.Frame
import LedgerPost.Transaction.Mass
import LedgerPost.Transaction.Signature
import LedgerPost.Transaction.Document

/-!
# Posted messages

A message goes out as a signed transaction that carries it. The steps here turn chosen outputs
and a payload into one: its fee, its outputs, the check of its storage mass, and its signatures.
-/

namespace LedgerPost

/-- A signed transaction, and what is known about it. -/
structure Posted where
  transaction : Transaction
  transactionId : TransactionId
  /-- What the consumed outputs exceed the new ones by. -/
  fee : UInt64
  computeMass : UInt64
  storageMass : UInt64
  /-- The consumed outputs, in the order of the inputs. -/
  spent : List UnspentOutput
  deriving DecidableEq

namespace Posted

/-- The document of a posted message. -/
def toJson (p : Posted) : Json := .ofFields [
  ("transaction", p.transaction.toJson),
  ("transactionId", p.transactionId.toJson),
  ("fee", .ofNat p.fee.toNat),
  ("computeMass", .ofNat p.computeMass.toNat),
  ("storageMass", .ofNat p.storageMass.toNat),
  ("spent", .ofList UnspentOutput.toJson p.spent)]

/-- The frame that the transaction carries. -/
def frame? (p : Posted) : Option Frame := Frame.decode? p.transaction.payload

/-- The sum of the consumed outputs. -/
def inputTotal (p : Posted) : Except Error UInt64 := Funding.sum p.spent

/-- The sum of the new outputs. -/
def outputTotal (p : Posted) : Except Error UInt64 :=
  Amount.sum (p.transaction.outputs.map (·.value))

end Posted

/-! ### From chosen outputs to a signed transaction -/

namespace Posting

/-- The change output, if there is one. -/
def changeOutputs (script : ScriptPublicKey) (change : Option UInt64) : List Output :=
  change.toList.map fun value => ⟨value, script⟩

/-- The fee of a transaction that consumes the chosen outputs, with or without a change output. -/
def fee (c : Config) (primary : List Output) (changeScript : ScriptPublicKey) (payload : Bytes)
    (chosen : List UnspentOutput) (withChange : Bool) : Except Error UInt64 :=
  let change := changeOutputs changeScript (if withChange then some 0 else none)
  (Transaction.draft chosen (primary ++ change) payload).requiredFee c.mass

/-- Makes, checks and signs the transaction. -/
def finish (c : Config) (key : SecretKey) (funding : Funding) (primary : List Output)
    (changeScript : ScriptPublicKey) (payload : Bytes) : Except Error Posted := do
  let change := changeOutputs changeScript (if funding.hasChange then some funding.change else none)
  let tx := Transaction.draft funding.utxos (primary ++ change) payload
  let _ ← Amount.sum (tx.outputs.map (·.value))
  let storageMass := tx.storageMass c.mass (funding.utxos.map UnspentOutput.spent)
  if c.mass.standardLimit < storageMass ∧ c.enforceStorageMass then
    throw (.storageMassExceeded storageMass c.mass.standardLimit)
  let signed ← tx.sign funding.utxos key
  let computeMass ← signed.computeMass c.mass
  return ⟨signed, signed.id, funding.fee, computeMass, storageMass, funding.utxos⟩

/-- Pays an amount out of all outputs. -/
def payFromAll (c : Config) (key : SecretKey) (sender recipient : ScriptPublicKey)
    (amount : UInt64) (payload : Bytes) (utxos : List UnspentOutput) : Except Error Posted := do
  let primary : List Output := [⟨amount, recipient⟩]
  let funding ← Funding.allForAmount utxos amount c.dustThreshold (fee c primary sender payload)
  finish c key funding primary sender payload

/-- Pays an amount out of the largest outputs. -/
def payFromLargest (c : Config) (key : SecretKey) (sender recipient : ScriptPublicKey)
    (amount : UInt64) (payload : Bytes) (utxos : List UnspentOutput) : Except Error Posted := do
  let primary : List Output := [⟨amount, recipient⟩]
  let funding ← Funding.forPayment utxos amount c.dustThreshold (fee c primary sender payload)
  finish c key funding primary sender payload

/-- Pays all outputs back to the sender, less the fee. -/
def payBack (c : Config) (key : SecretKey) (sender : ScriptPublicKey) (payload : Bytes)
    (utxos : List UnspentOutput) : Except Error Posted := do
  let (chosen, total) ← Funding.all utxos 1
  let fee ← fee c [⟨0, sender⟩] sender payload chosen false
  let value := if fee ≤ total then total - fee else 0
  if value ≤ c.dustThreshold then
    let required ← Amount.add (← Amount.add fee c.dustThreshold) 1
    throw (.insufficientFunds required total)
  finish c key ⟨chosen, total, fee, 0⟩ [⟨value, sender⟩] sender payload

end Posting

end LedgerPost
