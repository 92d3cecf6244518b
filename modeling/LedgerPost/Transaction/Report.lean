import LedgerPost.Ledger.Address.Basic
import LedgerPost.Transaction.Digest
import LedgerPost.Transaction.Document

/-!
# Reported transactions

A transaction as somebody else reports it, with what they know about the outputs that it
consumes. A report is refused only when a signature does not fit; an input that cannot be checked
is skipped.
-/

namespace LedgerPost

/-! ### Reports -/

/-- An input as it is reported. -/
structure ReportedInput where
  previousOutpoint : Outpoint
  signatureScript : Bytes
  sequence : UInt64
  sigOpCount : UInt8
  spenderAddress : Option String
  spentAmount : Option UInt64
  deriving DecidableEq

/-- A transaction as it is reported. -/
structure Report where
  inputs : List ReportedInput
  outputs : List Output
  version : UInt16
  lockTime : UInt64
  subnetworkId : SubnetworkId
  gas : UInt64
  payload : Bytes
  deriving DecidableEq

/-- The reported input without what is known about the consumed output. -/
def ReportedInput.toInput (i : ReportedInput) : Input :=
  ⟨i.previousOutpoint, i.signatureScript, i.sequence, i.sigOpCount⟩

/-- The reported transaction without what is known about the consumed outputs. -/
def Report.toTransaction (r : Report) : Transaction where
  version := r.version
  inputs := r.inputs.map ReportedInput.toInput
  outputs := r.outputs
  lockTime := r.lockTime
  subnetworkId := r.subnetworkId
  gas := r.gas
  payload := r.payload

namespace ReportedInput

/-- The document of a reported input. -/
def toJson (i : ReportedInput) : Json := .ofFields [
  ("previousOutpoint", i.previousOutpoint.toJson),
  ("signatureScript", .ofBytes i.signatureScript),
  ("sequence", .ofNat i.sequence.toNat),
  ("sigOpCount", .ofNat i.sigOpCount.toNat),
  ("spenderAddress", .ofOption .ofText i.spenderAddress),
  ("spentAmount", .ofOption (fun a => .ofNat a.toNat) i.spentAmount)]

/-- Reads the document of a reported input. -/
def ofJson? (v : Json) : Option ReportedInput := do
  let fields ← v.fields? ["previousOutpoint", "signatureScript", "sequence", "sigOpCount",
    "spenderAddress", "spentAmount"]
  return {
    previousOutpoint := ← fields.required "previousOutpoint" Outpoint.ofJson?
    signatureScript := ← fields.required "signatureScript" Json.bytes?
    sequence := ← fields.required "sequence" Json.word64?
    sigOpCount := ← fields.required "sigOpCount" Json.word8?
    spenderAddress := ← fields.optional "spenderAddress" Json.text?
    spentAmount := ← fields.optional "spentAmount" Json.word64? }

end ReportedInput

namespace Report

/-- The document of a report. -/
def toJson (r : Report) : Json := .ofFields [
  ("inputs", .ofList ReportedInput.toJson r.inputs),
  ("outputs", .ofList Output.toJson r.outputs),
  ("version", .ofNat r.version.toNat),
  ("lockTime", .ofNat r.lockTime.toNat),
  ("subnetworkId", .ofBytes r.subnetworkId.toList),
  ("gas", .ofNat r.gas.toNat),
  ("payload", .ofBytes r.payload)]

/-- Reads the document of a report. -/
def ofJson? (v : Json) : Option Report := do
  let fields ← v.fields? ["inputs", "outputs", "version", "lockTime", "subnetworkId", "gas",
    "payload"]
  return {
    inputs := ← fields.required "inputs" (Json.list? ReportedInput.ofJson?)
    outputs := ← fields.required "outputs" (Json.list? Output.ofJson?)
    version := ← fields.required "version" Json.word16?
    lockTime := ← fields.required "lockTime" Json.word64?
    subnetworkId := ← fields.required "subnetworkId" (Json.block? 20)
    gas := ← fields.required "gas" Json.word64?
    payload := ← fields.required "payload" Json.bytes? }

end Report

/-! ### Verdicts -/

/-- Why an input cannot be checked. -/
inductive SkipReason
  | unknownScript
  | noAddress
  | noAmount
  | unresolved (e : Error)
  | notPublicKey
  | noDigest (e : Error)
  deriving DecidableEq

/-- The wording of a reason. -/
def SkipReason.message : SkipReason → String
  | .unknownScript => "unrecognized signature script"
  | .noAddress => "spender address not reported"
  | .noAmount => "spent amount not reported"
  | .unresolved e => e.message
  | .notPublicKey => "spent script is not pay-to-public-key"
  | .noDigest e => e.message

/-- What a check says about an input. -/
inductive Verdict
  | verified
  | mismatch
  | skipped (reason : SkipReason)
  deriving DecidableEq

/-- What the checks say about a transaction. -/
inductive Outcome
  | valid
  | invalid (index : Nat)
  | noInputs
  | skipped (index : Nat) (reason : SkipReason)
  deriving DecidableEq

namespace Outcome

/-- Whether a transaction should be kept. -/
def isAcceptable : Outcome → Bool
  | .invalid _ => false
  | _ => true

/-- The document of an outcome. -/
def toJson : Outcome → Json
  | .valid => .ofFields [("outcome", .ofText "valid")]
  | .invalid index => .ofFields [("outcome", .ofText "invalid"), ("inputIndex", .ofNat index)]
  | .noInputs =>
    .ofFields [("outcome", .ofText "inconclusive"), ("reason", .ofText "transaction has no inputs")]
  | .skipped index reason => .ofFields [
    ("outcome", .ofText "inconclusive"),
    ("reason", .ofText s!"input {index}: {reason.message}")]

end Outcome

/-! ### Checks -/

namespace Report

/-- The public key that a script pays to. -/
def payee? (script : ScriptPublicKey) : Option PublicKey :=
  (Script.publicKey? script.script).bind fun key => PublicKey.ofBytes? key.toList

/-- Checks a signature against the script of the output that an input consumes. -/
def checkSignature (tx : Transaction) (shared : SharedDigests) (index : Nat)
    (signature : Signature) (spent : SpentOutput) : Verdict :=
  match payee? spent.scriptPublicKey with
  | none => .skipped .notPublicKey
  | some key =>
    match tx.inputDigest shared index spent with
    | .error e => .skipped (.noDigest e)
    | .ok digest => if Schnorr.verify key digest signature then .verified else .mismatch

/-- Checks an input. Only a fatal error of the resolver is an error here. -/
def checkInput (resolver : Resolver) (tx : Transaction) (shared : SharedDigests) (index : Nat)
    (input : ReportedInput) : Except Error Verdict :=
  match Script.signature? input.signatureScript, input.spenderAddress, input.spentAmount with
  | none, _, _ => .ok (.skipped .unknownScript)
  | some _, none, _ => .ok (.skipped .noAddress)
  | some _, some _, none => .ok (.skipped .noAmount)
  | some signature, some address, some amount =>
    match resolver address with
    | .ok script => .ok (checkSignature tx shared index signature ⟨amount, script⟩)
    | .error e => if e.isFatal then .error e else .ok (.skipped (.unresolved e))

/-- Draws the outcome from the inputs that are left, after the first one that was skipped. -/
def outcomeFrom (check : Nat → ReportedInput → Except Error Verdict)
    (skipped : Option (Nat × SkipReason)) :
    List (ReportedInput × Nat) → Except Error Outcome
  | [] =>
    match skipped with
    | some (index, reason) => .ok (.skipped index reason)
    | none => .ok .valid
  | (input, index) :: rest =>
    match check index input with
    | .error e => .error e
    | .ok .verified => outcomeFrom check skipped rest
    | .ok .mismatch => .ok (.invalid index)
    | .ok (.skipped reason) => outcomeFrom check (skipped.or (some (index, reason))) rest

/-- Checks each input up to the first mismatch. -/
def verify (resolver : Resolver) (r : Report) : Except Error Outcome :=
  if r.inputs.isEmpty then .ok .noInputs
  else
    let tx := r.toTransaction
    outcomeFrom (checkInput resolver tx tx.sharedDigests) none r.inputs.zipIdx

/-- Whether a reported transaction should be kept. -/
def isAcceptable (resolver : Resolver) (r : Report) : Except Error Bool :=
  (r.verify resolver).map Outcome.isAcceptable

end Report

end LedgerPost
