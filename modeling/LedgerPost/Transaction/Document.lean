import LedgerPost.Transaction.Basic

/-!
# Documents of transactions

Identifiers are written backwards, byte strings in hexadecimal digits.
-/

namespace LedgerPost

namespace TransactionId

/-- The document of an identifier. -/
def toJson (id : TransactionId) : Json := .ofText id.text

/-- Reads the document of an identifier. -/
def ofJson? (v : Json) : Option TransactionId := v.text?.bind fun s => (ofText s).toOption

end TransactionId

namespace Outpoint

/-- The document of an outpoint. -/
def toJson (o : Outpoint) : Json := .ofFields [
  ("transactionId", o.transactionId.toJson),
  ("index", .ofNat o.index.toNat)]

/-- Reads the document of an outpoint. -/
def ofJson? (v : Json) : Option Outpoint := do
  let fields ← v.fields? ["transactionId", "index"]
  return {
    transactionId := ← fields.required "transactionId" TransactionId.ofJson?
    index := ← fields.required "index" Json.word32? }

end Outpoint

namespace SpentOutput

/-- The document of a consumed output. -/
def toJson (s : SpentOutput) : Json := .ofFields [
  ("amount", .ofNat s.amount.toNat),
  ("scriptPublicKey", s.scriptPublicKey.toJson)]

/-- Reads the document of a consumed output. -/
def ofJson? (v : Json) : Option SpentOutput := do
  let fields ← v.fields? ["amount", "scriptPublicKey"]
  return {
    amount := ← fields.required "amount" Json.word64?
    scriptPublicKey := ← fields.required "scriptPublicKey" ScriptPublicKey.ofJson? }

end SpentOutput

namespace UnspentOutput

/-- The document of an unspent output. -/
def toJson (u : UnspentOutput) : Json := .ofFields [
  ("outpoint", u.outpoint.toJson),
  ("amount", .ofNat u.amount.toNat),
  ("scriptPublicKey", u.scriptPublicKey.toJson),
  ("isCoinbase", .bool u.isCoinbase)]

/-- Reads the document of an unspent output. -/
def ofJson? (v : Json) : Option UnspentOutput := do
  let fields ← v.fields? ["outpoint", "amount", "scriptPublicKey", "isCoinbase"]
  return {
    outpoint := ← fields.required "outpoint" Outpoint.ofJson?
    amount := ← fields.required "amount" Json.word64?
    scriptPublicKey := ← fields.required "scriptPublicKey" ScriptPublicKey.ofJson?
    isCoinbase := ← fields.withDefault "isCoinbase" false Json.bool? }

end UnspentOutput

namespace Input

/-- The document of an input. -/
def toJson (i : Input) : Json := .ofFields [
  ("previousOutpoint", i.previousOutpoint.toJson),
  ("signatureScript", .ofBytes i.signatureScript),
  ("sequence", .ofNat i.sequence.toNat),
  ("sigOpCount", .ofNat i.sigOpCount.toNat)]

/-- Reads the document of an input. -/
def ofJson? (v : Json) : Option Input := do
  let fields ← v.fields? ["previousOutpoint", "signatureScript", "sequence", "sigOpCount"]
  return {
    previousOutpoint := ← fields.required "previousOutpoint" Outpoint.ofJson?
    signatureScript := ← fields.required "signatureScript" Json.bytes?
    sequence := ← fields.required "sequence" Json.word64?
    sigOpCount := ← fields.required "sigOpCount" Json.word8? }

end Input

namespace Output

/-- The document of an output. -/
def toJson (o : Output) : Json := .ofFields [
  ("value", .ofNat o.value.toNat),
  ("scriptPublicKey", o.scriptPublicKey.toJson)]

/-- Reads the document of an output. -/
def ofJson? (v : Json) : Option Output := do
  let fields ← v.fields? ["value", "scriptPublicKey"]
  return {
    value := ← fields.required "value" Json.word64?
    scriptPublicKey := ← fields.required "scriptPublicKey" ScriptPublicKey.ofJson? }

end Output

namespace Transaction

/-- The document of a transaction. -/
def toJson (tx : Transaction) : Json := .ofFields [
  ("version", .ofNat tx.version.toNat),
  ("inputs", .ofList Input.toJson tx.inputs),
  ("outputs", .ofList Output.toJson tx.outputs),
  ("lockTime", .ofNat tx.lockTime.toNat),
  ("subnetworkId", .ofBytes tx.subnetworkId.toList),
  ("gas", .ofNat tx.gas.toNat),
  ("payload", .ofBytes tx.payload)]

/-- Reads the document of a transaction. -/
def ofJson? (v : Json) : Option Transaction := do
  let fields ← v.fields? ["version", "inputs", "outputs", "lockTime", "subnetworkId", "gas",
    "payload"]
  return {
    version := ← fields.required "version" Json.word16?
    inputs := ← fields.required "inputs" (Json.list? Input.ofJson?)
    outputs := ← fields.required "outputs" (Json.list? Output.ofJson?)
    lockTime := ← fields.required "lockTime" Json.word64?
    subnetworkId := ← fields.required "subnetworkId" (Json.block? 20)
    gas := ← fields.required "gas" Json.word64?
    payload := ← fields.required "payload" Json.bytes? }

end Transaction

end LedgerPost
