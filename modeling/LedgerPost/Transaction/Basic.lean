import LedgerPost.Bytes.Hex
import LedgerPost.Ledger.Script

/-!
# Transactions

A transaction consumes outputs of earlier ones, its inputs, and makes new outputs. Inputs and
outputs are told apart by their position, so no operation changes their order.
-/

namespace LedgerPost

/-! ### Identifiers -/

/-- The identifier of a transaction, in the order in which it is hashed. It is written backwards. -/
structure TransactionId where
  hash : Block 32
  deriving DecidableEq

/-- The text of an identifier. -/
def TransactionId.text (id : TransactionId) : String := Hex.encode id.hash.reverse.toList

/-- Reads the text of an identifier. -/
def TransactionId.ofText (s : String) : Except HexError TransactionId :=
  (Hex.decodeBlock 32 s).map fun block => ⟨block.reverse⟩

/-- One output of an earlier transaction. -/
structure Outpoint where
  transactionId : TransactionId
  index : UInt32
  deriving DecidableEq

/-- The text of an outpoint. -/
def Outpoint.text (o : Outpoint) : String := s!"{o.transactionId.text}:{o.index}"

/-- The part of the ledger that a transaction belongs to. -/
abbrev SubnetworkId := Block 20

/-- The part of the ledger that moves value and nothing else. -/
def SubnetworkId.native : SubnetworkId := Block.zero 20

/-! ### Inputs and outputs -/

/-- What a signature says about the output that an input consumes. -/
structure SpentOutput where
  amount : UInt64
  scriptPublicKey : ScriptPublicKey
  deriving DecidableEq

/-- An output that can be consumed. -/
structure UnspentOutput where
  outpoint : Outpoint
  amount : UInt64
  scriptPublicKey : ScriptPublicKey
  /-- Whether the output is the reward for a block, which is not spent here. -/
  isCoinbase : Bool
  deriving DecidableEq

/-- The part of an unspent output that a signature covers. -/
def UnspentOutput.spent (u : UnspentOutput) : SpentOutput := ⟨u.amount, u.scriptPublicKey⟩

/-- A consumed output and what unlocks it. -/
structure Input where
  previousOutpoint : Outpoint
  /-- Empty until the input is signed. -/
  signatureScript : Bytes
  sequence : UInt64
  sigOpCount : UInt8
  deriving DecidableEq

/-- The input that consumes an outpoint with one signature, not signed yet. -/
def Input.unsigned (o : Outpoint) : Input := ⟨o, [], 0, 1⟩

/-- A value and what locks it. -/
structure Output where
  value : UInt64
  scriptPublicKey : ScriptPublicKey
  deriving DecidableEq

/-! ### Transactions -/

/-- A transaction. -/
structure Transaction where
  version : UInt16
  inputs : List Input
  outputs : List Output
  lockTime : UInt64
  subnetworkId : SubnetworkId
  gas : UInt64
  payload : Bytes
  deriving DecidableEq

namespace Transaction

/-- The native transaction of version 0 without inputs, outputs and payload. -/
def empty : Transaction := ⟨0, [], [], 0, .native, 0, []⟩

/-- Adds an unsigned input for each of the given outputs. -/
def spending (tx : Transaction) (utxos : List UnspentOutput) : Transaction :=
  { tx with inputs := tx.inputs ++ utxos.map fun u => .unsigned u.outpoint }

/-- Adds outputs. -/
def paying (tx : Transaction) (outputs : List Output) : Transaction :=
  { tx with outputs := tx.outputs ++ outputs }

/-- The unsigned transaction that consumes and makes the given outputs and carries a payload. -/
def draft (utxos : List UnspentOutput) (outputs : List Output) (payload : Bytes) : Transaction :=
  { (empty.spending utxos).paying outputs with payload := payload }

/-- Changes the signature script of every input. -/
def mapSignatureScripts (f : Bytes → Bytes) (tx : Transaction) : Transaction :=
  { tx with inputs := tx.inputs.map fun i => { i with signatureScript := f i.signatureScript } }

/-- The transaction without its signature scripts. -/
def unsigned (tx : Transaction) : Transaction := tx.mapSignatureScripts fun _ => []

/-- The transaction with signature scripts as long as signed ones. -/
def withPlaceholders (tx : Transaction) : Transaction :=
  tx.mapSignatureScripts fun _ => Script.placeholder

/-- Whether there are inputs and each has a signature script. -/
def isFullySigned (tx : Transaction) : Bool :=
  !tx.inputs.isEmpty && tx.inputs.all fun i => !i.signatureScript.isEmpty

end Transaction

end LedgerPost
