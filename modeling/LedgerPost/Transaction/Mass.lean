import LedgerPost.Ledger.Amount
import LedgerPost.Ledger.Config
import LedgerPost.Transaction.Encoding

/-!
# Mass and fees

Compute mass weighs the bytes, output scripts and signature operations of a transaction; a fee
pays for it, plus a buffer. Every step towards it is checked, so it is refused when it does not
fit. Storage mass weighs how much the transaction makes the ledger grow: by the sum of the
reciprocals of its outputs, less that of its inputs. It is found in double words and never refused.
-/

namespace LedgerPost

/-! ### Compute mass -/

/-- The mass of a number of bytes, of script bytes and of signature operations. -/
def MassParameters.weigh (p : MassParameters) (bytes scripts signatures : UInt64) :
    Except Error UInt64 := do
  let bytes ← Amount.mul bytes p.perByte
  let scripts ← Amount.mul scripts p.perScriptByte
  let signatures ← Amount.mul signatures p.perSignature
  Amount.add (← Amount.add bytes scripts) signatures

namespace Transaction

/-- The size of the output scripts, each with its version. It is checked after every output. -/
def scriptSize (tx : Transaction) : Except Error UInt64 :=
  tx.outputs.foldlM
    (fun size o => Amount.ofNat (size.toNat + (2 + o.scriptPublicKey.script.length))) 0

/-- The number of signature operations. -/
def signatureCount (tx : Transaction) : Nat := total (tx.inputs.map fun i => i.sigOpCount.toNat)

/-- The compute mass of a transaction as it stands. -/
def computeMass (p : MassParameters) (tx : Transaction) : Except Error UInt64 := do
  let bytes ← Amount.ofNat tx.encodedLength
  let scripts ← tx.scriptSize
  let signatures ← Amount.ofNat tx.signatureCount
  p.weigh bytes scripts signatures

/-- The compute mass of a transaction once each input is signed. -/
def signedMass (p : MassParameters) (tx : Transaction) : Except Error UInt64 :=
  tx.withPlaceholders.computeMass p

/-- The fee of a transaction once each input is signed. -/
def requiredFee (p : MassParameters) (tx : Transaction) : Except Error UInt64 := do
  Amount.add (← tx.signedMass p) p.feeBuffer

end Transaction

/-! ### Storage mass -/

/-- How a computation in double words, of 128 bits, takes its steps. -/
structure DoubleWords (m : Type → Type) where
  /-- What becomes of a sum or a product. -/
  result : Nat → m Nat
  /-- The rounded quotient of two numbers. -/
  quotient : Nat → Nat → m Nat

namespace DoubleWords

/-- The largest double word. -/
def largest : Nat := 340282366920938463463374607431768211455

/-- The steps that end at the largest double word. -/
def saturating : DoubleWords Id where
  result n := pure (min n largest)
  quotient a b := pure (a / b)

end DoubleWords

namespace StorageMass

/-- The values that count, which are those that do not vanish. -/
def positive (values : List UInt64) : List Nat := (values.filter (0 < ·)).map UInt64.toNat

variable {m : Type → Type} [Monad m] (words : DoubleWords m)

/-- The sum of the rounded quotients of a constant by each value. -/
def harmonic (c : Nat) (values : List Nat) : m Nat :=
  values.foldlM (fun sum v => do words.result (sum + (← words.quotient c v))) 0

/-- The same number of rounded quotients, but of the constant by the mean of the values. -/
def arithmetic (c : Nat) (values : List Nat) : m Nat := do
  let product ← words.result (c * values.length)
  let product ← words.result (product * values.length)
  words.quotient product (← words.result (total values))

/-- What the inputs take off: by quotients when one side has at most two values, else by the mean
of the inputs. -/
def relief (c : Nat) (inputs : List Nat) (outputs : Nat) : m Nat :=
  if inputs.length ≤ 2 ∨ outputs ≤ 2 then harmonic words c inputs else arithmetic words c inputs

/-- The storage mass by the values of a transaction, of which those that vanish do not count. A
mass that is too large for a word is the largest word. -/
def compute (c : UInt64) (inputs outputs : List UInt64) : m UInt64 := do
  let made ← harmonic words c.toNat (positive outputs)
  let consumed ← relief words c.toNat (positive inputs) (positive outputs).length
  return UInt64.ofNat (min (made - consumed) (UInt64.size - 1))

/-- The storage mass of a transaction by its values. -/
def ofValues (c : UInt64) (inputs outputs : List UInt64) : UInt64 :=
  (compute .saturating c inputs outputs).run

end StorageMass

/-- The storage mass of a transaction that consumes the given outputs. -/
def Transaction.storageMass (p : MassParameters) (tx : Transaction) (spent : List SpentOutput) :
    UInt64 :=
  StorageMass.ofValues p.storageConstant (spent.map (·.amount)) (tx.outputs.map (·.value))

end LedgerPost
