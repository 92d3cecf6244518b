import LedgerPost.Funding.Decision
import LedgerPost.Transaction.Basic

/-!
# Choosing outputs to spend

Either all outputs are spent, in the order given, or the largest ones, as many as cover an amount
and its fee. Block rewards are never spent.
-/

namespace LedgerPost

/-- Outputs chosen to be spent, and what becomes of their total. -/
structure Funding where
  utxos : List UnspentOutput
  total : UInt64
  fee : UInt64
  /-- What is paid back. There is no such output when it is zero. -/
  change : UInt64
  deriving DecidableEq

namespace Funding

/-- Whether something is paid back. -/
def hasChange (f : Funding) : Bool := 0 < f.change

/-- The outputs that may be spent. -/
def spendable (utxos : List UnspentOutput) : List UnspentOutput :=
  utxos.filter fun u => !u.isCoinbase

/-- The sum of the amounts of outputs. -/
def sum (utxos : List UnspentOutput) : Except Error UInt64 :=
  Amount.sum (utxos.map (·.amount))

/-- All outputs that may be spent, and their sum, which has to reach a minimum. -/
def all (utxos : List UnspentOutput) (minimum : UInt64) :
    Except Error (List UnspentOutput × UInt64) := do
  let chosen := spendable utxos
  let total ← sum chosen
  if total < minimum ∨ chosen = [] then throw (.insufficientFunds minimum total)
  return (chosen, total)

/-- The outputs that may be spent, the largest first. Equal ones keep their order. -/
def largestFirst (utxos : List UnspentOutput) : List UnspentOutput :=
  (spendable utxos).mergeSort fun u v => v.amount ≤ u.amount

variable {m : Type → Type} [Monad m] [MonadExceptOf Error m]

/-- Spends what covers an amount, or says what was required of the available sum. -/
def settle (utxos : List UnspentOutput) (available : UInt64) : Coverage → m Funding
  | .withChange total fee change => return ⟨utxos, total, fee, change⟩
  | .exact total fee => return ⟨utxos, total, fee, 0⟩
  | .short _ required => throw (.insufficientFunds required available)
  | .exhausted _ required => throw (.insufficientFunds required available)

/-- Spends all outputs to cover an amount. -/
def allForAmount (utxos : List UnspentOutput) (amount dust : UInt64)
    (estimate : List UnspentOutput → Bool → m UInt64) : m Funding := do
  let (chosen, total) ← MonadExcept.ofExcept (all utxos 1)
  let coverage ← Coverage.decide total amount dust (estimate chosen)
  settle chosen total coverage

/-- Adds one output after the other until the amount is covered, starting with the outputs chosen
before, their sum, and what was found about them. -/
def grow (amount dust : UInt64) (estimate : List UnspentOutput → Bool → m UInt64)
    (chosen : List UnspentOutput) (total : UInt64) (coverage : Coverage) :
    List UnspentOutput → m (List UnspentOutput × Coverage)
  | [] => return (chosen, coverage)
  | u :: rest => do
    let total ← MonadExcept.ofExcept (Amount.add total u.amount)
    let chosen := chosen ++ [u]
    let coverage ← Coverage.decide total amount dust (estimate chosen)
    if coverage.isCovered then return (chosen, coverage)
    grow amount dust estimate chosen total coverage rest

/-- Spends as many of the largest outputs as cover an amount. -/
def forPayment (utxos : List UnspentOutput) (amount dust : UInt64)
    (estimate : List UnspentOutput → Bool → m UInt64) : m Funding := do
  let candidates := largestFirst utxos
  let available ← MonadExcept.ofExcept (sum candidates)
  let (chosen, coverage) ← grow amount dust estimate [] 0 (.short 0 amount) candidates
  settle chosen available coverage

end Funding

end LedgerPost
