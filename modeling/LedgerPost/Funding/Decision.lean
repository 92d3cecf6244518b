import LedgerPost.Ledger.Amount

/-!
# Covering an amount

Whether a total covers an amount and a fee. The rest is paid back as change when it is more than
dust; otherwise the fee of a transaction without change counts, and the rest adds to the fee.
-/

namespace LedgerPost

/-- How a total stands to what it has to cover. -/
inductive Coverage
  /-- The total does not cover what is required, and may still grow. -/
  | short (total required : UInt64)
  /-- The amount and the fee are covered and the rest is change. -/
  | withChange (total fee change : UInt64)
  /-- The amount and the fee are covered, and the rest is part of the fee. -/
  | exact (total fee : UInt64)
  /-- The total does not cover what is required, and nothing can be added. -/
  | exhausted (total required : UInt64)
  deriving DecidableEq, Repr

namespace Coverage

/-- Whether the amount and the fee are covered. -/
def isCovered : Coverage → Bool
  | .withChange _ _ _ => true
  | .exact _ _ => true
  | _ => false

/-- Says that nothing can be added. -/
def exhaust : Coverage → Coverage
  | .short total required => .exhausted total required
  | c => c

variable {m : Type → Type} [Monad m] [MonadExceptOf Error m]

/-- Takes the change output off, where the estimate is that of the fee with or without one. -/
def decideExact (total amount : UInt64) (estimate : Bool → m UInt64) : m Coverage := do
  let fee ← estimate false
  let required ← MonadExcept.ofExcept (Amount.add amount fee)
  if required ≤ total then return .exact total (total - amount)
  return .short total required

/-- Whether a total covers an amount, where the estimate is that of the fee with or without a
change output. -/
def decide (total amount dust : UInt64) (estimate : Bool → m UInt64) : m Coverage := do
  let fee ← estimate true
  if amount < total ∧ fee ≤ total - amount ∧ dust < total - amount - fee then
    return .withChange total fee (total - amount - fee)
  decideExact total amount estimate

end Coverage

end LedgerPost
