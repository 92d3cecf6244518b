import LedgerPost.Ledger.Error
import LedgerPost.Text.Decimal
import LedgerPost.Total

/-!
# Amounts

Amounts are 64-bit words that count the smallest unit of the ledger. They come from outside, so a
sum or product that does not fit is an error and never wraps.
-/

namespace LedgerPost.Amount

/-- The smallest units in a coin. -/
def perCoin : Nat := 100000000

/-- A natural number as an amount, if it fits. -/
def ofNat (n : Nat) : Except Error UInt64 :=
  if n < UInt64.size then .ok (UInt64.ofNat n) else .error .amountOverflow

/-- The sum of two amounts. -/
def add (a b : UInt64) : Except Error UInt64 := ofNat (a.toNat + b.toNat)

/-- The product of two amounts. -/
def mul (a b : UInt64) : Except Error UInt64 := ofNat (a.toNat * b.toNat)

/-- The exact sum of a list of amounts. -/
def exactSum (amounts : List UInt64) : Nat := total (amounts.map UInt64.toNat)

/-- The sum of a list of amounts. -/
def sum (amounts : List UInt64) : Except Error UInt64 := ofNat (exactSum amounts)

/-- The amount in coins, with eight decimal places. -/
def text (a : UInt64) : String :=
  String.ofList
    (Decimal.digits (a.toNat / perCoin) ++ '.' :: Decimal.padded 8 (a.toNat % perCoin))

@[simp] theorem ofNat_toNat (a : UInt64) : ofNat a.toNat = .ok a := by
  simp [ofNat, UInt64.toNat_lt_size]

theorem ofNat_eq_ok_iff {n : Nat} {a : UInt64} : ofNat n = .ok a ↔ a.toNat = n := by
  unfold ofNat
  split
  · rename_i h
    constructor
    · rintro ⟨⟩
      simpa using Nat.mod_eq_of_lt h
    · rintro rfl
      simp
  · rename_i h
    simp only [reduceCtorEq, false_iff]
    rintro rfl
    exact h (UInt64.toNat_lt_size a)

end LedgerPost.Amount
