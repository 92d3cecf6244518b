/-!
# Decimal numerals
-/

namespace LedgerPost.Decimal

/-- Whether a character is a decimal digit. -/
def isDigit (c : Char) : Bool := '0' ≤ c && c ≤ '9'

/-- The digits of a number without leading zeros. -/
def digits (n : Nat) : List Char := Nat.toDigits 10 n

/-- The digits of a number after as many zeros as make `width` characters. -/
def padded (width n : Nat) : List Char :=
  List.replicate (width - (digits n).length) '0' ++ digits n

/-- The number that a list of digits spells. -/
def value (ds : List Char) : Nat := Nat.ofDigitChars 10 ds 0

@[simp] theorem value_digits (n : Nat) : value (digits n) = n := by
  simp [value, digits]

@[simp] theorem value_padded (width n : Nat) : value (padded width n) = n := by
  simp [value, padded, digits, Nat.ofDigitChars_append]

end LedgerPost.Decimal
