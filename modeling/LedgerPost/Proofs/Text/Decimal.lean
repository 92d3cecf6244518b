import LedgerPost.Text.Decimal
import Mathlib.Tactic.Common

/-!
# Digits that are written

Written numbers consist of digits, and only zero starts with one. A reader of digits takes all of
a written number and nothing of what follows, unless a digit follows.
-/

namespace LedgerPost

namespace Text

variable {p : Char → Bool} {s rest : List Char}

/-! ### Runs of characters -/

/-- A run of characters does not go on here. -/
def Stops (p : Char → Bool) (rest : List Char) : Prop := ∀ c ∈ rest.head?, p c = false

lemma Stops.nil : Stops p [] := by
  intro c hc
  cases hc

lemma Stops.cons {c : Char} (hc : p c = false) : Stops p (c :: rest) := by
  intro d hd
  obtain rfl := Option.some.inj hd
  exact hc

lemma takeWhile_append (hs : ∀ c ∈ s, p c = true) (hstop : Stops p rest) :
    (s ++ rest).takeWhile p = s := by
  rw [List.takeWhile_append_of_pos hs]
  cases rest with
  | nil => simp
  | cons c rest => simp [hstop c rfl]

lemma dropWhile_append (hs : ∀ c ∈ s, p c = true) (hstop : Stops p rest) :
    (s ++ rest).dropWhile p = rest := by
  rw [List.dropWhile_append_of_pos hs]
  cases rest with
  | nil => simp
  | cons c rest => simp [hstop c rfl]

end Text

namespace Decimal

variable {c : Char} {n width : Nat}

/-! ### Digits -/

lemma isDigit_of_mem_digits (hc : c ∈ digits n) : isDigit c = true := by
  have hdigit : c.isDigit = true := Nat.isDigit_of_mem_toDigits (by decide) (by decide) hc
  simpa [isDigit, Char.isDigit, Char.le_def] using hdigit

lemma digits_ne_nil (n : Nat) : digits n ≠ [] := Nat.toDigits_ne_nil

/-- A number other than zero does not start with the digit of zero. -/
lemma head?_digits_ne (hn : 0 < n) : (digits n).head? ≠ some '0' := by
  induction n using Nat.strongRecOn with
  | ind n ih =>
    rw [digits, Nat.toDigits_eq_if (by decide)]
    by_cases hlt : n < 10
    · simp [hlt]
      omega
    · have hhead := ih (n / 10) (by omega) (by omega)
      obtain ⟨c, rest, hdigits⟩ := List.exists_cons_of_ne_nil (digits_ne_nil (n / 10))
      rw [hdigits] at hhead
      rw [if_neg hlt, ← digits, hdigits]
      exact hhead

lemma length_digits_of_lt (hn : n < 10) : (digits n).length = 1 := by
  simp [digits, Nat.toDigits_of_lt_base hn]

/-! ### Padded digits -/

lemma isDigit_of_mem_padded (hc : c ∈ padded width n) : isDigit c = true := by
  rw [padded, List.mem_append] at hc
  obtain hc | hc := hc
  · rw [List.eq_of_mem_replicate hc]
    rfl
  · exact isDigit_of_mem_digits hc

lemma padded_ne_nil (width n : Nat) : padded width n ≠ [] := by
  simp [padded, digits_ne_nil]

lemma length_padded (hwidth : 0 < width) (hn : n < Nat.pow 10 width) :
    (padded width n).length = width := by
  have hle : (digits n).length ≤ width := (Nat.length_toDigits_le_iff (by decide) hwidth).mpr hn
  rw [padded, List.length_append, List.length_replicate]
  omega

end Decimal

end LedgerPost
