import LedgerPost.Proofs.Text.Decimal
import LedgerPost.Time.Timestamp

/-!
# Reading a written moment

The text of a moment is read as the moment cut to milliseconds, in every supported year. Each part
of the text is read up to the mark behind it.
-/

namespace LedgerPost

namespace Timestamp

open Text

variable {c : Char} {s ds rest : List Char} {n : Nat}

/-- A moment without what its text leaves out, the digits after the milliseconds. -/
def cut (t : Timestamp) : Timestamp where
  __ := t
  nanos := t.nanos / 1000000 * 1000000
  nanos_lt := by
    have hlt := t.nanos_lt
    omega

/-! ### Numbers -/

lemma dropBlanks_cons (hc : isBlank c = false) : dropBlanks (c :: s) = c :: s := by
  simp [dropBlanks, hc]

lemma isBlank_of_isDigit (hc : Decimal.isDigit c = true) : isBlank c = false := by
  have hrange : 48 ≤ c.toNat ∧ c.toNat ≤ 57 := by
    simpa [Decimal.isDigit, Char.le_def, UInt32.le_iff_toNat_le] using hc
  simp [isBlank]
  omega

/-- Written digits are a digit and more digits. -/
lemma exists_padded_cons (width n : Nat) :
    ∃ c cs, Decimal.padded width n = c :: cs ∧ Decimal.isDigit c = true := by
  obtain ⟨c, cs, hdigits⟩ := List.exists_cons_of_ne_nil (Decimal.padded_ne_nil width n)
  have hmem : c ∈ Decimal.padded width n := by
    rw [hdigits]
    exact List.mem_cons_self
  exact ⟨c, cs, hdigits, Decimal.isDigit_of_mem_padded hmem⟩

lemma dropBlanks_padded (width n : Nat) :
    dropBlanks (Decimal.padded width n ++ rest) = Decimal.padded width n ++ rest := by
  obtain ⟨c, cs, hdigits, hc⟩ := exists_padded_cons width n
  rw [hdigits, List.cons_append, dropBlanks_cons (isBlank_of_isDigit hc)]

/-- Written digits are read if the limit leaves room for them and no digit follows them. -/
lemma number?_padded {limit width : Nat} (hlimit : (Decimal.padded width n).length ≤ limit)
    (hstop : Stops Decimal.isDigit rest) :
    number? limit (Decimal.padded width n ++ rest) = some (n, rest) := by
  have hdigits : ∀ d ∈ Decimal.padded width n, Decimal.isDigit d = true :=
    fun d hd => Decimal.isDigit_of_mem_padded hd
  rw [number?, takeWhile_append hdigits hstop]
  simp [List.take_of_length_le hlimit, Decimal.padded_ne_nil]

lemma number?_two (hn : n < 100) (hstop : Stops Decimal.isDigit rest) :
    number? 2 (dropBlanks (Decimal.padded 2 n ++ rest)) = some (n, rest) := by
  have hlength : (Decimal.padded 2 n).length = 2 := Decimal.length_padded (by decide) hn
  rw [dropBlanks_padded, number?_padded (Nat.le_of_eq hlength) hstop]

/-- The mark between two numbers is read. -/
lemma mark?_cons (hc : isBlank c = false) : mark? c (dropBlanks (c :: s)) = some s := by
  rw [dropBlanks_cons hc, mark?, if_pos rfl]

/-! ### Dates -/

/-- A written year is read, with its sign if it has one. -/
lemma year?_yearText (year : Int) (hstop : Stops Decimal.isDigit rest) :
    year? (dropBlanks (yearText year ++ rest)) = some (year, rest) := by
  by_cases hfour : 0 ≤ year ∧ year ≤ 9999
  · have hlength : (Decimal.padded 4 year.toNat).length = 4 :=
      Decimal.length_padded (by decide) (by change year.toNat < 10000; omega)
    have hread := number?_padded (Nat.le_of_eq hlength) hstop
    obtain ⟨c, cs, hdigits, hc⟩ := exists_padded_cons 4 year.toNat
    have hsign : ∀ d, Decimal.isDigit d = false → c ≠ d := by
      rintro d hd rfl
      rw [hc] at hd
      cases hd
    rw [yearText, if_pos hfour, dropBlanks_padded]
    rw [hdigits, List.cons_append] at hread ⊢
    rw [year?, hread]
    · simp [Int.toNat_of_nonneg hfour.1]
    · intro s hcons
      exact hsign '-' rfl (List.cons.inj hcons).1
    · intro s hcons
      exact hsign '+' rfl (List.cons.inj hcons).1
  · have hread : number? (Decimal.padded 4 year.natAbs ++ rest).length
        (Decimal.padded 4 year.natAbs ++ rest) = some (year.natAbs, rest) :=
      number?_padded (by simp) hstop
    rw [yearText, if_neg hfour, List.cons_append]
    by_cases hneg : year < 0
    · have habs : -(year.natAbs : Int) = year := by omega
      rw [if_pos hneg, dropBlanks_cons (by decide), year?, hread, Option.map_some]
      simp only [habs]
    · have habs : (year.natAbs : Int) = year := by omega
      rw [if_neg hneg, dropBlanks_cons (by decide), year?, hread, Option.map_some]
      simp only [habs]

lemma daysIn_le (year : Int) (month : Nat) : Calendar.daysIn year month ≤ 31 := by
  unfold Calendar.daysIn
  split_ifs <;> omega

lemma day_lt (d : Date) : d.day < 100 := by
  have hle := daysIn_le d.year d.month
  have hmem := d.day_mem
  omega

/-- A written date is read. -/
lemma date?_written (d : Date) (hstop : Stops Decimal.isDigit rest) :
    date? (yearText d.year ++ '-' :: (Decimal.padded 2 d.month ++
      '-' :: (Decimal.padded 2 d.day ++ rest))) = some (d, rest) := by
  have hmonth : d.month < 100 := Nat.lt_of_le_of_lt d.month_mem.2 (by decide)
  rw [date?, year?_yearText _ (.cons rfl)]
  simp only [Option.bind_eq_bind, Option.bind_some]
  rw [mark?_cons (by decide), Option.bind_some, number?_two hmonth (.cons rfl)]
  simp only [Option.bind_some]
  rw [mark?_cons (by decide), Option.bind_some, number?_two (day_lt d) hstop]
  simp

/-! ### Times -/

/-- Three written digits of a second are its milliseconds. -/
lemma nanos?_padded (hn : n < 1000) (hstop : Stops Decimal.isDigit rest) :
    nanos? ('.' :: (Decimal.padded 3 n ++ rest)) = some (n * 1000000, rest) := by
  have hlength : (Decimal.padded 3 n).length = 3 := Decimal.length_padded (by decide) hn
  have hdigits : ∀ d ∈ Decimal.padded 3 n, Decimal.isDigit d = true :=
    fun d hd => Decimal.isDigit_of_mem_padded hd
  have hvalue : Decimal.value (Decimal.padded 3 n ++ ['0', '0', '0', '0', '0', '0']) =
      n * 1000000 := by
    rw [Decimal.value, Nat.ofDigitChars_append, ← Decimal.value, Decimal.value_padded]
    simp [Nat.ofDigitChars_cons]
    omega
  rw [nanos?, takeWhile_append hdigits hstop, dropWhile_append hdigits hstop]
  have htake : (Decimal.padded 3 n).take 9 = Decimal.padded 3 n :=
    List.take_of_length_le (by omega)
  simp [htake, hlength, hvalue, Decimal.padded_ne_nil]

/-- Without an offset a local time is a time in UTC. -/
lemma ofLocal?_zero (t : Timestamp) :
    ofLocal? t.date t.hour t.minute t.second t.nanos 0 = some t := by
  have hhour := t.hour_lt
  have hminute := t.minute_lt
  have hday : ¬ (60 * t.hour + t.minute : Int) - 0 < 0 ∧
      (60 * t.hour + t.minute : Int) - 0 < 1440 := by omega
  have hmod : ((60 * t.hour + t.minute : Int) - 0) % 1440 = (60 * t.hour + t.minute : Nat) := by
    omega
  have hdiv : (60 * t.hour + t.minute) / 60 = t.hour := by omega
  have hrem : (60 * t.hour + t.minute) % 60 = t.minute := by omega
  rw [ofLocal?]
  simp only [hmod]
  rw [if_neg hday.1, if_pos hday.2, Int.toNat_natCast, hdiv, hrem]
  simp [ofParts?, hhour, hminute, t.second_le, t.nanos_lt]

/-- The text of a moment is read as the moment cut to milliseconds. -/
theorem parse?_text (t : Timestamp) : parse? t.text = some t.cut := by
  have hmillis : t.nanos / 1000000 < 1000 := by
    have hlt := t.nanos_lt
    omega
  have hhour := t.hour_lt
  have hminute := t.minute_lt
  have hsecond := t.second_le
  rw [parse?, text, String.toList_ofList]
  simp only [List.append_assoc, List.cons_append]
  rw [date?_written _ (.cons rfl)]
  simp only [Option.bind_eq_bind, Option.bind_some]
  rw [divider?, if_pos (Or.inl rfl), Option.bind_some, number?_two (by omega) (.cons rfl)]
  simp only [Option.bind_some]
  rw [mark?_cons (by decide), Option.bind_some, number?_two (by omega) (.cons rfl)]
  simp only [Option.bind_some]
  rw [mark?_cons (by decide), Option.bind_some, number?_two (by omega) (.cons rfl)]
  simp only [Option.bind_some]
  rw [nanos?_padded hmillis (.cons rfl)]
  simp only [Option.bind_some]
  have hzone : offset? ['Z'] = some (0, []) := rfl
  rw [dropBlanks_cons (by decide), hzone]
  simp only [Option.bind_some]
  rw [if_pos ⟨hhour, hminute, rfl⟩]
  exact ofLocal?_zero t.cut

end Timestamp

end LedgerPost
