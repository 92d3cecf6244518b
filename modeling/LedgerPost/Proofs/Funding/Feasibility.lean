import LedgerPost.Proofs.Funding.Decision
import LedgerPost.Proofs.Stateful

/-!
# Totals that are enough

A decision compares words that may be close to the largest one with two fees of which either may be
the larger. Over the numbers it has a rule for each answer, so what is enough stays enough when the
total grows. No difference on the way falls below zero, and the fee without change is asked for
only if there is no change.
-/

namespace LedgerPost.Coverage

variable {total amount dust full bare fee change : UInt64}
  {estimate : Bool → Except Error UInt64}

/-! ### A rule for each answer -/

lemma sub_eq_of_toNat_eq {a b d : UInt64} (h : a.toNat = b.toNat + d.toNat) : a - b = d := by
  have hle : b ≤ a := by
    rw [UInt64.le_iff_toNat_le]
    omega
  rw [← UInt64.toNat_inj, UInt64.toNat_sub_of_le _ _ hle]
  omega

/-- What a word exceeds a number by is a word. -/
lemma exists_toNat_eq_add {a : UInt64} {n : Nat} (h : n ≤ a.toNat) :
    ∃ d : UInt64, a.toNat = n + d.toNat := by
  have hsize := a.toNat_lt_size
  refine ⟨UInt64.ofNat (a.toNat - n), ?_⟩
  rw [UInt64.toNat_ofNat_of_lt' (by omega)]
  omega

/-- What exceeds the amount, the fee and dust is paid back. -/
lemma decide_withChange (hfee : estimate true = .ok fee) (hdust : dust.toNat < change.toNat)
    (hsum : total.toNat = amount.toNat + fee.toNat + change.toNat) :
    decide total amount dust estimate = .ok (.withChange total fee change) := by
  have hchange : total - amount - fee = change := by
    have hle : amount ≤ total := by
      rw [UInt64.le_iff_toNat_le]
      omega
    apply sub_eq_of_toNat_eq
    rw [UInt64.toNat_sub_of_le _ _ hle]
    omega
  have hcond : amount < total ∧ fee ≤ total - amount ∧ dust < total - amount - fee := by
    rw [changes_iff]
    omega
  rw [decide, hfee, ← hchange]
  exact if_pos hcond

/-- Without change the second fee is the one that counts. -/
lemma decide_of_le (hfull : estimate true = .ok full)
    (hdust : total.toNat ≤ amount.toNat + full.toNat + dust.toNat) :
    decide total amount dust estimate = decideExact total amount estimate := by
  have hcond : ¬ (amount < total ∧ full ≤ total - amount ∧ dust < total - amount - full) := by
    rw [changes_iff]
    omega
  rw [decide, hfull]
  exact if_neg hcond

/-- The sum that is required fits into a word if the total reaches it. -/
lemma decideExact_of_le (hbare : estimate false = .ok bare)
    (hsum : total.toNat = amount.toNat + fee.toNat) (hle : bare.toNat ≤ fee.toNat) :
    decideExact total amount estimate = .ok (.exact total fee) := by
  have hsize := total.toNat_lt_size
  obtain ⟨required, hrequired⟩ :=
    Amount.exists_ofNat_eq_ok (n := amount.toNat + bare.toNat) (by omega)
  have hcovered : required ≤ total := by
    rw [UInt64.le_iff_toNat_le, Amount.ofNat_eq_ok_iff.mp hrequired]
    omega
  have hadd : Amount.add amount bare = .ok required := hrequired
  simp only [decideExact, hbare, ofExcept_eq_self, bind, Except.bind, hadd, if_pos hcovered,
    sub_eq_of_toNat_eq hsum]
  rfl

lemma decide_eq_withChange_iff {t : UInt64} :
    decide total amount dust estimate = .ok (.withChange t fee change) ↔
      t = total ∧ estimate true = .ok fee ∧ dust.toNat < change.toNat ∧
        total.toNat = amount.toNat + fee.toNat + change.toNat := by
  constructor
  · intro h
    cases Decided.of_decide h with
    | withChange hfee hsum hdust => exact ⟨rfl, hfee, hdust, hsum⟩
  · rintro ⟨rfl, hfee, hdust, hsum⟩
    exact decide_withChange hfee hdust hsum

/-- There is change exactly if the total exceeds the amount, the fee with change and dust. -/
lemma exists_withChange_iff (hfull : estimate true = .ok full) :
    (∃ t fee change, decide total amount dust estimate = .ok (.withChange t fee change)) ↔
      amount.toNat + full.toNat + dust.toNat < total.toNat := by
  constructor
  · rintro ⟨t, fee, change, h⟩
    obtain ⟨-, hfee, hdust, hsum⟩ := decide_eq_withChange_iff.mp h
    cases hfull.symm.trans hfee
    omega
  · intro hlt
    obtain ⟨change, hchange⟩ :=
      exists_toNat_eq_add (a := total) (n := amount.toNat + full.toNat) (by omega)
    exact ⟨total, full, change, decide_withChange hfull (by omega) hchange⟩

lemma decide_eq_exact_iff {t : UInt64} :
    decide total amount dust estimate = .ok (.exact t fee) ↔
      t = total ∧ total.toNat = amount.toNat + fee.toNat ∧
        ∃ full bare, estimate true = .ok full ∧ estimate false = .ok bare ∧
          bare.toNat ≤ fee.toNat ∧ fee.toNat ≤ full.toNat + dust.toNat := by
  constructor
  · intro h
    cases Decided.of_decide h with
    | exact hfull hbare hdust hsum hfee =>
      exact ⟨rfl, hsum, _, _, hfull, hbare, hfee, by omega⟩
  · rintro ⟨rfl, hsum, full, bare, hfull, hbare, hfee, hdust⟩
    rw [decide_of_le hfull (by omega)]
    exact decideExact_of_le hbare hsum hfee

/-! ### What is enough -/

/-- The totals that cover an amount: those that leave more than dust, and those that pay for the
amount without change. -/
def Enough (amount dust : UInt64) (estimate : Bool → Except Error UInt64) (total : Nat) : Prop :=
  ∃ full, estimate true = .ok full ∧ (amount.toNat + full.toNat + dust.toNat < total ∨
    ∃ bare, estimate false = .ok bare ∧ amount.toNat + bare.toNat ≤ total)

lemma Enough.mono {m n : Nat} (h : Enough amount dust estimate m) (hle : m ≤ n) :
    Enough amount dust estimate n := by
  obtain ⟨full, hfull, hlt | ⟨bare, hbare, hsum⟩⟩ := h
  · exact ⟨full, hfull, .inl (Nat.lt_of_lt_of_le hlt hle)⟩
  · exact ⟨full, hfull, .inr ⟨bare, hbare, Nat.le_trans hsum hle⟩⟩

/-- A decision covers the amount exactly if the total is enough. -/
lemma exists_isCovered_iff :
    (∃ c, decide total amount dust estimate = .ok c ∧ c.isCovered = true) ↔
      Enough amount dust estimate total.toNat := by
  constructor
  · rintro ⟨c, h, hcovered⟩
    cases Decided.of_decide h with
    | withChange hfee hsum hdust => exact ⟨_, hfee, .inl (by omega)⟩
    | exact hfull hbare hdust hsum hfee => exact ⟨_, hfull, .inr ⟨_, hbare, by omega⟩⟩
    | short => cases hcovered
  · rintro ⟨full, hfull, henough⟩
    by_cases hlt : amount.toNat + full.toNat + dust.toNat < total.toNat
    · obtain ⟨change, hchange⟩ :=
        exists_toNat_eq_add (a := total) (n := amount.toNat + full.toNat) (by omega)
      exact ⟨_, decide_withChange hfull (by omega) hchange, rfl⟩
    · obtain ⟨bare, hbare, hle⟩ := henough.resolve_left hlt
      obtain ⟨fee, hfee⟩ := exists_toNat_eq_add (a := total) (n := amount.toNat) (by omega)
      refine ⟨.exact total fee, ?_, rfl⟩
      rw [decide_of_le hfull (by omega)]
      exact decideExact_of_le hbare hfee (by omega)

/-! ### Questions -/

/-- The estimate that answers as given, and writes down what it is asked for. -/
def asked (answers : Bool → Except Error UInt64) (withChange : Bool) :
    Stateful (List Bool) UInt64 := do
  modify (· ++ [withChange])
  MonadExcept.ofExcept (answers withChange)

lemma run_asked (estimate : Bool → Except Error UInt64) (withChange : Bool) (log : List Bool) :
    (asked estimate withChange).run.run log = (estimate withChange, log ++ [withChange]) :=
  Stateful.run_ofExcept (estimate withChange) (log ++ [withChange])

lemma run_decideExact_asked (log : List Bool) :
    (decideExact total amount (asked estimate)).run.run log =
      (decideExact total amount estimate, log ++ [false]) := by
  rw [decideExact, decideExact]
  apply Stateful.run_bind_eq (run_asked estimate false log)
  intro bare
  rw [ofExcept_eq_self]
  apply Stateful.run_bind_eq (Stateful.run_ofExcept _ _)
  intro required
  split
  · rfl
  · rfl

/-- The fee with change is asked for first, and the fee without only if there is no change. -/
lemma run_decide_asked (total amount dust : UInt64) (estimate : Bool → Except Error UInt64) :
    ∃ log, (decide total amount dust (asked estimate)).run.run [] =
        (decide total amount dust estimate, log) ∧
      (log = [true] ∨ log = [true, false]) ∧
      (log = [true, false] ↔ ∃ full, estimate true = .ok full ∧
        total.toNat ≤ amount.toNat + full.toNat + dust.toNat) := by
  have hrun := run_asked estimate true []
  cases hfull : estimate true with
  | error e =>
    rw [hfull] at hrun
    refine ⟨[true], ?_, .inl rfl, by simp⟩
    rw [decide, Stateful.run_bind_of_error hrun, decide, hfull]
    rfl
  | ok full =>
    rw [hfull] at hrun
    by_cases hchange : amount < total ∧ full ≤ total - amount ∧ dust < total - amount - full
    · refine ⟨[true], ?_, .inl rfl, ?_⟩
      · rw [decide, Stateful.run_bind_of_ok hrun, if_pos hchange, decide, hfull]
        change _ = ((if _ then _ else _), _)
        rw [if_pos hchange]
        rfl
      · rw [changes_iff] at hchange
        have hlt : ¬ total.toNat ≤ amount.toNat + full.toNat + dust.toNat := by omega
        simp [hlt]
    · have hle : total.toNat ≤ amount.toNat + full.toNat + dust.toNat := by
        rw [changes_iff] at hchange
        omega
      refine ⟨[true, false], ?_, .inr rfl, by simp [hle]⟩
      rw [decide_of_le hfull hle, decide, Stateful.run_bind_of_ok hrun, if_neg hchange]
      exact run_decideExact_asked _

/-! ### Differences -/

/-- The decision without change, where a difference is what a step makes of it. -/
def decideExactBy (minus : UInt64 → UInt64 → Except Error UInt64) (total amount : UInt64)
    (estimate : Bool → Except Error UInt64) : Except Error Coverage := do
  let fee ← estimate false
  let required ← Amount.add amount fee
  if required ≤ total then return .exact total (← minus total amount)
  else return .short total required

/-- The decision, where each difference is what a step makes of it. -/
def decideBy (minus : UInt64 → UInt64 → Except Error UInt64) (total amount dust : UInt64)
    (estimate : Bool → Except Error UInt64) : Except Error Coverage := do
  let fee ← estimate true
  if amount < total then
    let rest ← minus total amount
    if fee ≤ rest then
      let change ← minus rest fee
      if dust < change then return .withChange total fee change
      else decideExactBy minus total amount estimate
    else decideExactBy minus total amount estimate
  else decideExactBy minus total amount estimate

variable {minus : UInt64 → UInt64 → Except Error UInt64}

lemma decideExactBy_eq (total amount : UInt64) (estimate : Bool → Except Error UInt64)
    (h : ∀ a b, b ≤ a → minus a b = .ok (a - b)) :
    decideExactBy minus total amount estimate = decideExact total amount estimate := by
  rw [decideExactBy, decideExact]
  cases estimate false with
  | error e => rfl
  | ok bare =>
    change (Amount.add amount bare >>= _) = (MonadExcept.ofExcept (Amount.add amount bare) >>= _)
    rw [ofExcept_eq_self]
    cases hadd : Amount.add amount bare with
    | error e => rfl
    | ok required =>
      change (if _ then _ else _) = (if _ then _ else _)
      by_cases hcovered : required ≤ total
      · have hle : amount ≤ total := by
          rw [UInt64.le_iff_toNat_le, Amount.add_eq_ok_iff.mp hadd] at hcovered
          rw [UInt64.le_iff_toNat_le]
          omega
        rw [if_pos hcovered, if_pos hcovered, h total amount hle]
        rfl
      · rw [if_neg hcovered, if_neg hcovered]

/-- No difference is taken that would fall below zero. -/
lemma decideBy_eq (h : ∀ a b, b ≤ a → minus a b = .ok (a - b)) :
    decideBy minus total amount dust estimate = decide total amount dust estimate := by
  rw [decideBy, decide]
  have hexact := decideExactBy_eq total amount estimate h
  cases estimate true with
  | error e => rfl
  | ok full =>
    by_cases hamount : amount < total
    · have hrest := h total amount (UInt64.le_of_lt hamount)
      by_cases hfee : full ≤ total - amount
      · have hchange := h (total - amount) full hfee
        by_cases hdust : dust < total - amount - full
        · simp [bind, Except.bind, hamount, hrest, hfee, hchange, hdust]
        · simp [bind, Except.bind, hamount, hrest, hfee, hchange, hdust, hexact]
      · simp [bind, Except.bind, hamount, hrest, hfee, hexact]
    · simp [bind, Except.bind, hamount, hexact]

/-! ### The decision -/

/-- A decision with change balances, pays the first fee and leaves more than dust, which is what
it does exactly if the total exceeds the amount, that fee and dust. A decision without change
balances, and pays at least the second fee and at most the first one and dust. A larger total
covers the amount as well. The fees are asked for in this order, the second one only without
change, and it does not matter what becomes of differences that would fall below zero. -/
theorem decide_tight (total amount dust : UInt64) (estimate : Bool → Except Error UInt64) :
    (∀ t fee change, decide total amount dust estimate = .ok (.withChange t fee change) ↔
      t = total ∧ estimate true = .ok fee ∧ dust.toNat < change.toNat ∧
        total.toNat = amount.toNat + fee.toNat + change.toNat) ∧
    (∀ full, estimate true = .ok full →
      ((∃ t fee change, decide total amount dust estimate = .ok (.withChange t fee change)) ↔
        amount.toNat + full.toNat + dust.toNat < total.toNat)) ∧
    (∀ t fee, decide total amount dust estimate = .ok (.exact t fee) ↔
      t = total ∧ total.toNat = amount.toNat + fee.toNat ∧
        ∃ full bare, estimate true = .ok full ∧ estimate false = .ok bare ∧
          bare.toNat ≤ fee.toNat ∧ fee.toNat ≤ full.toNat + dust.toNat) ∧
    (∀ total', total ≤ total' →
      (∃ c, decide total amount dust estimate = .ok c ∧ c.isCovered = true) →
      ∃ c, decide total' amount dust estimate = .ok c ∧ c.isCovered = true) ∧
    (∃ log, (decide total amount dust (asked estimate)).run.run [] =
        (decide total amount dust estimate, log) ∧
      (log = [true] ∨ log = [true, false]) ∧
      (log = [true, false] ↔ ∃ full, estimate true = .ok full ∧
        total.toNat ≤ amount.toNat + full.toNat + dust.toNat)) ∧
    ∀ minus, (∀ a b, b ≤ a → minus a b = .ok (a - b)) →
      decideBy minus total amount dust estimate = decide total amount dust estimate := by
  refine ⟨fun _ _ _ => decide_eq_withChange_iff, fun _ => exists_withChange_iff,
    fun _ _ => decide_eq_exact_iff, ?_, run_decide_asked total amount dust estimate,
    fun _ => decideBy_eq⟩
  intro total' hle h
  rw [exists_isCovered_iff] at h ⊢
  exact h.mono (UInt64.le_iff_toNat_le.mp hle)

/-- Fees of which the first is 500 more. -/
def changeCosts (withChange : Bool) : Except Error UInt64 :=
  .ok (if withChange then 2000 else 1500)

/-- The difference that is refused when it falls below zero. -/
def strictMinus (a b : UInt64) : Except Error UInt64 :=
  if b ≤ a then .ok (a - b) else .error .amountOverflow

/-- A rest of just dust adds to the fee, and the next larger total covers the amount as well. -/
theorem dust_decide_tight :
    decide 62000 50000 10000 changeCosts = .ok (.exact 62000 12000) ∧
      (∃ c, decide 62001 50000 10000 changeCosts = .ok c ∧ c.isCovered = true) ∧
      decideBy strictMinus 62000 50000 10000 changeCosts = .ok (.exact 62000 12000) := by
  obtain ⟨-, -, hexact, hmono, -, hminus⟩ := decide_tight 62000 50000 10000 changeCosts
  have h : decide 62000 50000 10000 changeCosts = .ok (.exact 62000 12000) :=
    (hexact 62000 12000).mpr ⟨rfl, rfl, 2000, 1500, rfl, rfl, by decide, by decide⟩
  refine ⟨h, hmono 62001 (by decide) ⟨_, h, rfl⟩, ?_⟩
  rw [hminus strictMinus fun a b hle => if_pos hle]
  exact h

end LedgerPost.Coverage
