import LedgerPost.Proofs.Funding.Fewest
import LedgerPost.Proofs.Stateful

/-!
# What a shortfall requires

A choice of outputs that never covers its amount ends with what the last decision required: the
amount and the last fee that was estimated, which is that of all outputs without change. It is the
amount and the least of the fees only if no fee was less than the last one. The fees are written
down by an estimate that does the same besides.
-/

namespace LedgerPost

variable {σ : Type}

/-! ### Steps with a state that end a decision -/

namespace Coverage

variable {total amount dust : UInt64} {estimate : Bool → Stateful σ UInt64} {c : Coverage}
  {s s' : σ}

/-- A decision that does not cover the amount asks for both fees, and requires the second one. -/
lemma run_decide_short (h : (decide total amount dust estimate).run.run s = (.ok c, s'))
    (hcovered : c.isCovered = false) :
    ∃ full bare s₁ required, (estimate true).run.run s = (.ok full, s₁) ∧
      (estimate false).run.run s₁ = (.ok bare, s') ∧ c = .short total required ∧
      required.toNat = amount.toNat + bare.toNat := by
  rw [decide] at h
  obtain ⟨full, s₁, hfull, h⟩ := Stateful.run_bind_eq_ok.mp h
  split at h
  · cases h
    cases hcovered
  · rw [decideExact] at h
    obtain ⟨bare, s₂, hbare, h⟩ := Stateful.run_bind_eq_ok.mp h
    obtain ⟨required, s₃, hadd, h⟩ := Stateful.run_bind_eq_ok.mp h
    obtain ⟨hsum, rfl⟩ := Stateful.run_ofExcept_eq_ok.mp hadd
    split at h
    · cases h
      cases hcovered
    · cases h
      exact ⟨full, bare, s₁, required, hfull, hbare, rfl, Amount.add_eq_ok_iff.mp hsum⟩

/-- A decision fails only on overflow, if the estimate does not fail. -/
lemma run_decide_eq_error {e : Error}
    (hestimate : ∀ withChange s s', (estimate withChange).run.run s ≠ (.error e, s'))
    (h : (decide total amount dust estimate).run.run s = (.error e, s')) :
    e = .amountOverflow := by
  rw [decide] at h
  rcases Stateful.run_bind_eq_error.mp h with h | ⟨full, s₁, -, h⟩
  · exact absurd h (hestimate true s s')
  · split at h
    · cases h
    · rw [decideExact] at h
      rcases Stateful.run_bind_eq_error.mp h with h | ⟨bare, s₂, -, h⟩
      · exact absurd h (hestimate false s₁ s')
      · rcases Stateful.run_bind_eq_error.mp h with h | ⟨required, s₃, -, h⟩
        · exact Amount.ofNat_eq_error (Stateful.run_ofExcept_eq_error.mp h).1
        · split at h
          · cases h
          · cases h

end Coverage

namespace Funding

/-! ### Estimates that are written down -/

/-- The estimate that writes down its answers. -/
def logged (estimate : List UnspentOutput → Bool → StateM σ UInt64) (chosen : List UnspentOutput)
    (withChange : Bool) : Stateful (σ × List UInt64) UInt64 :=
  ExceptT.mk fun (s, fees) =>
    let (fee, s') := (estimate chosen withChange).run s
    (.ok fee, s', fees ++ [fee])

/-- What falls short requires the amount and the last fee, which is nothing before the first. -/
def Requires (amount : UInt64) (fees : List UInt64) (c : Coverage) : Prop :=
  ∃ total required, c = .short total required ∧
    required.toNat = amount.toNat + (fees.getLastD 0).toNat

variable {utxos chosen chosen' rest : List UnspentOutput}
  {total amount dust required available : UInt64} {coverage coverage' : Coverage}
  {estimate : List UnspentOutput → Bool → StateM σ UInt64} {s s' : σ} {fees : List UInt64}
  {t t' : σ × List UInt64}

lemma run_logged_eq_ok {withChange : Bool} {fee : UInt64}
    (h : (logged estimate chosen withChange).run.run t = (.ok fee, t')) : t'.2 = t.2 ++ [fee] := by
  cases h
  rfl

lemma run_logged_ne_error (estimate : List UnspentOutput → Bool → StateM σ UInt64)
    (chosen : List UnspentOutput) (withChange : Bool) (e : Error) (t t' : σ × List UInt64) :
    (logged estimate chosen withChange).run.run t ≠ (.error e, t') := by
  intro h
  cases h

/-! ### A choice that falls short -/

/-- One more output that does not cover the amount adds two fees, and the last one counts. -/
lemma requires_of_decide
    (h : (Coverage.decide total amount dust (logged estimate chosen)).run.run t =
      (.ok coverage, t')) (hcovered : coverage.isCovered = false) :
    Requires amount t'.2 coverage ∧ t'.2.length = t.2.length + 2 := by
  obtain ⟨full, bare, t₁, required, hfull, hbare, rfl, hsum⟩ :=
    Coverage.run_decide_short h hcovered
  rw [run_logged_eq_ok hbare, run_logged_eq_ok hfull]
  refine ⟨⟨total, required, rfl, ?_⟩, ?_⟩
  · rw [List.getLastD_concat]
    exact hsum
  · simp

/-- A choice that grew by all that was left and is still not covered requires the last fee. -/
lemma requires_of_grow (hrequires : Requires amount t.2 coverage)
    (h : (grow amount dust (logged estimate) chosen total coverage rest).run.run t =
      (.ok (chosen', coverage'), t')) (hcovered : coverage'.isCovered = false) :
    Requires amount t'.2 coverage' ∧ t'.2.length = t.2.length + 2 * rest.length := by
  -- What is required so far is found from the last fee so far, and each step replaces both.
  induction rest generalizing chosen total coverage t with
  | nil =>
    cases h
    exact ⟨hrequires, rfl⟩
  | cons u rest ih =>
    rw [grow] at h
    obtain ⟨sum, t₁, hsum, h⟩ := Stateful.run_bind_eq_ok.mp h
    obtain ⟨-, rfl⟩ := Stateful.run_ofExcept_eq_ok.mp hsum
    obtain ⟨decided, t₂, hdecide, h⟩ := Stateful.run_bind_eq_ok.mp h
    split at h
    · rename_i hdone
      cases h
      rw [hdone] at hcovered
      cases hcovered
    · rename_i hdone
      obtain ⟨hnext, hlength⟩ := requires_of_decide hdecide (Bool.eq_false_iff.mpr hdone)
      obtain ⟨hlast, hlength'⟩ := ih hnext h
      refine ⟨hlast, ?_⟩
      rw [hlength', hlength, List.length_cons]
      omega

lemma run_grow_eq_error {e : Error}
    (h : (grow amount dust (logged estimate) chosen total coverage rest).run.run t =
      (.error e, t')) : e = .amountOverflow := by
  induction rest generalizing chosen total coverage t with
  | nil => cases h
  | cons u rest ih =>
    rw [grow] at h
    rcases Stateful.run_bind_eq_error.mp h with h | ⟨sum, t₁, -, h⟩
    · exact Amount.ofNat_eq_error (Stateful.run_ofExcept_eq_error.mp h).1
    · rcases Stateful.run_bind_eq_error.mp h with h | ⟨decided, t₂, -, h⟩
      · exact Coverage.run_decide_eq_error
          (fun withChange => run_logged_ne_error estimate _ withChange e) h
      · split at h
        · cases h
        · exact ih h

/-- A shortfall requires the amount and the last of the fees, of which there are two for every
output that may be spent. -/
lemma requires_of_forPayment
    (h : (forPayment utxos amount dust (logged estimate)).run.run (s, []) =
      (.error (.insufficientFunds required available), s', fees)) :
    available.toNat = worth utxos ∧ fees.length = 2 * (spendable utxos).length ∧
      required.toNat = amount.toNat + (fees.getLastD 0).toNat := by
  rw [forPayment] at h
  rcases Stateful.run_bind_eq_error.mp h with h | ⟨available', t₁, hsum, h⟩
  · cases Amount.ofNat_eq_error (Stateful.run_ofExcept_eq_error.mp h).1
  · obtain ⟨havailable, rfl⟩ := Stateful.run_ofExcept_eq_ok.mp hsum
    rw [sum, Amount.sum_eq_ok_iff, exactSum_largestFirst] at havailable
    rcases Stateful.run_bind_eq_error.mp h with h | ⟨⟨chosen, coverage⟩, t₂, hgrow, h⟩
    · cases run_grow_eq_error h
    · have hstart : Requires amount [] (.short 0 amount) := ⟨0, amount, rfl, rfl⟩
      have hcovered : coverage.isCovered = false := by
        cases coverage with
        | withChange => cases h
        | exact => cases h
        | short => rfl
        | exhausted => rfl
      obtain ⟨⟨total, required', rfl, hrequired⟩, hlength⟩ :=
        requires_of_grow hstart hgrow hcovered
      cases h
      rw [length_largestFirst] at hlength
      exact ⟨havailable, by simpa using hlength, hrequired⟩

/-! ### What is required -/

/-- A shortfall for which fees were estimated requires the amount and the last of them. So what is
required is the amount and the least fee exactly when no fee was less than the last one. -/
theorem forPayment_requires_last
    (h : (forPayment utxos amount dust (logged estimate)).run.run (s, []) =
      (.error (.insufficientFunds required available), s', fees)) (hne : fees ≠ []) :
    available.toNat = worth utxos ∧ fees.length = 2 * (spendable utxos).length ∧
    ∃ last ∈ fees.getLast?, required.toNat = amount.toNat + last.toNat ∧
      ((∃ least ∈ fees, (∀ fee ∈ fees, least ≤ fee) ∧
        required.toNat = amount.toNat + least.toNat) ↔ ∀ fee ∈ fees, last ≤ fee) := by
  obtain ⟨havailable, hlength, hrequired⟩ := requires_of_forPayment h
  have hlast : fees.getLastD 0 = fees.getLast hne := by
    rw [List.getLastD_eq_getLast?, List.getLast?_eq_some_getLast hne, Option.getD_some]
  refine ⟨havailable, hlength, fees.getLast hne, List.getLast?_eq_some_getLast hne, ?_, ?_⟩
  · rw [hrequired, hlast]
  · constructor
    · rintro ⟨least, -, hle, hleast⟩
      have heq : fees.getLast hne = least := by
        rw [hrequired, hlast] at hleast
        exact UInt64.toNat_inj.mp (Nat.add_left_cancel hleast)
      rw [heq]
      exact hle
    · intro hle
      exact ⟨fees.getLast hne, List.getLast_mem hne, hle, by rw [hrequired, hlast]⟩

/-- The fees for one, two and three outputs of a handful, each with change and without. -/
def handfulFees : List UInt64 := [2000, 1600, 3000, 2600, 4000, 3600]

/-- The estimate that looks at the number of outputs alone, and has no state. -/
def stateless (fee : Nat → Bool → UInt64) (chosen : List UnspentOutput) (withChange : Bool) :
    StateM Unit UInt64 :=
  pure (fee chosen.length withChange)

lemma run_handful :
    (forPayment handful 20000 10000 (logged (stateless cappedFee))).run.run ((), []) =
      (.error (.insufficientFunds 23600 15000), (), handfulFees) := by
  simp only [forPayment, largestFirst_handful]
  rfl

/-- A handful of outputs falls short of what it costs to spend all of them. -/
theorem handful_requires_last :
    (forPayment handful 20000 10000 (logged (stateless cappedFee))).run.run ((), []) =
      (.error (.insufficientFunds 23600 15000), (), handfulFees) ∧
    (23600 : UInt64).toNat = (20000 : UInt64).toNat + (3600 : UInt64).toNat := by
  obtain ⟨-, -, last, hlast, hrequired, -⟩ := forPayment_requires_last run_handful
    (List.cons_ne_nil _ _)
  cases hlast
  exact ⟨run_handful, hrequired⟩

/-- It costs less to spend one of them. -/
theorem handful_exceeds_least :
    (forPayment handful 20000 10000 (logged (stateless cappedFee))).run.run ((), []) =
      (.error (.insufficientFunds 23600 15000), (), handfulFees) ∧
    handfulFees ≠ [] ∧ ¬ ∃ least ∈ handfulFees, (∀ fee ∈ handfulFees, least ≤ fee) ∧
      (23600 : UInt64).toNat = (20000 : UInt64).toNat + least.toNat := by
  refine ⟨run_handful, List.cons_ne_nil _ _, ?_⟩
  rintro ⟨least, -, hle, hsum⟩
  have hleast : least ≤ 1600 := hle 1600 (by simp [handfulFees])
  simp only [UInt64.le_iff_toNat_le, UInt64.reduceToNat] at hleast hsum
  omega

end Funding

end LedgerPost
