import LedgerPost.Proofs.Funding.Shortfall
import Mathlib.Order.Bounds.Basic

/-!
# The first decisive choice

Outputs are added one after the other, the largest first, and the first choice about which the
decision fails or covers the amount is the last one. So the answer is that of a search through the
beginnings of one list, whatever the estimate is.
-/

namespace LedgerPost.Funding

open Coverage

/-- The outputs that may be spent in descending order, in which equal ones keep theirs. -/
structure Descends (utxos sorted : List UnspentOutput) : Prop where
  perm : sorted.Perm (spendable utxos)
  pairwise : sorted.Pairwise fun u v => v.amount ≤ u.amount
  stable : ∀ amount, sorted.filter (·.amount = amount) =
    (spendable utxos).filter (·.amount = amount)

lemma descends_largestFirst (utxos : List UnspentOutput) : Descends utxos (largestFirst utxos) :=
  ⟨largestFirst_perm utxos, pairwise_largestFirst utxos, filter_largestFirst utxos⟩

/-- The decision about the sum of a choice. -/
def decision (amount dust : UInt64) (estimate : List UnspentOutput → Bool → Except Error UInt64)
    (chosen : List UnspentOutput) : Except Error Coverage := do
  Coverage.decide (← sum chosen) amount dust (estimate chosen)

/-- A decision after which no output is added. -/
inductive Decisive : Except Error Coverage → Prop
  | failed (e : Error) : Decisive (.error e)
  | covered {c : Coverage} (h : c.isCovered = true) : Decisive (.ok c)

instance : DecidablePred Decisive
  | .error e => isTrue (.failed e)
  | .ok c =>
    if h : c.isCovered = true then isTrue (.covered h)
    else isFalse fun hdecisive => by cases hdecisive with | covered h' => exact h h'

/-- The decision about a beginning of a list is decisive. -/
def DecisiveAt (amount dust : UInt64) (estimate : List UnspentOutput → Bool → Except Error UInt64)
    (sorted : List UnspentOutput) (k : Nat) : Prop :=
  1 ≤ k ∧ k ≤ sorted.length ∧ Decisive (decision amount dust estimate (sorted.take k))

instance (amount dust : UInt64) (estimate : List UnspentOutput → Bool → Except Error UInt64)
    (sorted : List UnspentOutput) : DecidablePred (DecisiveAt amount dust estimate sorted) :=
  fun _ => inferInstanceAs (Decidable (_ ∧ _ ∧ _))

/-- A funding that spends a choice, down to the last unit, and no less on the fee than estimated. -/
structure Pays (amount dust : UInt64) (estimate : List UnspentOutput → Bool → Except Error UInt64)
    (chosen : List UnspentOutput) (f : Funding) : Prop where
  utxos : f.utxos = chosen
  total : f.total.toNat = Amount.exactSum (chosen.map (·.amount))
  balance : f.total.toNat = amount.toNat + f.fee.toNat + f.change.toNat
  change : f.change = 0 ∨ dust < f.change
  fee : ∃ fee, estimate chosen f.hasChange = .ok fee ∧ fee ≤ f.fee

variable {utxos chosen rest : List UnspentOutput} {total amount dust : UInt64}
  {estimate : List UnspentOutput → Bool → Except Error UInt64} {coverage c : Coverage}
  {f : Funding} {k : Nat}

lemma not_decisive_iff {d : Except Error Coverage} :
    ¬ Decisive d ↔ ∃ c, d = .ok c ∧ c.isCovered = false := by
  constructor
  · intro h
    cases d with
    | error e => exact absurd (.failed e) h
    | ok c => exact ⟨c, rfl, Bool.eq_false_iff.mpr fun hcovered => h (.covered hcovered)⟩
  · rintro ⟨c, rfl, hshort⟩ (_ | hcovered)
    rw [hcovered] at hshort
    cases hshort

lemma decision_eq (htotal : total.toNat = Amount.exactSum (chosen.map (·.amount))) :
    decision amount dust estimate chosen = decide total amount dust (estimate chosen) := by
  rw [decision, show sum chosen = .ok total from Amount.sum_eq_ok_iff.mpr htotal]
  rfl

/-! ### Growing up to a decision -/

/-- One step of a choice stops when the decision about one more output is decisive, and else goes
on from there. -/
lemma grow_step {u : UnspentOutput}
    (htotal : total.toNat = Amount.exactSum (chosen.map (·.amount)))
    (hsize : Amount.exactSum ((chosen ++ u :: rest).map (·.amount)) < UInt64.size) :
    (Decisive (decision amount dust estimate (chosen ++ [u])) →
      grow amount dust estimate chosen total coverage (u :: rest) =
        (decision amount dust estimate (chosen ++ [u])).map (chosen ++ [u], ·)) ∧
    (∀ c, decision amount dust estimate (chosen ++ [u]) = .ok c → c.isCovered = false →
      ∃ sum : UInt64, sum.toNat = Amount.exactSum ((chosen ++ [u]).map (·.amount)) ∧
        grow amount dust estimate chosen total coverage (u :: rest) =
          grow amount dust estimate (chosen ++ [u]) sum c rest) := by
  obtain ⟨sum, hadd⟩ := Amount.exists_ofNat_eq_ok (n := total.toNat + u.amount.toNat) (by
    simp only [List.map_append, List.map_cons, Amount.exactSum_append, Amount.exactSum_cons]
      at hsize
    omega)
  have hsum : sum.toNat = total.toNat + u.amount.toNat := Amount.ofNat_eq_ok_iff.mp hadd
  have htotal' : sum.toNat = Amount.exactSum ((chosen ++ [u]).map (·.amount)) := by
    simp [hsum, htotal]
  rw [grow_cons hsum, ← decision_eq htotal']
  generalize decision amount dust estimate (chosen ++ [u]) = d
  constructor
  · rintro (e | hcovered)
    · rfl
    · exact if_pos hcovered
  · rintro c rfl hshort
    exact ⟨sum, htotal', if_neg (Bool.eq_false_iff.mp hshort)⟩

/-- A choice grows up to the first beginning that is decisive. -/
lemma grow_of_first (htotal : total.toNat = Amount.exactSum (chosen.map (·.amount)))
    (hsize : Amount.exactSum ((chosen ++ rest).map (·.amount)) < UInt64.size)
    (hlow : chosen.length < k) (hhigh : k ≤ (chosen ++ rest).length)
    (hdecisive : Decisive (decision amount dust estimate ((chosen ++ rest).take k)))
    (hbefore : ∀ j, chosen.length < j → j < k →
      ¬ Decisive (decision amount dust estimate ((chosen ++ rest).take j))) :
    grow amount dust estimate chosen total coverage rest =
      (decision amount dust estimate ((chosen ++ rest).take k)).map
        ((chosen ++ rest).take k, ·) := by
  induction rest generalizing chosen total coverage with
  | nil =>
    rw [List.append_nil] at hhigh
    omega
  | cons u rest ih =>
    have hassoc : chosen ++ u :: rest = chosen ++ [u] ++ rest := by simp
    have hlength : (chosen ++ [u]).length = chosen.length + 1 := List.length_append
    have htake : (chosen ++ u :: rest).take (chosen.length + 1) = chosen ++ [u] := by
      rw [hassoc, ← hlength, List.take_left]
    by_cases hnext : k = chosen.length + 1
    · rw [hnext, htake] at hdecisive ⊢
      exact (grow_step htotal hsize).1 hdecisive
    · have hundecided := hbefore (chosen.length + 1) (Nat.lt_succ_self _) (by omega)
      rw [htake, not_decisive_iff] at hundecided
      obtain ⟨c, hdecision, hshort⟩ := hundecided
      obtain ⟨sum, hsum, hgrow⟩ := (grow_step htotal hsize).2 c hdecision hshort
      rw [hgrow, hassoc]
      rw [hassoc] at hsize hhigh hdecisive hbefore
      exact ih hsum hsize (by omega) hhigh hdecisive fun j hj hjk => hbefore j (by omega) hjk

/-- When no beginning is decisive a choice grows by all that is left. -/
lemma grow_of_none (htotal : total.toNat = Amount.exactSum (chosen.map (·.amount)))
    (hsize : Amount.exactSum ((chosen ++ rest).map (·.amount)) < UInt64.size)
    (hshort : coverage.isCovered = false)
    (hnone : ∀ j, chosen.length < j → j ≤ (chosen ++ rest).length →
      ¬ Decisive (decision amount dust estimate ((chosen ++ rest).take j))) :
    ∃ c, grow amount dust estimate chosen total coverage rest = .ok (chosen ++ rest, c) ∧
      c.isCovered = false := by
  induction rest generalizing chosen total coverage with
  | nil =>
    rw [List.append_nil]
    exact ⟨coverage, rfl, hshort⟩
  | cons u rest ih =>
    have hassoc : chosen ++ u :: rest = chosen ++ [u] ++ rest := by simp
    have hlength : (chosen ++ [u]).length = chosen.length + 1 := List.length_append
    have htake : (chosen ++ u :: rest).take (chosen.length + 1) = chosen ++ [u] := by
      rw [hassoc, ← hlength, List.take_left]
    have hundecided := hnone (chosen.length + 1) (Nat.lt_succ_self _) (by simp)
    rw [htake, not_decisive_iff] at hundecided
    obtain ⟨c, hdecision, hshort'⟩ := hundecided
    obtain ⟨sum, hsum, hgrow⟩ := (grow_step htotal hsize).2 c hdecision hshort'
    rw [hgrow, hassoc]
    rw [hassoc] at hsize hnone
    exact ih hsum hsize hshort' fun j hj hjk => hnone j (by omega) hjk

/-! ### The answer -/

lemma sum_of_overflow (h : UInt64.size ≤ worth utxos) :
    sum (largestFirst utxos) = .error .amountOverflow := by
  rw [sum, Amount.sum, exactSum_largestFirst]
  exact if_neg (Nat.not_lt_of_le h)

/-- Sums that do not fit are refused before anything is estimated, whatever an estimate would do
besides. -/
lemma forPayment_of_overflow {m : Type → Type} [Monad m] [LawfulMonad m]
    (h : UInt64.size ≤ worth utxos)
    (estimate : List UnspentOutput → Bool → ExceptT Error m UInt64) :
    forPayment utxos amount dust estimate = throw .amountOverflow := by
  rw [forPayment, sum_of_overflow h]
  apply ExceptT.ext
  exact pure_bind _ _

/-- The answer after a sum that fits. -/
lemma forPayment_eq (hsize : worth utxos < UInt64.size) (amount dust : UInt64)
    (estimate : List UnspentOutput → Bool → Except Error UInt64) :
    ∃ available : UInt64, available.toNat = worth utxos ∧
      forPayment utxos amount dust estimate =
        grow amount dust estimate [] 0 (.short 0 amount) (largestFirst utxos) >>= fun p =>
          settle p.1 available p.2 := by
  obtain ⟨available, havailable⟩ := Amount.exists_ofNat_eq_ok hsize
  have hsum : sum (largestFirst utxos) = .ok available := by
    rw [sum, Amount.sum, exactSum_largestFirst, havailable]
  refine ⟨available, Amount.ofNat_eq_ok_iff.mp havailable, ?_⟩
  rw [forPayment, ofExcept_eq_self, hsum]
  rfl

lemma forPayment_of_first (hsize : worth utxos < UInt64.size)
    (hfirst : IsLeast {j | DecisiveAt amount dust estimate (largestFirst utxos) j} k) :
    ∃ available : UInt64, forPayment utxos amount dust estimate =
      decision amount dust estimate ((largestFirst utxos).take k) >>= fun c =>
        settle ((largestFirst utxos).take k) available c := by
  obtain ⟨⟨hlow, hhigh, hdecisive⟩, hleast⟩ := hfirst
  obtain ⟨available, -, heq⟩ := forPayment_eq hsize amount dust estimate
  rw [← exactSum_largestFirst] at hsize
  have hgrow : grow amount dust estimate [] 0 (.short 0 amount) (largestFirst utxos) =
      (decision amount dust estimate ((largestFirst utxos).take k)).map
        ((largestFirst utxos).take k, ·) :=
    grow_of_first rfl hsize hlow hhigh hdecisive fun j hj hjk hd =>
      Nat.not_le_of_lt hjk (hleast ⟨hj, Nat.le_trans (Nat.le_of_lt hjk) hhigh, hd⟩)
  refine ⟨available, ?_⟩
  rw [heq, hgrow]
  cases decision amount dust estimate ((largestFirst utxos).take k) <;> rfl

lemma forPayment_of_none (hsize : worth utxos < UInt64.size)
    (hnone : ∀ j, ¬ DecisiveAt amount dust estimate (largestFirst utxos) j) :
    ∃ required available : UInt64, available.toNat = worth utxos ∧
      forPayment utxos amount dust estimate = .error (.insufficientFunds required available) := by
  obtain ⟨available, havailable, heq⟩ := forPayment_eq hsize amount dust estimate
  rw [← exactSum_largestFirst] at hsize
  obtain ⟨c, hgrow, hshort⟩ :
      ∃ c, grow amount dust estimate [] 0 (.short 0 amount) (largestFirst utxos) =
        .ok (largestFirst utxos, c) ∧ c.isCovered = false :=
    grow_of_none rfl hsize rfl fun j hj hjk hd => hnone j ⟨hj, hjk, hd⟩
  rw [heq, hgrow]
  cases c with
  | short total required => exact ⟨required, available, havailable, rfl⟩
  | withChange => cases hshort
  | exact => cases hshort
  | exhausted total required => exact ⟨required, available, havailable, rfl⟩

/-- A funding that was settled pays for what it was settled about. -/
lemma Settles.pays (h : Settles utxos amount dust estimate f) :
    Pays amount dust estimate f.utxos f := by
  by_cases hchange : f.hasChange = true
  · obtain ⟨hdust, hfee⟩ := h.of_hasChange hchange
    refine ⟨rfl, h.total, h.total_eq, .inr hdust, f.fee, ?_, UInt64.le_refl f.fee⟩
    rw [hchange, hfee]
  · rw [Bool.not_eq_true] at hchange
    obtain ⟨full, bare, -, hbare, hle, -⟩ := h.of_not_hasChange hchange
    have hzero : f.change = 0 := by
      rcases h.decided_cases with ⟨hsome, -⟩ | ⟨-, hzero, -⟩
      · rw [hsome] at hchange
        cases hchange
      · exact hzero
    refine ⟨rfl, h.total, h.total_eq, .inl hzero, bare, ?_, UInt64.le_iff_toNat_le.mpr hle⟩
    rw [hchange, hbare]

/-- A first beginning that covers the amount is what is spent. -/
lemma exists_pays_of_first (hsize : worth utxos < UInt64.size)
    (hfirst : IsLeast {j | DecisiveAt amount dust estimate (largestFirst utxos) j} k)
    (hdecision : decision amount dust estimate ((largestFirst utxos).take k) = .ok c) :
    ∃ f, forPayment utxos amount dust estimate = .ok f ∧
      Pays amount dust estimate ((largestFirst utxos).take k) f := by
  have hcovered : c.isCovered = true := by
    have hdecisive := hfirst.1.2.2
    rw [hdecision] at hdecisive
    cases hdecisive with
    | covered h => exact h
  obtain ⟨available, heq⟩ := forPayment_of_first hsize hfirst
  obtain ⟨f, hsettle⟩ : ∃ f,
      settle ((largestFirst utxos).take k) available c = (.ok f : Except Error Funding) :=
    exists_settle_of_isCovered hcovered
  have hpayment : forPayment utxos amount dust estimate = .ok f := by
    rw [heq, hdecision]
    exact hsettle
  have hutxos : f.utxos = (largestFirst utxos).take k := by
    cases c with
    | withChange => cases hsettle; rfl
    | exact => cases hsettle; rfl
    | short => cases hsettle
    | exhausted => cases hsettle
  refine ⟨f, hpayment, ?_⟩
  rw [← hutxos]
  exact (Settles.of_forPayment hpayment).pays

/-- The answer is that of the first decisive beginning of the outputs, the largest of them first.
A decision that fails is the answer, and one that covers the amount is settled. -/
theorem forPayment_first_decisive (utxos : List UnspentOutput) (amount dust : UInt64) :
    Descends utxos (largestFirst utxos) ∧
    (UInt64.size ≤ worth utxos →
      (∀ estimate, (forPayment utxos amount dust estimate : Except Error Funding) =
        .error .amountOverflow) ∧
      ∀ (m : Type → Type) [Monad m] [LawfulMonad m]
        (estimate : List UnspentOutput → Bool → ExceptT Error m UInt64),
        forPayment utxos amount dust estimate = throw .amountOverflow) ∧
    (worth utxos < UInt64.size →
      ∀ estimate : List UnspentOutput → Bool → Except Error UInt64,
        (∀ k, IsLeast {j | DecisiveAt amount dust estimate (largestFirst utxos) j} k →
          (∀ e, decision amount dust estimate ((largestFirst utxos).take k) = .error e →
            forPayment utxos amount dust estimate = .error e) ∧
          ∀ c, decision amount dust estimate ((largestFirst utxos).take k) = .ok c →
            ∃ f, forPayment utxos amount dust estimate = .ok f ∧
              Pays amount dust estimate ((largestFirst utxos).take k) f) ∧
        ((∀ j, ¬ DecisiveAt amount dust estimate (largestFirst utxos) j) →
          ∃ required available : UInt64, available.toNat = worth utxos ∧
            forPayment utxos amount dust estimate =
              .error (.insufficientFunds required available))) := by
  refine ⟨descends_largestFirst utxos, ?_, ?_⟩
  · intro hoverflow
    constructor
    · intro estimate
      rw [forPayment, sum_of_overflow hoverflow]
      rfl
    · intro m _ _ estimate
      exact forPayment_of_overflow hoverflow estimate
  · intro hsize estimate
    refine ⟨?_, forPayment_of_none hsize⟩
    intro k hfirst
    constructor
    · intro e herror
      obtain ⟨available, heq⟩ := forPayment_of_first hsize hfirst
      rw [heq, herror]
      rfl
    · intro c hdecision
      exact exists_pays_of_first hsize hfirst hdecision

/-! ### A handful of outputs -/

/-- An output of an amount. -/
def coinOf (index : UInt32) (amount : UInt64) : UnspentOutput :=
  ⟨⟨⟨.zero 32⟩, index⟩, amount, .payToPublicKey (.zero 32), false⟩

/-- Three outputs and a block reward. -/
def handful : List UnspentOutput :=
  [coinOf 0 4000, { coinOf 1 90000 with isCoinbase := true }, coinOf 2 6000, coinOf 3 5000]

/-- Two outputs whose sum does not fit into a word. -/
def hoard : List UnspentOutput := [coinOf 0 18446744073709551615, coinOf 1 1]

lemma largestFirst_handful :
    largestFirst handful = [coinOf 2 6000, coinOf 3 5000, coinOf 0 4000] := by
  simp [largestFirst, spendable, handful, coinOf, List.mergeSort]

/-- A fee for every output and for change, which is not known for one number of outputs. -/
def linearFee (failsAt : Nat) (chosen : List UnspentOutput) (withChange : Bool) :
    Except Error UInt64 := do
  if chosen.length = failsAt then throw .amountOverflow
  Amount.ofNat (600 + 1000 * chosen.length + if withChange then 400 else 0)

lemma isLeast_of_decide {p : Nat → Prop} [DecidablePred p] {k : Nat} (h : p k)
    (hbefore : ∀ j < k, ¬ p j) : IsLeast {j | p j} k :=
  ⟨h, fun j hj => Nat.le_of_not_lt fun hlt => hbefore j hlt hj⟩

theorem handful_first_decisive :
    (UInt64.size ≤ worth hoard ∧
      (forPayment hoard 8000 10000 (linearFee 3) : Except Error Funding) =
        .error .amountOverflow) ∧
    worth handful < UInt64.size ∧
    (IsLeast {j | DecisiveAt 8000 10000 (linearFee 3) (largestFirst handful) j} 2 ∧
      ∃ f, forPayment handful 8000 10000 (linearFee 3) = .ok f ∧
        Pays 8000 10000 (linearFee 3) ((largestFirst handful).take 2) f) ∧
    (IsLeast {j | DecisiveAt 20000 10000 (linearFee 3) (largestFirst handful) j} 3 ∧
      forPayment handful 20000 10000 (linearFee 3) = .error .amountOverflow) ∧
    ((∀ j, ¬ DecisiveAt 20000 10000 (linearFee 9) (largestFirst handful) j) ∧
      ∃ required available : UInt64, available.toNat = worth handful ∧
        forPayment handful 20000 10000 (linearFee 9) =
          .error (.insufficientFunds required available)) := by
  have hoverflow : UInt64.size ≤ worth hoard := by decide +kernel
  have hsize : worth handful < UInt64.size := by decide +kernel
  have hcovers : IsLeast {j | DecisiveAt 8000 10000 (linearFee 3) (largestFirst handful) j} 2 := by
    rw [largestFirst_handful]
    exact isLeast_of_decide (by decide +kernel) (by decide +kernel)
  have hfails : IsLeast {j | DecisiveAt 20000 10000 (linearFee 3) (largestFirst handful) j} 3 := by
    rw [largestFirst_handful]
    exact isLeast_of_decide (by decide +kernel) (by decide +kernel)
  have hnone : ∀ j, ¬ DecisiveAt 20000 10000 (linearFee 9) (largestFirst handful) j := by
    have hshort : ∀ j < 4, ¬ DecisiveAt 20000 10000 (linearFee 9) (largestFirst handful) j := by
      rw [largestFirst_handful]
      decide +kernel
    intro j hj
    have hlength : j ≤ 3 := by simpa [largestFirst_handful] using hj.2.1
    exact hshort j (Nat.lt_succ_of_le hlength) hj
  obtain ⟨-, -, hsmall⟩ := forPayment_first_decisive handful 8000 10000
  obtain ⟨-, -, hlarge⟩ := forPayment_first_decisive handful 20000 10000
  refine ⟨⟨hoverflow, ((forPayment_first_decisive hoard 8000 10000).2.1 hoverflow).1 _⟩, hsize,
    ⟨hcovers, ?_⟩, ⟨hfails, ?_⟩, hnone, (hlarge hsize _).2 hnone⟩
  · apply ((hsmall hsize _).1 2 hcovers).2 (.exact 11000 3000)
    rw [largestFirst_handful]
    decide +kernel
  · apply ((hlarge hsize _).1 3 hfails).1
    rw [largestFirst_handful]
    decide +kernel

end LedgerPost.Funding
