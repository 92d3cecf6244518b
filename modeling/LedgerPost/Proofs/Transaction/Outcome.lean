import LedgerPost.Proofs.Transaction.Hiding
import Mathlib.Order.Bounds.Basic

/-!
# Outcomes of reports

Each input of a report is due a verdict, and the outcome follows from the verdicts: the first
mismatch makes the report invalid, wherever an input is skipped; without one the first skipped input
leaves it undecided. Only a fatal address in front of the first mismatch ends the run without an
outcome.
-/

namespace LedgerPost.Report

/-! ### Verdicts and positions -/

/-- The verdict that is due to the input with a position. -/
inductive Due (resolver : Resolver) (r : Report) (index : Nat) : Verdict → Prop
  | unknownScript {input : ReportedInput} (hinput : r.inputs[index]? = some input)
      (hscript : Script.signature? input.signatureScript = none) :
      Due resolver r index (.skipped .unknownScript)
  | noAddress {input : ReportedInput} {signature : Signature}
      (hinput : r.inputs[index]? = some input)
      (hscript : Script.signature? input.signatureScript = some signature)
      (haddress : input.spenderAddress = none) :
      Due resolver r index (.skipped .noAddress)
  | noAmount {input : ReportedInput} {signature : Signature} {address : String}
      (hinput : r.inputs[index]? = some input)
      (hscript : Script.signature? input.signatureScript = some signature)
      (haddress : input.spenderAddress = some address) (hamount : input.spentAmount = none) :
      Due resolver r index (.skipped .noAmount)
  | unresolved {input : ReportedInput} {signature : Signature} {address : String}
      {amount : UInt64} {e : Error} (hinput : r.inputs[index]? = some input)
      (hscript : Script.signature? input.signatureScript = some signature)
      (haddress : input.spenderAddress = some address) (hamount : input.spentAmount = some amount)
      (hresolver : resolver address = .error e) (hfatal : e.isFatal = false) :
      Due resolver r index (.skipped (.unresolved e))
  | notPublicKey {input : ReportedInput} {signature : Signature} {address : String}
      {amount : UInt64} {script : ScriptPublicKey} (hinput : r.inputs[index]? = some input)
      (hscript : Script.signature? input.signatureScript = some signature)
      (haddress : input.spenderAddress = some address) (hamount : input.spentAmount = some amount)
      (hresolver : resolver address = .ok script) (hpayee : payee? script = none) :
      Due resolver r index (.skipped .notPublicKey)
  | verified {input : ReportedInput} {signature : Signature} {key : PublicKey}
      {spent : SpentOutput} (h : r.Checks resolver index input signature key spent)
      (hverify : Schnorr.verify key (r.digest input spent) signature = true) :
      Due resolver r index .verified
  | mismatch {input : ReportedInput} {signature : Signature} {key : PublicKey}
      {spent : SpentOutput} (h : r.Checks resolver index input signature key spent)
      (hverify : Schnorr.verify key (r.digest input spent) signature = false) :
      Due resolver r index .mismatch

/-- The check of the input with a position ends the run: nothing is missing, but the resolver has
no answer to the address. -/
structure Breaks (resolver : Resolver) (r : Report) (index : Nat) (e : Error) : Prop where
  input : ∃ input address, r.inputs[index]? = some input ∧
    (Script.signature? input.signatureScript).isSome = true ∧
    input.spenderAddress = some address ∧ input.spentAmount.isSome = true ∧
    resolver address = .error e
  fatal : e.isFatal = true

variable {resolver : Resolver} {r : Report} {index : Nat} {input : ReportedInput}
  {verdict : Verdict} {e : Error}

lemma Due.exists_input (h : r.Due resolver index verdict) :
    ∃ input, r.inputs[index]? = some input := by
  cases h with
  | unknownScript hinput => exact ⟨_, hinput⟩
  | noAddress hinput => exact ⟨_, hinput⟩
  | noAmount hinput => exact ⟨_, hinput⟩
  | unresolved hinput => exact ⟨_, hinput⟩
  | notPublicKey hinput => exact ⟨_, hinput⟩
  | verified h => exact ⟨_, h.found⟩
  | mismatch h => exact ⟨_, h.found⟩

lemma Due.verdict_eq (h : r.Due resolver index verdict) (hinput : r.inputs[index]? = some input) :
    r.verdict resolver index input = .ok verdict := by
  cases h with
  | unknownScript hfound hscript =>
    obtain rfl := Option.some.inj (hinput.symm.trans hfound)
    rw [Report.verdict, checkInput, hscript]
  | noAddress hfound hscript haddress =>
    obtain rfl := Option.some.inj (hinput.symm.trans hfound)
    rw [Report.verdict, checkInput, hscript, haddress]
  | noAmount hfound hscript haddress hamount =>
    obtain rfl := Option.some.inj (hinput.symm.trans hfound)
    rw [Report.verdict, checkInput, hscript, haddress, hamount]
  | unresolved hfound hscript haddress hamount hresolver hfatal =>
    obtain rfl := Option.some.inj (hinput.symm.trans hfound)
    rw [Report.verdict, checkInput, hscript, haddress, hamount]
    dsimp only
    rw [hresolver]
    exact if_neg (Bool.eq_false_iff.mp hfatal)
  | notPublicKey hfound hscript haddress hamount hresolver hpayee =>
    obtain rfl := Option.some.inj (hinput.symm.trans hfound)
    rw [Report.verdict, checkInput, hscript, haddress, hamount]
    dsimp only
    rw [hresolver]
    dsimp only
    rw [checkSignature, hpayee]
  | verified h hverify =>
    obtain rfl := Option.some.inj (hinput.symm.trans h.found)
    rw [h.verdict_eq, if_pos hverify]
  | mismatch h hverify =>
    obtain rfl := Option.some.inj (hinput.symm.trans h.found)
    rw [h.verdict_eq, if_neg (Bool.eq_false_iff.mp hverify)]

lemma Breaks.verdict_eq (h : r.Breaks resolver index e) (hinput : r.inputs[index]? = some input) :
    r.verdict resolver index input = .error e := by
  obtain ⟨⟨input', address, hfound, hscript, haddress, hamount, hresolver⟩, hfatal⟩ := h
  obtain rfl := Option.some.inj (hinput.symm.trans hfound)
  obtain ⟨signature, hscript⟩ := Option.isSome_iff_exists.mp hscript
  obtain ⟨amount, hamount⟩ := Option.isSome_iff_exists.mp hamount
  rw [Report.verdict, checkInput, hscript, haddress, hamount]
  dsimp only
  rw [hresolver]
  exact if_pos hfatal

/-- Every input is due a verdict, or its check ends the run. -/
lemma due_or_breaks (resolver : Resolver) (hinput : r.inputs[index]? = some input) :
    (∃ verdict, r.Due resolver index verdict) ∨ ∃ e, r.Breaks resolver index e := by
  cases hscript : Script.signature? input.signatureScript with
  | none => exact .inl ⟨_, .unknownScript hinput hscript⟩
  | some signature =>
  cases haddress : input.spenderAddress with
  | none => exact .inl ⟨_, .noAddress hinput hscript haddress⟩
  | some address =>
  cases hamount : input.spentAmount with
  | none => exact .inl ⟨_, .noAmount hinput hscript haddress hamount⟩
  | some amount =>
  cases hresolver : resolver address with
  | error e =>
    cases hfatal : e.isFatal with
    | false => exact .inl ⟨_, .unresolved hinput hscript haddress hamount hresolver hfatal⟩
    | true =>
      exact .inr ⟨e, ⟨input, address, hinput, by simp [hscript], haddress, by simp [hamount],
        hresolver⟩, hfatal⟩
  | ok script =>
  cases hpayee : payee? script with
  | none => exact .inl ⟨_, .notPublicKey hinput hscript haddress hamount hresolver hpayee⟩
  | some key =>
    have hchecks : r.Checks resolver index input signature key ⟨amount, script⟩ :=
      ⟨hinput, hscript, ⟨address, haddress, hresolver⟩, hamount, hpayee⟩
    cases hverify : Schnorr.verify key (r.digest input ⟨amount, script⟩) signature with
    | true => exact .inl ⟨_, .verified hchecks hverify⟩
    | false => exact .inl ⟨_, .mismatch hchecks hverify⟩

/-- The check of an input finds the verdict that is due. -/
lemma verdict_eq_ok_iff (hinput : r.inputs[index]? = some input) :
    r.verdict resolver index input = .ok verdict ↔ r.Due resolver index verdict := by
  refine ⟨fun h => ?_, fun h => h.verdict_eq hinput⟩
  rcases due_or_breaks resolver hinput with ⟨verdict', hdue⟩ | ⟨e, hbreaks⟩
  · rw [hdue.verdict_eq hinput] at h
    cases h
    exact hdue
  · rw [hbreaks.verdict_eq hinput] at h
    cases h

lemma verdict_eq_error_iff (hinput : r.inputs[index]? = some input) :
    r.verdict resolver index input = .error e ↔ r.Breaks resolver index e := by
  refine ⟨fun h => ?_, fun h => h.verdict_eq hinput⟩
  rcases due_or_breaks resolver hinput with ⟨verdict, hdue⟩ | ⟨e', hbreaks⟩
  · rw [hdue.verdict_eq hinput] at h
    cases h
  · rw [hbreaks.verdict_eq hinput] at h
    cases h
    exact hbreaks

/-- The check passes an input when it neither ends the run nor finds a mismatch. -/
lemma passes_iff (hinput : r.inputs[index]? = some input) :
    Passes (r.verdict resolver) (input, index) ↔
      ¬ r.Due resolver index .mismatch ∧ ∀ e, ¬ r.Breaks resolver index e := by
  rw [← not_iff_not, not_passes_iff, not_and_or, not_not, not_forall_not]
  simp only [verdict_eq_ok_iff hinput, verdict_eq_error_iff hinput]
  exact or_comm

/-! ### Outcomes and positions -/

section

variable {check : Nat → ReportedInput → Except Error Verdict} {skipped : Option (Nat × SkipReason)}
  {inputs : List ReportedInput} {reason : SkipReason} {n k : Nat}

/-- An outcome is undecided when every input passes, because of the input that was skipped before or
else of the first one that is. -/
lemma outcomeFrom_eq_skipped_iff :
    outcomeFrom check skipped (inputs.zipIdx n) = .ok (.skipped k reason) ↔
      (∀ j i, inputs[j]? = some i → Passes check (i, n + j)) ∧
        (skipped = some (k, reason) ∨ skipped = none ∧
          FirstAt (fun i k => check k i = .ok (.skipped reason))
            (fun i k => check k i = .ok .verified) inputs n k) := by
  induction inputs generalizing n skipped with
  | nil => cases skipped <;> simp [outcomeFrom, not_firstAt_nil, Prod.ext_iff]
  | cons input inputs ih =>
    rw [List.zipIdx_cons, forall_getElem?_cons (p := fun i k => Passes check (i, k)), firstAt_cons,
      outcomeFrom]
    cases hcheck : check n input with
    | error e => simp [Passes, hcheck]
    | ok verdict =>
      cases verdict with
      | verified =>
        have hpasses : Passes check (input, n) := ⟨_, hcheck, by simp⟩
        simp [ih, hpasses]
      | mismatch => simp [Passes, hcheck]
      | skipped reason' =>
        have hpasses : Passes check (input, n) := ⟨_, hcheck, by simp⟩
        cases skipped with
        | none => simp [ih, hpasses, eq_comm]
        | some p => simp [ih, hpasses]

lemma outcomeFrom_ne_noInputs {inputs : List (ReportedInput × Nat)} :
    outcomeFrom check skipped inputs ≠ .ok .noInputs := by
  induction inputs generalizing skipped with
  | nil => cases skipped <;> simp [outcomeFrom]
  | cons p inputs ih =>
    rw [outcomeFrom]
    split
    · simp
    · exact ih
    · simp
    · exact ih

/-- A position in a list is a way to cut the list in two. -/
lemma exists_append_cons_iff {p : Nat → ReportedInput → Prop} {q : ReportedInput × Nat → Prop} :
    (∃ before input after, inputs = before ++ input :: after ∧ p before.length input ∧
        ∀ x ∈ before.zipIdx, q x) ↔
      ∃ k i, inputs[k]? = some i ∧ p k i ∧ ∀ j < k, ∀ i, inputs[j]? = some i → q (i, j) := by
  constructor
  · rintro ⟨before, input, after, rfl, hp, hq⟩
    refine ⟨before.length, input, by simp, hp, fun j hj i hi => hq _ ?_⟩
    rw [List.getElem?_append_left hj] at hi
    exact List.mem_zipIdx_iff_getElem?.mpr hi
  · rintro ⟨k, input, hinput, hp, hq⟩
    obtain ⟨hlt, rfl⟩ := List.getElem?_eq_some_iff.mp hinput
    have hlength : (inputs.take k).length = k := List.length_take_of_le (Nat.le_of_lt hlt)
    refine ⟨inputs.take k, inputs[k], inputs.drop (k + 1), ?_, ?_, ?_⟩
    · rw [← List.drop_eq_getElem_cons hlt, List.take_append_drop]
    · rwa [hlength]
    · rintro ⟨i, j⟩ hmem
      have hi := List.mem_zipIdx_iff_getElem?.mp hmem
      have hj : j < k := by
        rw [← hlength]
        exact (List.getElem?_eq_some_iff.mp hi).1
      rw [List.getElem?_take_of_lt hj] at hi
      exact hq j hj i hi

end

variable {reason : SkipReason}

lemma verify_eq_valid_iff :
    r.verify resolver = .ok .valid ↔ r.inputs ≠ [] ∧ ∀ index input, r.inputs[index]? = some input →
      r.verdict resolver index input = .ok .verified := by
  refine ⟨verified_of_verify_eq_valid, ?_⟩
  rintro ⟨hne, hverified⟩
  apply verify_eq_valid hne
  rintro ⟨input, index⟩ hmem
  exact hverified index input (List.mem_zipIdx_iff_getElem?.mp hmem)

lemma verify_eq_noInputs_iff : r.verify resolver = .ok .noInputs ↔ r.inputs = [] := by
  by_cases hne : r.inputs = []
  · simp [verify, hne]
  · rw [verify_eq_outcomeFrom hne]
    exact iff_of_false outcomeFrom_ne_noInputs hne

lemma verify_eq_skipped_iff :
    r.verify resolver = .ok (.skipped index reason) ↔
      (∀ j i, r.inputs[j]? = some i → Passes (r.verdict resolver) (i, j)) ∧
      ∃ i, r.inputs[index]? = some i ∧ r.verdict resolver index i = .ok (.skipped reason) ∧
        ∀ j < index, ∀ i, r.inputs[j]? = some i → r.verdict resolver j i = .ok .verified := by
  by_cases hne : r.inputs = []
  · simp [verify, hne]
  · rw [verify_eq_outcomeFrom hne, outcomeFrom_eq_skipped_iff, firstAt_zero_iff]
    simp

/-! ### Outcomes and verdicts -/

lemma Due.unique {verdict' : Verdict} (h : r.Due resolver index verdict)
    (h' : r.Due resolver index verdict') : verdict = verdict' := by
  obtain ⟨input, hinput⟩ := h.exists_input
  have hverdict := h.verdict_eq hinput
  rw [h'.verdict_eq hinput] at hverdict
  cases hverdict
  rfl

/-- The check passes the input with a position, if there is one. -/
def PassesAt (resolver : Resolver) (r : Report) (index : Nat) : Prop :=
  ¬ r.Due resolver index .mismatch ∧ ∀ e, ¬ r.Breaks resolver index e

lemma passesAt_iff : r.PassesAt resolver index ↔
    ∀ i, r.inputs[index]? = some i → Passes (r.verdict resolver) (i, index) := by
  constructor
  · intro h i hi
    exact (passes_iff hi).mpr h
  · intro h
    constructor
    · intro hdue
      obtain ⟨i, hi⟩ := hdue.exists_input
      exact ((passes_iff hi).mp (h i hi)).1 hdue
    · intro e hbreaks
      obtain ⟨i, _, hi, -⟩ := hbreaks.input
      exact ((passes_iff hi).mp (h i hi)).2 e hbreaks

lemma due_iff : r.Due resolver index verdict ↔
    ∃ i, r.inputs[index]? = some i ∧ r.verdict resolver index i = .ok verdict := by
  constructor
  · intro h
    obtain ⟨i, hi⟩ := h.exists_input
    exact ⟨i, hi, h.verdict_eq hi⟩
  · rintro ⟨i, hi, h⟩
    exact (verdict_eq_ok_iff hi).mp h

/-- Of inputs that pass, those before the first one that is skipped are verified. -/
lemma verified_before_iff (hpasses : ∀ j, r.PassesAt resolver j) (hlt : index < r.inputs.length) :
    (∀ j < index, ∀ i, r.inputs[j]? = some i → r.verdict resolver j i = .ok .verified) ↔
      ∀ j < index, ∀ reason, ¬ r.Due resolver j (.skipped reason) := by
  refine forall₂_congr fun j hj => ?_
  have hinput := List.getElem?_eq_getElem (Nat.lt_trans hj hlt)
  constructor
  · intro h reason hskipped
    cases hskipped.unique ((verdict_eq_ok_iff hinput).mp (h _ hinput))
  · intro h i hi
    rcases due_or_breaks resolver hi with ⟨verdict, hdue⟩ | ⟨e, hbreaks⟩
    · cases verdict with
      | verified => exact hdue.verdict_eq hi
      | mismatch => exact absurd hdue (hpasses j).1
      | skipped reason => exact absurd hdue (h reason)
    · exact absurd hbreaks ((hpasses j).2 e)

lemma invalid_iff_isLeast :
    r.verify resolver = .ok (.invalid index) ↔
      IsLeast {i | r.Due resolver i .mismatch} index ∧
        ∀ j < index, ∀ e, ¬ r.Breaks resolver j e := by
  have hbefore : (∀ j < index, ∀ i, r.inputs[j]? = some i → Passes (r.verdict resolver) (i, j)) ↔
      ∀ j < index, r.PassesAt resolver j := forall₂_congr fun j _ => passesAt_iff.symm
  simp only [verify_eq_invalid_iff, hbefore, ← and_assoc, exists_and_right, ← due_iff]
  constructor
  · rintro ⟨hmismatch, hpasses⟩
    refine ⟨⟨hmismatch, fun j hj => ?_⟩, fun j hj => (hpasses j hj).2⟩
    exact Nat.le_of_not_lt fun hlt => (hpasses j hlt).1 hj
  · rintro ⟨⟨hmismatch, hleast⟩, hbreaks⟩
    refine ⟨hmismatch, fun j hj => ⟨fun hdue => ?_, hbreaks j hj⟩⟩
    exact Nat.not_le_of_lt hj (hleast hdue)

lemma valid_iff_due :
    r.verify resolver = .ok .valid ↔
      r.inputs ≠ [] ∧ ∀ index < r.inputs.length, r.Due resolver index .verified := by
  rw [verify_eq_valid_iff]
  refine and_congr_right fun _ => ?_
  constructor
  · intro h index hlt
    have hinput := List.getElem?_eq_getElem hlt
    exact due_iff.mpr ⟨_, hinput, h index _ hinput⟩
  · intro h index input hinput
    exact (h index (List.getElem?_eq_some_iff.mp hinput).1).verdict_eq hinput

lemma skipped_iff_isLeast :
    r.verify resolver = .ok (.skipped index reason) ↔
      IsLeast {i | ∃ reason, r.Due resolver i (.skipped reason)} index ∧
        r.Due resolver index (.skipped reason) ∧
        (∀ i, ¬ r.Due resolver i .mismatch) ∧ ∀ i e, ¬ r.Breaks resolver i e := by
  have hall : (∀ j i, r.inputs[j]? = some i → Passes (r.verdict resolver) (i, j)) ↔
      ∀ j, r.PassesAt resolver j := forall_congr' fun j => passesAt_iff.symm
  simp only [verify_eq_skipped_iff, hall, ← and_assoc, exists_and_right, ← due_iff]
  constructor
  · rintro ⟨⟨hpasses, hskipped⟩, hbefore⟩
    obtain ⟨input, hinput⟩ := hskipped.exists_input
    rw [verified_before_iff hpasses (List.getElem?_eq_some_iff.mp hinput).1] at hbefore
    refine ⟨⟨⟨⟨⟨reason, hskipped⟩, fun j hj => ?_⟩, hskipped⟩, fun i => (hpasses i).1⟩,
      fun i => (hpasses i).2⟩
    obtain ⟨reason', hj⟩ := hj
    exact Nat.le_of_not_lt fun hlt => hbefore j hlt reason' hj
  · rintro ⟨⟨⟨⟨-, hleast⟩, hskipped⟩, hmismatch⟩, hbreaks⟩
    have hpasses : ∀ j, r.PassesAt resolver j := fun j => ⟨hmismatch j, hbreaks j⟩
    obtain ⟨input, hinput⟩ := hskipped.exists_input
    refine ⟨⟨hpasses, hskipped⟩, ?_⟩
    rw [verified_before_iff hpasses (List.getElem?_eq_some_iff.mp hinput).1]
    intro j hj reason' hdue
    exact Nat.not_le_of_lt hj (hleast ⟨reason', hdue⟩)

lemma error_iff_breaks :
    r.verify resolver = .error e ↔
      ∃ index, r.Breaks resolver index e ∧ ∀ j < index, r.PassesAt resolver j := by
  rw [verify_eq_error_iff.trans (exists_append_cons_iff
    (p := fun k i => r.verdict resolver k i = .error e) (q := Passes (r.verdict resolver)))]
  refine exists_congr fun index => ?_
  simp only [← and_assoc, exists_and_right, passesAt_iff]
  refine and_congr_left fun _ => ?_
  constructor
  · rintro ⟨i, hi, hverdict⟩
    exact (verdict_eq_error_iff hi).mp hverdict
  · intro hbreaks
    obtain ⟨i, _, hi, -⟩ := hbreaks.input
    exact ⟨i, hi, hbreaks.verdict_eq hi⟩

/-- The outcome of a report follows from the verdicts that are due to its inputs. It is invalid at
the first mismatch, wherever inputs are skipped; valid if there are inputs and all are verified; and
otherwise undecided, because of the first input that is skipped or for want of inputs. Every input
is due a verdict, and no input lacks a digest; only where the resolver has no answer, the run ends
there, unless there is a mismatch before. -/
theorem verify_by_verdicts (resolver : Resolver) (r : Report) :
    (∀ index input, r.inputs[index]? = some input →
      (∀ verdict, r.verdict resolver index input = .ok verdict ↔ r.Due resolver index verdict) ∧
      (∀ e, r.verdict resolver index input = .error e ↔ r.Breaks resolver index e) ∧
      ∀ spent, r.toTransaction.inputDigest r.toTransaction.sharedDigests index spent =
        .ok (r.digest input spent)) ∧
    (∀ index, r.verify resolver = .ok (.invalid index) ↔
      IsLeast {i | r.Due resolver i .mismatch} index ∧
        ∀ j < index, ∀ e, ¬ r.Breaks resolver j e) ∧
    (r.verify resolver = .ok .valid ↔
      r.inputs ≠ [] ∧ ∀ index < r.inputs.length, r.Due resolver index .verified) ∧
    (r.verify resolver = .ok .noInputs ↔ r.inputs = []) ∧
    (∀ index reason, r.verify resolver = .ok (.skipped index reason) ↔
      IsLeast {i | ∃ reason, r.Due resolver i (.skipped reason)} index ∧
        r.Due resolver index (.skipped reason) ∧
        (∀ i, ¬ r.Due resolver i .mismatch) ∧ ∀ i e, ¬ r.Breaks resolver i e) ∧
    (∀ e, r.verify resolver = .error e ↔
      ∃ index, r.Breaks resolver index e ∧
        ∀ j < index, ¬ r.Due resolver j .mismatch ∧ ∀ e, ¬ r.Breaks resolver j e) := by
  refine ⟨?_, fun _ => invalid_iff_isLeast, valid_iff_due, verify_eq_noInputs_iff,
    fun _ _ => skipped_iff_isLeast, fun _ => error_iff_breaks⟩
  intro index input hinput
  refine ⟨fun _ => verdict_eq_ok_iff hinput, fun _ => verdict_eq_error_iff hinput, ?_⟩
  intro spent
  apply Transaction.inputDigest_eq_ok
  rw [toTransaction, List.getElem?_map, hinput]
  rfl

/-- A report with an address for a key of 33 bytes, and a signature that is none behind it. -/
def overlongCoins : Report :=
  { strayCoins with inputs := strayCoins.inputs.zipIdx.map fun (i, index) =>
      if index = 0 then { i with spenderAddress := some Address.overlong } else i }

set_option maxRecDepth 100000 in
/-- The first mismatch is not found behind an address that nobody can have. -/
theorem overlong_hides_mismatch :
    IsLeast {i | overlongCoins.Due Network.mainnet.resolver i .mismatch} 1 ∧
      overlongCoins.verify Network.mainnet.resolver = .error (.unfitPayload Address.overlong) := by
  have hbroken : overlongCoins.Breaks Network.mainnet.resolver 0
      (.unfitPayload Address.overlong) := by
    refine ⟨⟨_, Address.overlong, rfl, by decide +kernel, rfl, rfl, by decide +kernel⟩, rfl⟩
  have hmismatch : ∀ input, overlongCoins.inputs[1]? = some input →
      overlongCoins.verdict Network.mainnet.resolver 1 input = .ok .mismatch := by
    intro input hinput
    cases hinput
    decide +kernel
  refine ⟨⟨due_iff.mpr ⟨_, rfl, hmismatch _ rfl⟩, ?_⟩, ?_⟩
  · rintro (_ | i) hi
    · obtain ⟨input, hinput⟩ := hi.exists_input
      have hverdict := hi.verdict_eq hinput
      rw [hbroken.verdict_eq hinput] at hverdict
      cases hverdict
    · exact Nat.succ_le_succ (Nat.zero_le i)
  · exact error_iff_breaks.mpr ⟨0, hbroken, fun j hj => absurd hj (Nat.not_lt_zero j)⟩

end LedgerPost.Report
