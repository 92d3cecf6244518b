import LedgerPost.Proofs.Stateful
import LedgerPost.Proofs.Transaction.Encoding
import Mathlib.Data.Finset.Insert
import Mathlib.Data.Finset.Lattice.Lemmas

/-!
# Signing all inputs at once and one by one

All inputs are signed together: what their digests have in common is hashed once, and no script is
written before the last one is found. Signing the inputs one by one, with everything hashed anew in
the state that the last step left, leads to the same transaction in any order. Since a digest covers
no signature script, a transaction that is signed in part has the digests of the unsigned one.
-/

namespace LedgerPost.Transaction

/-! ### Signing as a change of a transaction -/

/-- The transaction with a signature script on the input at a position. -/
def withScript (tx : Transaction) (index : Nat) (script : Bytes) : Transaction :=
  { tx with inputs := tx.inputs.modify index fun i => { i with signatureScript := script } }

/-- Writes signature scripts on the inputs of the transaction that the state holds. -/
def writeScripts (scripts : List Bytes) : Stateful Transaction Unit :=
  scripts.zipIdx.forM fun (script, i) => modify fun tx => tx.withScript i script

/-- The signature scripts of a transaction, if there is one consumed output for each input. -/
def findScripts (tx : Transaction) (spent : List UnspentOutput) (key : SecretKey) :
    Except Error (List Bytes) :=
  if spent.length ≠ tx.inputs.length then
    .error (.spentCountMismatch tx.inputs.length spent.length)
  else
    spent.zipIdx.mapM fun (u, i) => signatureScript key tx tx.sharedDigests i u.spent

/-- Signs the transaction that the state holds. -/
def signInPlace (spent : List UnspentOutput) (key : SecretKey) : Stateful Transaction Unit := do
  let tx ← get
  let scripts ← MonadExcept.ofExcept (tx.findScripts spent key)
  writeScripts scripts

/-- Signs one input of a transaction, where nothing is hashed in advance. -/
def signInput (key : SecretKey) (tx : Transaction) (u : UnspentOutput) (index : Nat) :
    Except Error Transaction := do
  let digest ← tx.signingDigest index u.spent
  return tx.withScript index (Script.ofSignature (Schnorr.sign key digest))

/-- The transaction with a signature of each input at certain positions, and the rest as it is. -/
def partlySigned (tx : Transaction) (key : SecretKey) (spent : List UnspentOutput)
    (positions : Finset Nat) : Transaction :=
  tx.resealed fun n script =>
    if n ∈ positions then (tx.signatureScripts key spent).getD n script else script

variable {tx tx' : Transaction} {key : SecretKey} {spent : List UnspentOutput} {index : Nat}
  {positions : Finset Nat}

/-! ### Digests do not depend on signature scripts -/

lemma sealInput_congr {i i' : Input} {u : UnspentOutput} (htx : tx.unsigned = tx'.unsigned)
    (hi : i.cleared = i'.cleared) : tx.sealInput key i u = tx'.sealInput key i' u := by
  have hdigest := digestFor_congr (s := u.spent) htx hi
  simp only [Input.cleared, Input.mk.injEq] at hi
  simp only [sealInput, hdigest, hi]

/-- Transactions that differ in signature scripts have inputs that do. -/
lemma map_cleared_congr (h : tx.unsigned = tx'.unsigned) :
    tx.inputs.map Input.cleared = tx'.inputs.map Input.cleared :=
  congrArg Transaction.inputs h

lemma cleared_getElem? (h : tx.unsigned = tx'.unsigned) (n : Nat) :
    tx.inputs[n]?.map Input.cleared = tx'.inputs[n]?.map Input.cleared := by
  rw [← List.getElem?_map, map_cleared_congr h, List.getElem?_map]

lemma length_inputs_congr (h : tx.unsigned = tx'.unsigned) :
    tx.inputs.length = tx'.inputs.length := by
  simpa using congrArg List.length (map_cleared_congr h)

/-- The digest of an input, whatever signature scripts there are. -/
lemma signingDigest_congr {input : Input} (s : SpentOutput) (h : tx.unsigned = tx'.unsigned)
    (hinput : tx'.inputs[index]? = some input) :
    tx.signingDigest index s = .ok (tx'.digestFor input s) := by
  have hcleared := cleared_getElem? h index
  rw [hinput] at hcleared
  obtain ⟨i, hi, hcleared⟩ := Option.map_eq_some_iff.mp hcleared
  rw [signingDigest, inputDigest_eq_ok hi, digestFor_congr h hcleared]

/-- Earlier signature scripts leave no trace in the signed transaction. -/
lemma signed_congr (h : tx.unsigned = tx'.unsigned) :
    tx.signed key spent = tx'.signed key spent := by
  have hinputs : tx.inputs.zipWith (tx.sealInput key) spent =
      tx'.inputs.zipWith (tx'.sealInput key) spent := by
    apply List.ext_getElem?
    intro n
    have hcleared := cleared_getElem? h n
    rw [List.getElem?_zipWith, List.getElem?_zipWith]
    rcases hn : tx.inputs[n]? with _ | i
    · rw [hn] at hcleared
      rw [Option.map_eq_none_iff.mp hcleared.symm]
    · rw [hn] at hcleared
      obtain ⟨i', hn', hi⟩ := Option.map_eq_some_iff.mp hcleared.symm
      rw [hn']
      cases spent[n]? with
      | none => rfl
      | some u => exact congrArg some (sealInput_congr h hi.symm)
  simp only [unsigned_eq, mk.injEq] at h
  simp only [signed, mk.injEq]
  exact ⟨h.1, hinputs, h.2.2⟩

/-! ### Transactions that are signed in part -/

lemma partlySigned_empty : tx.partlySigned key spent ∅ = tx := by
  have hinputs : tx.inputs.mapIdx (fun _ i => i) = tx.inputs :=
    List.mapIdx_eq_iff.mpr fun n => by simp
  simp only [partlySigned, resealed, Finset.notMem_empty, if_false]
  rw [hinputs]

/-- Writing one more of the scripts. -/
lemma withScript_partlySigned {script : Bytes}
    (h : (tx.signatureScripts key spent)[index]? = some script) :
    (tx.partlySigned key spent positions).withScript index script =
      tx.partlySigned key spent (insert index positions) := by
  simp only [withScript, partlySigned, resealed, mk.injEq, true_and, and_true]
  apply List.ext_getElem?
  intro n
  rw [List.getElem?_modify, List.getElem?_mapIdx, List.getElem?_mapIdx, Option.map_eq_map,
    Option.map_map]
  refine congrArg (Option.map · _) (funext fun i => ?_)
  by_cases hn : index = n
  · subst hn
    simp [List.getD_eq_getElem?_getD, h]
  · simp [hn, Ne.symm hn]

/-- With a signature at each position the transaction is signed. -/
lemma partlySigned_eq_signed (h : spent.length = tx.inputs.length)
    (hall : ∀ n < tx.inputs.length, n ∈ positions) :
    tx.partlySigned key spent positions = tx.signed key spent := by
  simp only [partlySigned, resealed, signed_eq, mk.injEq, true_and, and_true]
  apply List.ext_getElem
  · simp [signatureScripts, h]
  · intro n h₁ h₂
    have hn : n < tx.inputs.length := by simpa using h₁
    have hscript : n < (tx.signatureScripts key spent).length := by simp [signatureScripts, h, hn]
    simp [hall n hn, List.getD_eq_getElem?_getD, hscript]

/-- The scripts are written one after the other. -/
lemma foldl_withScript (writes : List (Bytes × Nat))
    (h : ∀ w ∈ writes, (tx.signatureScripts key spent)[w.2]? = some w.1) :
    writes.foldl (fun tx w => tx.withScript w.2 w.1) (tx.partlySigned key spent positions) =
      tx.partlySigned key spent (positions ∪ (writes.map Prod.snd).toFinset) := by
  induction writes generalizing positions with
  | nil => simp
  | cons w writes ih =>
    obtain ⟨hw, h⟩ := List.forall_mem_cons.mp h
    rw [List.foldl_cons, withScript_partlySigned hw, ih h, List.map_cons, List.toFinset_cons,
      Finset.insert_union, Finset.union_insert]

/-! ### Signing in place -/

lemma run_writeScripts (h : spent.length = tx.inputs.length) :
    (writeScripts (tx.signatureScripts key spent)).run.run tx = (.ok (), tx.signed key spent) := by
  have hscripts : ∀ w ∈ (tx.signatureScripts key spent).zipIdx,
      (tx.signatureScripts key spent)[w.2]? = some w.1 := by
    rintro ⟨script, n⟩ hmem
    exact List.mem_zipIdx_iff_getElem?.mp hmem
  have hall : ∀ n < tx.inputs.length,
      n ∈ ∅ ∪ ((tx.signatureScripts key spent).zipIdx.map Prod.snd).toFinset := by
    simp [signatureScripts, h]
  calc (writeScripts (tx.signatureScripts key spent)).run.run tx
      = (.ok (), (tx.signatureScripts key spent).zipIdx.foldl
          (fun tx w => tx.withScript w.2 w.1) (tx.partlySigned key spent ∅)) := by
        rw [partlySigned_empty]
        exact Stateful.run_forM_modify _ _ _
    _ = (.ok (), tx.signed key spent) := by
        rw [foldl_withScript _ hscripts, partlySigned_eq_signed h hall]

/-- Signing in place leaves behind the signed transaction, or what was there if it fails. -/
theorem run_signInPlace (tx : Transaction) (spent : List UnspentOutput) (key : SecretKey) :
    (signInPlace spent key).run.run tx =
      match tx.sign spent key with
      | .ok signed => (.ok (), signed)
      | .error e => (.error e, tx) := by
  rw [signInPlace, Stateful.run_get_bind]
  by_cases h : spent.length = tx.inputs.length
  · have hfind : tx.findScripts spent key = .ok (tx.signatureScripts key spent) := by
      rw [findScripts, if_neg (by omega)]
      exact mapM_signatureScript h
    rw [hfind, sign_eq_ok h]
    exact Stateful.run_bind_eq_ok.mpr ⟨_, tx, Stateful.run_ofExcept _ _, run_writeScripts h⟩
  · rw [findScripts, if_pos h, sign_eq_error h]
    exact Stateful.run_bind_eq_error.mpr (.inl (Stateful.run_ofExcept _ _))

/-! ### Signing one by one -/

lemma exists_getElem?_inputs {u : UnspentOutput} (h : spent.length = tx.inputs.length)
    (hu : spent[index]? = some u) : ∃ input, tx.inputs[index]? = some input := by
  have hindex : index < tx.inputs.length := by
    rw [← h]
    exact (List.getElem?_eq_some_iff.mp hu).1
  exact ⟨_, List.getElem?_eq_getElem hindex⟩

lemma unsigned_partlySigned : (tx.partlySigned key spent positions).unsigned = tx.unsigned :=
  unsigned_resealed tx _

/-- Signing one more input of a transaction that is signed in part. -/
lemma signInput_partlySigned {u : UnspentOutput} (h : spent.length = tx.inputs.length)
    (hu : spent[index]? = some u) :
    (tx.partlySigned key spent positions).signInput key u index =
      .ok (tx.partlySigned key spent (insert index positions)) := by
  obtain ⟨input, hinput⟩ := exists_getElem?_inputs h hu
  have hscript : (tx.signatureScripts key spent)[index]? =
      some (Script.ofSignature (Schnorr.sign key (tx.digestFor input u.spent))) := by
    rw [signatureScripts, List.getElem?_zipWith, hinput, hu]
    rfl
  rw [signInput, signingDigest_congr _ unsigned_partlySigned hinput,
    ← withScript_partlySigned hscript]
  rfl

/-- Signing some of the inputs one by one. -/
theorem foldlM_signInput {order : List (UnspentOutput × Nat)}
    (h : spent.length = tx.inputs.length) (horder : order ⊆ spent.zipIdx) :
    order.foldlM (fun tx p => tx.signInput key p.1 p.2) (tx.partlySigned key spent positions) =
      .ok (tx.partlySigned key spent (positions ∪ (order.map Prod.snd).toFinset)) := by
  induction order generalizing positions with
  | nil =>
    rw [List.map_nil, List.toFinset_nil, Finset.union_empty]
    rfl
  | cons p order ih =>
    obtain ⟨hp, horder⟩ := List.cons_subset.mp horder
    rw [List.foldlM_cons, signInput_partlySigned h (List.mem_zipIdx_iff_getElem?.mp hp)]
    rw [List.map_cons, List.toFinset_cons, Finset.union_insert, ← Finset.insert_union]
    exact ih horder

/-- A transaction that becomes `signed` by being signed, all at once or one input after the
other. -/
structure SignsTo (key : SecretKey) (spent : List UnspentOutput) (tx signed : Transaction) :
    Prop where
  sign : tx.sign spent key = .ok signed
  inPlace : (signInPlace spent key).run.run tx = (.ok (), signed)
  script : ∀ index u, spent[index]? = some u → ∃ input digest,
    tx.inputs[index]? = some input ∧ tx.signingDigest index u.spent = .ok digest ∧
      signed.inputs[index]? =
        some { input with signatureScript := Script.ofSignature (Schnorr.sign key digest) }
  /-- On the way the transaction is signed in part. -/
  inPart : ∀ order ⊆ spent.zipIdx, order.foldlM (fun tx p => tx.signInput key p.1 p.2) tx =
    .ok (tx.partlySigned key spent (order.map Prod.snd).toFinset)
  inOrder : ∀ order : List (UnspentOutput × Nat), order.Perm spent.zipIdx →
    order.foldlM (fun tx p => tx.signInput key p.1 p.2) tx = .ok signed

lemma signsTo_signed (key : SecretKey) (h : spent.length = tx.inputs.length) :
    SignsTo key spent tx (tx.signed key spent) := by
  have hpart : ∀ order ⊆ spent.zipIdx, order.foldlM (fun tx p => tx.signInput key p.1 p.2) tx =
      .ok (tx.partlySigned key spent (order.map Prod.snd).toFinset) := by
    intro order horder
    calc order.foldlM (fun tx p => tx.signInput key p.1 p.2) tx
        = order.foldlM (fun tx p => tx.signInput key p.1 p.2) (tx.partlySigned key spent ∅) := by
          rw [partlySigned_empty]
      _ = .ok (tx.partlySigned key spent (∅ ∪ (order.map Prod.snd).toFinset)) :=
          foldlM_signInput h horder
      _ = .ok (tx.partlySigned key spent (order.map Prod.snd).toFinset) := by
          rw [Finset.empty_union]
  refine ⟨sign_eq_ok h, ?_, ?_, hpart, ?_⟩
  · rw [run_signInPlace, sign_eq_ok h]
  · intro index u hu
    obtain ⟨input, hinput⟩ := exists_getElem?_inputs h hu
    refine ⟨input, _, hinput, inputDigest_eq_ok hinput, ?_⟩
    rw [signed, List.getElem?_zipWith, hinput, hu]
    rfl
  · intro order horder
    have hall : ∀ n < tx.inputs.length, n ∈ (order.map Prod.snd).toFinset := by
      intro n hn
      rw [List.mem_toFinset, (horder.map Prod.snd).mem_iff]
      simpa [h] using hn
    rw [hpart order horder.subset, partlySigned_eq_signed h hall]

/-- Signing is refused, and the transaction stays as it is, when the consumed outputs do not match
the inputs in number. Else nothing but signature scripts changes, and the outcome is the same for
all transactions that differ in signature scripts only, those that are signed in part or in whole
among them. -/
theorem sign_atomic (tx : Transaction) (spent : List UnspentOutput) (key : SecretKey) :
    (spent.length ≠ tx.inputs.length →
      tx.sign spent key = .error (.spentCountMismatch tx.inputs.length spent.length) ∧
      (signInPlace spent key).run.run tx =
        (.error (.spentCountMismatch tx.inputs.length spent.length), tx)) ∧
    (spent.length = tx.inputs.length →
      ∃ signed : Transaction, signed.unsigned = tx.unsigned ∧ signed.id = tx.id ∧
        SignsTo key spent tx signed ∧ SignsTo key spent signed signed ∧
        (∀ positions, SignsTo key spent (tx.partlySigned key spent positions) signed) ∧
        ∀ tx' : Transaction, tx'.unsigned = tx.unsigned → SignsTo key spent tx' signed) := by
  refine ⟨?_, ?_⟩
  · intro h
    refine ⟨sign_eq_error h, ?_⟩
    rw [run_signInPlace, sign_eq_error h]
  · intro h
    have hsame : ∀ tx' : Transaction, tx'.unsigned = tx.unsigned →
        SignsTo key spent tx' (tx.signed key spent) := by
      intro tx' htx'
      rw [← signed_congr htx']
      exact signsTo_signed key (h.trans (length_inputs_congr htx').symm)
    exact ⟨tx.signed key spent, unsigned_signed h, id_congr (unsigned_signed h), hsame tx rfl,
      hsame _ (unsigned_signed h), fun _ => hsame _ unsigned_partlySigned, hsame⟩

/-- A transaction of two inputs, the first of which has a signature script already. -/
def halfSigned : Transaction :=
  { empty with
    inputs :=
      [{ Input.first with signatureScript := Script.placeholder }, .unsigned ⟨⟨.zero 32⟩, 1⟩] }

/-- The outputs that it consumes. -/
def halfSpent : List UnspentOutput :=
  [⟨⟨⟨.zero 32⟩, 0⟩, 7500, .payToPublicKey (.zero 32), false⟩,
    ⟨⟨⟨.zero 32⟩, 1⟩, 12500, .payToPublicKey (.zero 32), false⟩]

theorem halfSigned_sign_atomic :
    halfSigned.sign [] .one = .error (.spentCountMismatch 2 0) ∧
      (signInPlace [] .one).run.run halfSigned = (.error (.spentCountMismatch 2 0), halfSigned) ∧
      ∃ signed : Transaction, signed.id = halfSigned.id ∧
        halfSigned.sign halfSpent .one = .ok signed ∧
        halfSigned.unsigned.sign halfSpent .one = .ok signed ∧
        signed.sign halfSpent .one = .ok signed ∧
        halfSpent.zipIdx.reverse.foldlM (fun tx p => tx.signInput .one p.1 p.2) halfSigned =
          .ok signed := by
  have hlength : halfSpent.length = halfSigned.inputs.length := rfl
  obtain ⟨hrefused, hunchanged⟩ := (sign_atomic halfSigned [] .one).1 (by decide)
  obtain ⟨signed, -, hid, hsigned, htwice, -, hsame⟩ :=
    (sign_atomic halfSigned halfSpent .one).2 hlength
  exact ⟨hrefused, hunchanged, signed, hid, hsigned.sign, (hsame _ (by decide)).sign, htwice.sign,
    hsigned.inOrder _ (List.reverse_perm _)⟩

end LedgerPost.Transaction
