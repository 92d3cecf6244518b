import LedgerPost.Proofs.Funding.Reordering
import LedgerPost.Proofs.Posting.Answer
import LedgerPost.Proofs.Posting.Shortfall
import LedgerPost.Proofs.Transaction.StorageMass

/-!
# Reordered outputs in posts

Of the outputs that may be spent, a post depends on no more than their amounts, and on these not in
any order. Reordered outputs are funded alike, and what is funded alike is posted alike: with other
inputs, but with the same outputs, fee and masses.
-/

namespace LedgerPost

/-- Posts that spend as many outputs of the same amounts, and are the same apart from their inputs
and what depends on these. -/
structure Posted.Alike (posted posted' : Posted) : Prop where
  inputs : posted.transaction.inputs.length = posted'.transaction.inputs.length
  spent : (posted.spent.map (·.amount)).Perm (posted'.spent.map (·.amount))
  outputs : posted.transaction.outputs = posted'.transaction.outputs
  fee : posted.fee = posted'.fee
  computeMass : posted.computeMass = posted'.computeMass
  storageMass : posted.storageMass = posted'.storageMass
  payload : posted.transaction.payload = posted'.transaction.payload

namespace Posting

open Funding

variable {c : Config} {key : SecretKey} {f f' : Funding} {o : Output} {sender : ScriptPublicKey}
  {payload : Bytes} {utxos utxos' : List UnspentOutput} {asked asked' : Option Output}
  {posted posted' : Posted}

/-! ### From fundings to posts -/

lemma outputs_congr (h : f.Alike f') (o : Output) (sender : ScriptPublicKey) :
    outputs f o sender = outputs f' o sender := by
  rw [outputs, outputs, Funding.hasChange, Funding.hasChange, h.change]

theorem Assembled.alike (hfunding : f.Alike f') (h : Assembled c key f o sender payload posted)
    (h' : Assembled c key f' o sender payload posted') : posted.Alike posted' := by
  have hlength : f.utxos.length = f'.utxos.length := by
    simpa using hfunding.amounts.length_eq
  have houtputs : posted.transaction.outputs = posted'.transaction.outputs := by
    rw [h.outputs_eq, h'.outputs_eq, outputs_congr hfunding]
  have hspent : (posted.spent.map (·.amount)).Perm (posted'.spent.map (·.amount)) := by
    rw [h.spent, h'.spent]
    exact hfunding.amounts
  refine ⟨?_, hspent, houtputs, ?_, ?_, ?_, ?_⟩
  · rw [h.transaction, h'.transaction]
    simpa [Transaction.signed] using hlength
  · rw [h.fee, h'.fee, hfunding.fee]
  · have hmass := h.computeMass
    rw [h.transaction, outputs_congr hfunding, computeMass_signed_congr c.mass key _ hlength rfl,
      ← h'.transaction, h'.computeMass, Except.ok.injEq] at hmass
    exact hmass.symm
  · rw [h.storageMass, h'.storageMass, Transaction.storageMass, Transaction.storageMass, houtputs,
      List.map_map, List.map_map]
    exact StorageMass.ofValues_perm hspent (.refl _)
  · rw [h.transaction, h'.transaction]
    rfl

/-- What is funded alike is posted alike, or refused for the same storage mass. -/
lemma finish_agree (hfunding : f.Alike f') (h : Funded c sender payload utxos asked f o)
    (h' : Funded c sender payload utxos' asked' f' o) (key : SecretKey) :
    Agree Posted.Alike (finish c key f [o] sender payload)
      (finish c key f' [o] sender payload) := by
  obtain ⟨posted, hposted, hfinish⟩ := h.finish_eq key
  obtain ⟨posted', hposted', hfinish'⟩ := h'.finish_eq key
  have halike := hposted.alike hfunding hposted'
  rw [hfinish, hfinish', halike.storageMass]
  split
  · exact .error _
  · exact .ok halike

/-! ### From outputs to fundings -/

lemma fundBack_agree (h : utxos.Perm utxos') :
    Agree (fun a b => a.1.Alike b.1 ∧ a.2 = b.2) (fundBack c sender payload utxos)
      (fundBack c sender payload utxos') := by
  rw [fundBack, fundBack]
  refine (all_agree h 1).bind ?_
  rintro ⟨chosen, total⟩ ⟨chosen', total'⟩ - - ⟨(hperm : chosen.Perm chosen'), rfl⟩
  dsimp only
  rw [fee_congr hperm.length_eq rfl]
  refine .bind_same _ fun needed _ => ?_
  generalize (if needed ≤ total then total - needed else 0) = value
  by_cases hdust : value ≤ c.dustThreshold
  · rw [if_pos hdust, if_pos hdust]
    exact .bind_same _ fun sum _ => .bind_same _ fun required _ => .error _
  · rw [if_neg hdust, if_neg hdust]
    exact .ok ⟨⟨hperm.map _, rfl, rfl, rfl⟩, rfl⟩

lemma fundBack_spendable :
    fundBack c sender payload (spendable utxos) = fundBack c sender payload utxos := by
  rw [fundBack, fundBack, all_spendable]

end Posting

/-! ### Orders -/

namespace Poster

section

variable {m : Type → Type} (p : Poster m) (order : PostOrder) (prepared : Prepared)
  (payload ciphertext : Bytes) {utxos : List UnspentOutput}

lemma fund_agree (h : order.utxos.Perm utxos) :
    Agree (fun a b => a.1.Alike b.1 ∧ a.2 = b.2) (p.fund order prepared payload)
      (p.fund (order.withUtxos utxos) prepared payload) := by
  rw [fund, fund, PostOrder.utxos_withUtxos, PostOrder.isPayment_withUtxos]
  rcases prepared with ⟨key, sender, _ | o⟩
  · exact Posting.fundBack_agree h
  · dsimp only
    split
    · exact (Funding.forPayment_agree Posting.tariff_fee h).bind fun _ _ _ _ hf => .ok ⟨hf, rfl⟩
    · exact (Funding.allForAmount_agree Posting.tariff_fee h).bind fun _ _ _ _ hf => .ok ⟨hf, rfl⟩

lemma dispatch_agree (h : order.utxos.Perm utxos) :
    Agree Posted.Alike (p.dispatch order prepared ciphertext)
      (p.dispatch (order.withUtxos utxos) prepared ciphertext) := by
  rw [dispatch_eq, dispatch_eq, PostOrder.frame_withUtxos]
  refine .bind_same _ fun payload _ => (fund_agree p order prepared payload h).bind ?_
  rintro ⟨f, o⟩ ⟨f', o'⟩ hfund hfund' ⟨hfunding, rfl⟩
  exact Posting.finish_agree hfunding (funded_of_fund hfund) (funded_of_fund hfund') prepared.key

/-- Block rewards are left out before anything else is looked at. -/
lemma fund_spendable :
    p.fund (order.withUtxos (Funding.spendable order.utxos)) prepared payload =
      p.fund order prepared payload := by
  rw [fund, fund, PostOrder.utxos_withUtxos, PostOrder.isPayment_withUtxos]
  rcases prepared with ⟨key, sender, _ | o⟩
  · exact Posting.fundBack_spendable
  · dsimp only
    split
    · rw [Funding.forPayment_spendable]
    · rw [Funding.allForAmount_spendable]

lemma dispatch_spendable :
    p.dispatch (order.withUtxos (Funding.spendable order.utxos)) prepared ciphertext =
      p.dispatch order prepared ciphertext := by
  rw [dispatch_eq, dispatch_eq, PostOrder.frame_withUtxos]
  simp only [fund_spendable]

end

variable {σ : Type} {p : Poster (Stateful σ)} {order : PostOrder} {s t : σ}
  {r : Posted → Posted → Prop} {utxos : List UnspentOutput}

/-- Other outputs make a difference to the last step alone. -/
lemma answer_post_agree (hcipher : p.cipher.AnswersAlike s t)
    (hdispatch : ∀ prepared ciphertext, Agree r (p.dispatch order prepared ciphertext)
      (p.dispatch (order.withUtxos utxos) prepared ciphertext)) :
    Agree r ((p.post order).answer s) ((p.post (order.withUtxos utxos)).answer t) := by
  rw [answer_post, answer_post, prepare_withUtxos]
  refine .bind_same _ fun prepared _ => ?_
  rw [ciphertext_withUtxos, answer_ciphertext hcipher]
  exact .bind_same _ fun ciphertext _ => hdispatch prepared ciphertext

/-- A post depends neither on block rewards nor on the order of the outputs, given a cipher that
answers alike. Without the block rewards the answer is the same, and with the outputs in another
order it is the same error or a post that is alike. -/
theorem post_reordered (p : Poster (Stateful σ)) (order : PostOrder) (s t : σ)
    (hcipher : p.cipher.AnswersAlike s t) :
    (p.post (order.withUtxos (order.utxos.filter fun u => !u.isCoinbase))).answer t =
        (p.post order).answer s ∧
      ∀ utxos, order.utxos.Perm utxos →
        Agree Posted.Alike ((p.post order).answer s)
          ((p.post (order.withUtxos utxos)).answer t) := by
  constructor
  · refine (agree_eq_iff.mp (answer_post_agree hcipher fun prepared ciphertext => ?_)).symm
    exact agree_eq_iff.mpr (dispatch_spendable p order prepared ciphertext).symm
  · intro utxos h
    exact answer_post_agree hcipher fun prepared ciphertext =>
      dispatch_agree p order prepared ciphertext h

end Poster

/-- Two outputs with a block reward between them. -/
def UnspentOutput.purse : List UnspentOutput := [
  ⟨⟨⟨.zero 32⟩, 0⟩, 100000000, .payToPublicKey SecretKey.one.publicKey.bytes, false⟩,
  ⟨⟨⟨.zero 32⟩, 1⟩, 900000000, .payToPublicKey SecretKey.one.publicKey.bytes, true⟩,
  ⟨⟨⟨.zero 32⟩, 2⟩, 50000000, .payToPublicKey SecretKey.one.publicKey.bytes, false⟩]

namespace Poster

/-- A greeting spends the purse from either end, and is otherwise the same. -/
theorem purse_reordered :
    (plain.post (PostOrder.greeting.withUtxos
        (UnspentOutput.purse.filter fun u => !u.isCoinbase))).answer () =
      (plain.post (PostOrder.greeting.withUtxos UnspentOutput.purse)).answer () ∧
    ∃ posted posted',
      (plain.post (PostOrder.greeting.withUtxos UnspentOutput.purse)).answer () = .ok posted ∧
      (plain.post (PostOrder.greeting.withUtxos UnspentOutput.purse.reverse)).answer () =
        .ok posted' ∧
      posted.Alike posted' ∧ posted.spent ≠ posted'.spent := by
  obtain ⟨hrewards, horder⟩ := post_reordered plain
    (PostOrder.greeting.withUtxos UnspentOutput.purse) () () fun _ _ => rfl
  refine ⟨hrewards, ?_⟩
  have hfirst : ((plain.post (PostOrder.greeting.withUtxos UnspentOutput.purse)).answer
      ()).toOption.any (fun posted => posted.spent.map (·.outpoint.index) = [0, 2]) = true := by
    decide +kernel
  have hlast : ((plain.post (PostOrder.greeting.withUtxos UnspentOutput.purse.reverse)).answer
      ()).toOption.any (fun posted => posted.spent.map (·.outpoint.index) = [2, 0]) = true := by
    decide +kernel
  obtain ⟨posted, hposted, hspent⟩ := exists_posted_of_any hfirst
  obtain ⟨posted', hposted', hspent'⟩ := exists_posted_of_any hlast
  have hagree : Agree Posted.Alike
      ((plain.post (PostOrder.greeting.withUtxos UnspentOutput.purse)).answer ())
      ((plain.post (PostOrder.greeting.withUtxos UnspentOutput.purse.reverse)).answer ()) :=
    horder UnspentOutput.purse.reverse (List.reverse_perm _).symm
  rw [hposted, hposted'] at hagree
  refine ⟨posted, posted', hposted, hposted', ?_, ?_⟩
  · cases hagree with
    | ok halike => exact halike
  · intro hsame
    rw [decide_eq_true_eq] at hspent hspent'
    rw [hsame, hspent'] at hspent
    cases hspent

end Poster

end LedgerPost
