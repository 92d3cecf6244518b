import LedgerPost.Proofs.Posting.Order

/-!
# Fees

The fee of what is posted was sized on a draft without signatures, whose change output had no
value. It is nevertheless enough for the signed transaction, and it is exact unless change that
was not worth an output was given away.
-/

namespace LedgerPost

namespace Posting

variable {c : Config} {key : SecretKey} {f : Funding} {o o' : Output} {sender : ScriptPublicKey}
  {payload : Bytes} {utxos : List UnspentOutput} {asked : Option Output} {posted : Posted}

lemma map_sigOpCount_draft (utxos : List UnspentOutput) (outs : List Output) (payload : Bytes) :
    (Transaction.draft utxos outs payload).inputs.map (·.sigOpCount) = utxos.map fun _ => 1 := by
  rw [Transaction.draft_inputs, List.map_map]
  rfl

/-- Drafts that spend as many outputs and have payloads of the same length have the same mass once
they are signed. -/
lemma computeMass_signed_congr {chosen chosen' : List UnspentOutput} {payload payload' : Bytes}
    (p : MassParameters) (key : SecretKey) (outs : List Output)
    (h : chosen.length = chosen'.length) (hpayload : payload.length = payload'.length) :
    ((Transaction.draft chosen outs payload).signed key chosen).computeMass p =
      ((Transaction.draft chosen' outs payload').signed key chosen').computeMass p := by
  have hdimensions : ∀ chosen payload, ((Transaction.draft chosen outs payload).signed key
      chosen).inputs.map Input.dimensions = List.replicate chosen.length (66, 1) := by
    intro chosen payload
    rw [Transaction.map_dimensions_signed (Transaction.length_draft_inputs ..),
      Transaction.draft_inputs, List.map_map, ← List.map_const']
    rfl
  apply Transaction.SameDimensions.computeMass_eq
  refine ⟨?_, rfl, hpayload⟩
  rw [hdimensions, hdimensions, h]

/-- An estimate is the fee of every draft with the same output scripts, whatever the values are. -/
lemma requiredFee_of_fee {withChange : Bool} {fee : UInt64} {tx : Transaction}
    (hfee : Posting.fee c [o'] sender payload utxos withChange = .ok fee)
    (hin : tx.inputs.map (·.sigOpCount) = utxos.map fun _ => 1)
    (hout : tx.outputs.map Output.dimension =
      o'.dimension :: if withChange then [sender.script.length] else [])
    (hpayload : tx.payload = payload) : tx.requiredFee c.mass = .ok fee := by
  rw [← hfee, Posting.fee]
  apply Transaction.requiredFee_congr
  · rw [hin, map_sigOpCount_draft]
  · rw [hout]
    cases withChange <;> rfl
  · rw [hpayload]
    rfl

lemma map_dimension_outputs (f : Funding) (o : Output) (sender : ScriptPublicKey) :
    (outputs f o sender).map Output.dimension =
      o.dimension :: if f.hasChange then [sender.script.length] else [] := by
  rw [outputs]
  cases f.hasChange <;> rfl

/-- The estimate that agrees with the outputs is the mass of the signed transaction and the
buffer. -/
lemma Assembled.toNat_fee_eq (h : Assembled c key f o sender payload posted)
    (ho : o'.scriptPublicKey = o.scriptPublicKey) {fee : UInt64}
    (hfee : Posting.fee c [o'] sender payload f.utxos f.hasChange = .ok fee) :
    fee.toNat = posted.computeMass.toNat + c.mass.feeBuffer.toNat := by
  have hmass := h.computeMass
  rw [h.transaction] at hmass
  rw [← Transaction.requiredFee_eq_ok_iff_signed (Transaction.length_draft_inputs ..) hmass]
  apply requiredFee_of_fee hfee
  · exact map_sigOpCount_draft ..
  · rw [Output.dimension, ho]
    exact map_dimension_outputs f o sender
  · rfl

/-- The estimate with change is the fee of what is posted without, once there is one more output
to the sender. -/
lemma Assembled.requiredFee_paying (h : Assembled c key f o sender payload posted)
    (hchange : f.hasChange = false) {full : UInt64}
    (hfull : Posting.fee c [o] sender payload f.utxos true = .ok full) (value : UInt64) :
    (posted.transaction.paying [⟨value, sender⟩]).requiredFee c.mass = .ok full := by
  apply requiredFee_of_fee hfull
  · rw [Transaction.paying_inputs, h.transaction,
      Transaction.map_signed_inputs (Transaction.length_draft_inputs ..) fun _ _ => rfl]
    exact map_sigOpCount_draft ..
  · rw [Transaction.paying_outputs, h.outputs_eq, List.map_append, map_dimension_outputs, hchange]
    rfl
  · rw [h.transaction]
    rfl

end Posting

/-! ### The fee of an order -/

/-- The fee of a posted order pays for the signed transaction and the buffer. It is no more than
that when there is change or when the sender is paid back; else it is less than what a change
output would have cost, and dust. -/
structure Poster.Charges {m : Type → Type} (p : Poster m) (order : PostOrder) (posted : Posted) :
    Prop where
  isFullySigned : posted.transaction.isFullySigned = true
  computeMass : posted.transaction.computeMass p.config.mass = .ok posted.computeMass
  enough : posted.computeMass.toNat + p.config.mass.feeBuffer.toNat ≤ posted.fee.toNat
  exact : posted.transaction.outputs.length = 2 ∨ order.payee? p.config = none →
    posted.fee.toNat = posted.computeMass.toNat + p.config.mass.feeBuffer.toNat
  bounded : posted.transaction.outputs.length = 1 → order.payee? p.config ≠ none →
    ∃ sender full, p.resolver order.sender = .ok sender ∧
      (∀ value, (posted.transaction.paying [⟨value, sender⟩]).requiredFee p.config.mass =
        .ok full) ∧
      posted.fee.toNat ≤ full.toNat + p.config.dustThreshold.toNat

namespace Poster

variable {m : Type → Type} {p : Poster m} {order : PostOrder} {prepared : Prepared}
  {ciphertext : Bytes} {posted : Posted}

lemma Fulfils.charges (h : p.Fulfils order prepared ciphertext posted) :
    p.Charges order posted := by
  obtain ⟨payload, -, f, o, hfunded, hassembled⟩ := h.posts
  have hsigned : posted.transaction.isFullySigned = true := by
    rw [hassembled.transaction]
    exact Transaction.isFullySigned_signed (Transaction.length_draft_inputs ..) hfunded.nonempty
  have hlength : posted.transaction.outputs.length = 1 + (if f.hasChange then 1 else 0) := by
    rw [hassembled.outputs_eq, ← List.length_map Output.dimension, Posting.map_dimension_outputs]
    cases f.hasChange <;> rfl
  have hasks := h.asks
  have hfee := congrArg UInt64.toNat hassembled.fee
  generalize prepared.asked = asked at hasks hfunded
  cases hfunded with
  | pays hsettles =>
    have hpayee : order.payee? p.config ≠ none := by
      cases hasks with
      | output hpayee _ => simp [hpayee]
    by_cases hchange : f.hasChange = true
    · obtain ⟨-, hestimate⟩ := hsettles.of_hasChange hchange
      rw [← hchange] at hestimate
      have hexact := hassembled.toNat_fee_eq rfl hestimate
      rw [if_pos hchange] at hlength
      exact ⟨hsigned, hassembled.computeMass, by omega, fun _ => by omega, fun hone => by omega⟩
    · obtain ⟨full, bare, hfull, hbare, henough, hbounded⟩ :=
        hsettles.of_not_hasChange (by simpa using hchange)
      rw [Bool.not_eq_true] at hchange
      rw [← hchange] at hbare
      have hexact := hassembled.toNat_fee_eq rfl hbare
      have hpaying := hassembled.requiredFee_paying hchange hfull
      rw [hchange] at hlength
      refine ⟨hsigned, hassembled.computeMass, by omega, ?_, ?_⟩
      · rintro (htwo | hnone)
        · simp [hlength] at htwo
        · exact absurd hnone hpayee
      · intro _ _
        exact ⟨prepared.sender, full, h.sender, hpaying, by omega⟩
  | paysBack _ _ _ hestimate hzero =>
    have hpayee : order.payee? p.config = none := by
      cases hasks with
      | nothing hpayee => exact hpayee
    have hchange : f.hasChange = false := by
      simp [Funding.hasChange, hzero]
    rw [← hchange] at hestimate
    have hexact := hassembled.toNat_fee_eq rfl hestimate
    refine ⟨hsigned, hassembled.computeMass, by omega, fun _ => by omega, ?_⟩
    intro _ hsome
    exact absurd hpayee hsome

/-- What is charged for a posted transaction is enough for it, and not too much. -/
theorem post_charges {σ : Type} {p : Poster (Stateful σ)} {s s' : σ}
    (h : (p.post order).run.run s = (.ok posted, s')) : p.Charges order posted := by
  obtain ⟨prepared, ciphertext, hfulfils⟩ := Fulfils.of_post h
  exact hfulfils.charges

theorem post_coffee_charges :
    ∃ posted, (Poster.plain.post .coffee).run.run () = (.ok posted, ()) ∧
      Poster.plain.Charges .coffee posted := by
  obtain ⟨posted, h⟩ := exists_post_coffee
  exact ⟨posted, h, post_charges h⟩

end Poster

end LedgerPost
