import LedgerPost.Proofs.Posting.Order

/-!
# Conservation of value

A posted transaction consumes what the order gave, makes the outputs that the order asks for, and
neither makes nor loses value but for the fee.
-/

namespace LedgerPost

namespace Posted

/-- The inputs consume the spent outputs one by one. Those were given and may be spent. -/
structure SpendsFrom (utxos : List UnspentOutput) (posted : Posted) : Prop where
  length_eq : posted.transaction.inputs.length = posted.spent.length
  length_pos : 1 ≤ posted.spent.length
  outpoints : posted.transaction.inputs.map (·.previousOutpoint) = posted.spent.map (·.outpoint)
  not_isCoinbase : ∀ u ∈ posted.spent, u.isCoinbase = false
  count_le : ∀ u, posted.spent.count u ≤ utxos.count u

/-- What is consumed is a word, and it is what the new outputs and the fee add up to. -/
structure Balanced (posted : Posted) : Prop where
  bounded : Amount.exactSum (posted.spent.map (·.amount)) < UInt64.size
  sum_eq : Amount.exactSum (posted.spent.map (·.amount)) =
    Amount.exactSum (posted.transaction.outputs.map (·.value)) + posted.fee.toNat
  value_pos : ∀ o ∈ posted.transaction.outputs, 0 < o.value

/-- What is said about the signed transaction is what can be computed from it. -/
structure Described (p : MassParameters) (posted : Posted) : Prop where
  transactionId : posted.transactionId = posted.transaction.id
  computeMass : posted.transaction.computeMass p = .ok posted.computeMass
  storageMass : posted.storageMass =
    posted.transaction.storageMass p (posted.spent.map UnspentOutput.spent)

end Posted

/-- The outputs of an order: the one that it asks for, or else a single one to the sender. Only
the former leaves change, and change is more than dust. -/
inductive Poster.Pays {m : Type → Type} (p : Poster m) (order : PostOrder)
    (sender : ScriptPublicKey) : List Output → Prop
  | payee {o : Output} (hasks : p.Asks order (some o)) : Pays p order sender [o]
  | payeeAndChange {o : Output} {change : UInt64} (hasks : p.Asks order (some o))
      (hdust : p.config.dustThreshold < change) : Pays p order sender [o, ⟨change, sender⟩]
  | sender {value : UInt64} (hasks : p.Asks order none) : Pays p order sender [⟨value, sender⟩]

/-! ### Assembled transactions -/

namespace Posting

variable {c : Config} {key : SecretKey} {f : Funding} {o : Output} {sender : ScriptPublicKey}
  {payload : Bytes} {utxos : List UnspentOutput} {asked : Option Output} {posted : Posted}

/-- Each input consumes the output that it was drafted for. -/
lemma Assembled.map_outpoint (h : Assembled c key f o sender payload posted) :
    posted.transaction.inputs.map (·.previousOutpoint) = posted.spent.map (·.outpoint) := by
  rw [h.transaction, h.spent,
    Transaction.map_signed_inputs (Transaction.length_draft_inputs ..) fun _ _ => rfl,
    Transaction.draft_inputs, List.map_map]
  rfl

/-- There is change, or there is nothing left for it. -/
lemma exactSum_outputs (f : Funding) (o : Output) (sender : ScriptPublicKey) :
    Amount.exactSum ((outputs f o sender).map (·.value)) = o.value.toNat + f.change.toNat := by
  rw [outputs]
  by_cases hchange : f.hasChange = true
  · simp [hchange, changeOutputs]
  · have hzero : f.change.toNat = 0 := by
      simpa [Funding.hasChange, UInt64.lt_iff_toNat_lt] using hchange
    simp [hchange, changeOutputs, hzero]

lemma Posts.spendsFrom (h : Posts c key sender payload utxos asked posted) :
    posted.SpendsFrom utxos := by
  obtain ⟨f, o, hfunded, hassembled⟩ := h
  have hspent := hassembled.spent
  have houtpoints := hassembled.map_outpoint
  refine ⟨by simpa using congrArg List.length houtpoints, ?_, houtpoints, ?_, ?_⟩
  · rw [hspent]
    exact List.length_pos_iff.mpr hfunded.nonempty
  · rw [hspent]
    intro u hu
    exact hfunded.not_isCoinbase hu
  · rw [hspent]
    exact hfunded.count_le

/-- Change is more than dust, and so is what is paid back. -/
lemma Posts.value_pos (h : Posts c key sender payload utxos asked posted)
    (hasked : ∀ o ∈ asked, 0 < o.value) : ∀ o ∈ posted.transaction.outputs, 0 < o.value := by
  obtain ⟨f, o, hfunded, hassembled⟩ := h
  have ho : 0 < o.value := by
    cases hfunded with
    | pays hsettles => exact hasked o rfl
    | paysBack _ _ _ _ _ _ hdust => exact UInt64.lt_of_le_of_lt UInt64.zero_le hdust
  rw [hassembled.outputs_eq, outputs]
  intro o' ho'
  rcases List.mem_append.mp ho' with ho' | ho'
  · rw [List.mem_singleton.mp ho']
    exact ho
  · by_cases hchange : f.hasChange = true
    · simp only [hchange, changeOutputs, if_true, Option.toList_some, List.map_cons, List.map_nil,
        List.mem_singleton] at ho'
      rw [ho']
      simpa [Funding.hasChange] using hchange
    · simp [hchange, changeOutputs] at ho'

lemma Posts.balanced (h : Posts c key sender payload utxos asked posted)
    (hasked : ∀ o ∈ asked, 0 < o.value) : posted.Balanced := by
  have hpos := h.value_pos hasked
  obtain ⟨f, o, hfunded, hassembled⟩ := h
  have htotal := hfunded.total_eq_exactSum
  have hsum := hfunded.total_eq
  refine ⟨?_, ?_, hpos⟩
  · rw [hassembled.spent, ← htotal]
    exact f.total.toNat_lt_size
  · rw [hassembled.spent, hassembled.outputs_eq, exactSum_outputs, hassembled.fee]
    omega

lemma Posts.described (h : Posts c key sender payload utxos asked posted) :
    posted.Described c.mass := by
  obtain ⟨f, o, -, hassembled⟩ := h
  exact ⟨hassembled.transactionId, hassembled.computeMass, hassembled.storageMass⟩

end Posting

/-! ### Posted orders -/

namespace Poster

variable {m : Type → Type} {p : Poster m} {order : PostOrder} {prepared : Prepared}
  {ciphertext : Bytes} {posted : Posted}

lemma Fulfils.pays (h : p.Fulfils order prepared ciphertext posted) :
    p.Pays order prepared.sender posted.transaction.outputs := by
  obtain ⟨payload, -, f, o, hfunded, hassembled⟩ := h.posts
  have hasks := h.asks
  rw [hassembled.outputs_eq, Posting.outputs]
  generalize prepared.asked = asked at hasks hfunded
  cases hfunded with
  | pays hsettles =>
    by_cases hchange : f.hasChange = true
    · rw [if_pos hchange]
      exact .payeeAndChange hasks (hsettles.of_hasChange hchange).1
    · rw [if_neg hchange]
      exact .payee hasks
  | paysBack _ _ _ _ hzero =>
    have hchange : f.hasChange = false := by
      simp [Funding.hasChange, hzero]
    rw [hchange]
    exact .sender hasks

lemma Fulfils.asked_pos (h : p.Fulfils order prepared ciphertext posted) :
    ∀ o ∈ prepared.asked, 0 < o.value := by
  intro o ho
  have hasks := h.asks
  rw [ho] at hasks
  cases hasks with
  | output hpayee hscript => exact h.amount_pos hpayee

/-- A posted transaction spends what the order gave, pays what it asks for, and balances to the
unit. -/
theorem post_conserves {σ : Type} {p : Poster (Stateful σ)} {s s' : σ}
    (h : (p.post order).run.run s = (.ok posted, s')) :
    posted.SpendsFrom order.utxos ∧
      (∃ sender, p.resolver order.sender = .ok sender ∧
        p.Pays order sender posted.transaction.outputs) ∧
      posted.Balanced ∧ posted.Described p.config.mass := by
  obtain ⟨prepared, ciphertext, hfulfils⟩ := Fulfils.of_post h
  obtain ⟨payload, -, hposts⟩ := hfulfils.posts
  exact ⟨hposts.spendsFrom, ⟨prepared.sender, hfulfils.sender, hfulfils.pays⟩,
    hposts.balanced hfulfils.asked_pos, hposts.described⟩

theorem post_coffee_conserves :
    ∃ posted, (Poster.plain.post .coffee).run.run () = (.ok posted, ()) ∧
      posted.SpendsFrom PostOrder.coffee.utxos ∧
      (∃ sender, Poster.plain.resolver PostOrder.coffee.sender = .ok sender ∧
        Poster.plain.Pays .coffee sender posted.transaction.outputs) ∧
      posted.Balanced ∧ posted.Described Poster.plain.config.mass := by
  obtain ⟨posted, h⟩ := exists_post_coffee
  exact ⟨posted, h, post_conserves h⟩

end Poster

end LedgerPost
