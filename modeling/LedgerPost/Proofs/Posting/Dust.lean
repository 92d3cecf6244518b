import LedgerPost.Proofs.Posting.Completion
import LedgerPost.Proofs.Posting.Delivery

/-!
# Dust

Change is more than dust, what is paid back is, and so is the amount of a handshake in a valid
configuration. The amount of a payment only has to be something, so a payment may be dust.
-/

namespace LedgerPost

namespace Posting

variable {c : Config} {key : SecretKey} {sender : ScriptPublicKey} {payload : Bytes}
  {utxos : List UnspentOutput} {asked : Option Output} {posted : Posted}

/-- Only the first output can be dust, and only if it is asked for. -/
lemma Posts.dust_lt (h : Posts c key sender payload utxos asked posted) :
    ∃ o rest, posted.transaction.outputs = o :: rest ∧
      (asked = some o ∨ asked = none ∧ c.dustThreshold < o.value) ∧
      ∀ o' ∈ rest, c.dustThreshold < o'.value := by
  obtain ⟨f, o, hfunded, hassembled⟩ := h
  refine ⟨o, _, hassembled.outputs_eq, ?_, ?_⟩
  · cases hfunded with
    | pays hsettles => exact .inl rfl
    | paysBack _ _ _ _ _ _ hdust => exact .inr ⟨rfl, hdust⟩
  · by_cases hchange : f.hasChange = true
    · cases hfunded with
      | pays hsettles =>
        simpa [hchange, changeOutputs] using (hsettles.of_hasChange hchange).1
      | paysBack _ _ _ _ hzero => simp [Funding.hasChange, hzero] at hchange
    · simp [hchange, changeOutputs]

end Posting

namespace Poster

variable {m : Type → Type} {p : Poster m} {order : PostOrder} {prepared : Prepared}
  {ciphertext : Bytes} {posted : Posted}

/-- What is asked for is more than dust, unless it is a payment of no more than that. -/
lemma Asks.dust_lt {o : Output} (h : p.Asks order (some o))
    (hpayment : ∀ now pay, order = .payment now pay → p.config.dustThreshold < pay.amount) :
    p.config.dustThreshold < o.value := by
  cases h with
  | output hpayee hscript =>
    cases order with
    | handshake now freshId o =>
      cases hpayee
      exact p.valid.dust_lt
    | payment now pay =>
      cases hpayee
      exact hpayment now pay rfl
    | message o => cases hpayee
    | selfStash now o => cases hpayee

lemma Fulfils.dust_lt (h : p.Fulfils order prepared ciphertext posted) :
    (∀ o ∈ posted.transaction.outputs.tail, p.config.dustThreshold < o.value) ∧
      ((∀ o ∈ posted.transaction.outputs, p.config.dustThreshold < o.value) ↔
        ∀ now pay, order = .payment now pay → p.config.dustThreshold < pay.amount) := by
  obtain ⟨payload, -, hposts⟩ := h.posts
  obtain ⟨o, rest, houtputs, hfirst, hrest⟩ := hposts.dust_lt
  have hasks := h.asks
  rw [houtputs]
  refine ⟨hrest, ?_, ?_⟩
  · rintro hall now pay rfl
    have hhead : (posted.transaction.outputs.head?.map (·.value)) = some pay.amount :=
      h.value_head? rfl
    rw [houtputs] at hhead
    have hvalue : o.value = pay.amount := Option.some.inj hhead
    rw [← hvalue]
    exact hall o List.mem_cons_self
  · intro hpayment
    rw [List.forall_mem_cons]
    refine ⟨?_, hrest⟩
    rcases hfirst with hasked | ⟨-, hdust⟩
    · rw [hasked] at hasks
      exact hasks.dust_lt hpayment
    · exact hdust

/-- Whatever is posted, every output but the first is more than dust. The first is so too, unless
the order is a payment of no more than dust. -/
theorem post_dust_iff {σ : Type} {p : Poster (Stateful σ)} {s s' : σ}
    (h : (p.post order).run.run s = (.ok posted, s')) :
    (∀ o ∈ posted.transaction.outputs.tail, p.config.dustThreshold < o.value) ∧
      ((∀ o ∈ posted.transaction.outputs, p.config.dustThreshold < o.value) ↔
        ∀ now pay, order = .payment now pay → p.config.dustThreshold < pay.amount) := by
  obtain ⟨prepared, ciphertext, hfulfils⟩ := Fulfils.of_post h
  exact hfulfils.dust_lt

theorem coffee_is_no_dust :
    ∃ posted, (Poster.plain.post .coffee).run.run () = (.ok posted, ()) ∧
      ∀ o ∈ posted.transaction.outputs, Poster.plain.config.dustThreshold < o.value := by
  obtain ⟨posted, h⟩ := exists_post_coffee
  refine ⟨posted, h, (post_dust_iff h).2.mpr ?_⟩
  rintro now pay horder
  cases horder
  decide

set_option maxRecDepth 100000 in
/-- A crumb is posted, though it is dust. -/
theorem crumb_is_dust :
    ∃ posted, (Poster.plain.post (PostOrder.coffee.withAmount 1)).run.run () = (.ok posted, ()) ∧
      ∃ o ∈ posted.transaction.outputs, o.value ≤ Poster.plain.config.dustThreshold := by
  obtain ⟨posted, h⟩ : ∃ posted, (Poster.plain.post (PostOrder.coffee.withAmount 1)).run.run () =
      (.ok posted, ()) := exists_post_of_isOk (by decide +kernel)
  obtain ⟨prepared, ciphertext, hfulfils⟩ := Fulfils.of_post h
  obtain ⟨o, hmem, hvalue⟩ := Option.map_eq_some_iff.mp (hfulfils.value_head? rfl)
  refine ⟨posted, h, o, List.mem_of_head? hmem, ?_⟩
  rw [hvalue]
  decide

end Poster

end LedgerPost
