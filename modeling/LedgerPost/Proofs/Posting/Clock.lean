import LedgerPost.Proofs.Bytes.Base64
import LedgerPost.Proofs.Message.Size
import LedgerPost.Proofs.Posting.Answer
import LedgerPost.Proofs.Posting.Shortfall

/-!
# Posts and the clock

What a post costs depends on the length of its payload, but not on what the payload says. So given
a cipher whose ciphertexts tell no more by their length than the texts do, the cost of a post does
not depend on the time at which it is made, nor on a generated identifier.
-/

namespace LedgerPost

/-- Posts that spend and make the same outputs and have the same fee and masses. -/
structure Posted.SameCosts (posted posted' : Posted) : Prop where
  spent : posted.spent = posted'.spent
  outputs : posted.transaction.outputs = posted'.transaction.outputs
  fee : posted.fee = posted'.fee
  computeMass : posted.computeMass = posted'.computeMass
  storageMass : posted.storageMass = posted'.storageMass

/-- A cipher measures alike in two states if texts of the same length that are encrypted for the
same key have ciphertexts of the same length, or fail with the same error. -/
def Cipher.MeasuresAlike {σ : Type} (cipher : Cipher (Stateful σ)) (s t : σ) : Prop :=
  ∀ text text' key, text.length = text'.length →
    Agree (fun ciphertext ciphertext' => ciphertext.length = ciphertext'.length)
      ((cipher text key).answer s) ((cipher text' key).answer t)

/-! ### The same order at another time -/

namespace PostOrder

/-- The same order at another time, and with another identifier if it takes a generated one. -/
def retimed (now : Timestamp) (freshId : String) : PostOrder → PostOrder
  | .handshake _ _ o => .handshake now freshId o
  | .payment _ o => .payment now o
  | .message o => .message o
  | .selfStash _ o => .selfStash now o

variable (order : PostOrder) (now : Timestamp) (freshId : String)

@[simp] lemma utxos_retimed : (order.retimed now freshId).utxos = order.utxos := by
  cases order <;> rfl

@[simp] lemma isPayment_retimed : (order.retimed now freshId).isPayment = order.isPayment := by
  cases order <;> rfl

@[simp] lemma frame_retimed : (order.retimed now freshId).frame = order.frame := by
  cases order <;> rfl

@[simp] lemma prepare_retimed {m : Type → Type} (p : Poster m) :
    p.prepare (order.retimed now freshId) = p.prepare order := by
  cases order <;> rfl

/-- Ciphertexts of the same length make frames of the same length. -/
lemma encode_frame_agree {ciphertext ciphertext' : Bytes}
    (h : ciphertext.length = ciphertext'.length) :
    Agree (fun payload payload' => payload.length = payload'.length)
      (order.frame ciphertext).encode (order.frame ciphertext').encode := by
  have hframe : ∀ ciphertext, (order.frame ciphertext).ciphertext = ciphertext := by
    intro ciphertext
    cases order <;> rfl
  have hempty : ciphertext = [] ↔ ciphertext' = [] := by
    rw [← List.length_eq_zero_iff, ← List.length_eq_zero_iff, h]
  unfold Frame.encode
  rw [hframe, hframe]
  by_cases hnil : ciphertext = []
  · rw [if_pos hnil, if_pos (hempty.mp hnil)]
    exact .error _
  rw [if_neg hnil, if_neg (hempty.not.mp hnil)]
  have hhex : (Frame.hexBytes ciphertext).length = (Frame.hexBytes ciphertext').length := by
    rw [Frame.hexBytes, Frame.hexBytes, Hex.length_ofText_encode, Hex.length_ofText_encode, h]
  have hbase64 : (Base64.encode ciphertext).length = (Base64.encode ciphertext').length := by
    rw [Base64.length_encode, Base64.length_encode, h]
  cases order with
  | handshake now freshId o => exact .ok (by simp only [List.length_append, h])
  | payment now o => exact .ok (by simp only [List.length_append, hhex])
  | message o =>
    dsimp only [frame]
    cases Frame.labelBytes .nickname o.nickname with
    | error e => exact .error e
    | ok label => exact .ok (by simp only [List.length_append, hbase64])
  | selfStash now o =>
    dsimp only [frame]
    cases Frame.labelBytes .scope Backup.scope with
    | error e => exact .error e
    | ok label => exact .ok (by simp only [List.length_append, hhex])

end PostOrder

/-! ### Payloads of the same length -/

namespace Posting

variable {c : Config} {key : SecretKey} {f : Funding} {o : Output} {sender : ScriptPublicKey}
  {payload payload' : Bytes} {utxos : List UnspentOutput} {asked asked' : Option Output}
  {posted posted' : Posted}

lemma fundBack_payload_congr (h : payload.length = payload'.length) :
    fundBack c sender payload utxos = fundBack c sender payload' utxos := by
  simp only [fundBack, fee_congr rfl h]

/-- What is assembled from a funding costs the same with another payload of the same length. -/
lemma Assembled.sameCosts (hlength : payload.length = payload'.length)
    (h : Assembled c key f o sender payload posted)
    (h' : Assembled c key f o sender payload' posted') : posted.SameCosts posted' := by
  have houtputs : posted.transaction.outputs = posted'.transaction.outputs := by
    rw [h.outputs_eq, h'.outputs_eq]
  refine ⟨?_, houtputs, ?_, ?_, ?_⟩
  · rw [h.spent, h'.spent]
  · rw [h.fee, h'.fee]
  · have hmass := h.computeMass
    rw [h.transaction, computeMass_signed_congr c.mass key _ rfl hlength, ← h'.transaction,
      h'.computeMass, Except.ok.injEq] at hmass
    exact hmass.symm
  · rw [h.storageMass, h'.storageMass, Transaction.storageMass, Transaction.storageMass, houtputs,
      h.spent, h'.spent]

/-- A funding is finished at the same cost with another payload of the same length, or refused
with both for the same storage mass. -/
lemma finish_sameCosts (hlength : payload.length = payload'.length)
    (h : Funded c sender payload utxos asked f o)
    (h' : Funded c sender payload' utxos asked' f o) (key : SecretKey) :
    Agree Posted.SameCosts (finish c key f [o] sender payload)
      (finish c key f [o] sender payload') := by
  obtain ⟨posted, hposted, hfinish⟩ := h.finish_eq key
  obtain ⟨posted', hposted', hfinish'⟩ := h'.finish_eq key
  have hcosts := hposted.sameCosts hlength hposted'
  rw [hfinish, hfinish', hcosts.storageMass]
  split
  · exact .error _
  · exact .ok hcosts

end Posting

/-! ### Posts at two times -/

namespace Poster

section

variable {m : Type → Type} (p : Poster m) (order : PostOrder) (prepared : Prepared)
  {payload payload' ciphertext ciphertext' : Bytes} (now now' : Timestamp)
  (freshId freshId' : String)

lemma fund_retimed (h : payload.length = payload'.length) :
    p.fund (order.retimed now freshId) prepared payload = p.fund order prepared payload' := by
  have hfee : ∀ primary chosen, Posting.fee p.config primary prepared.sender payload chosen =
      Posting.fee p.config primary prepared.sender payload' chosen :=
    fun _ _ => Posting.fee_congr rfl h
  rw [fund, fund, PostOrder.utxos_retimed, PostOrder.isPayment_retimed,
    Posting.fundBack_payload_congr h]
  simp only [funext (hfee _)]

lemma dispatch_retimed (h : ciphertext.length = ciphertext'.length) :
    Agree Posted.SameCosts (p.dispatch (order.retimed now freshId) prepared ciphertext)
      (p.dispatch (order.retimed now' freshId') prepared ciphertext') := by
  rw [dispatch_eq, dispatch_eq, PostOrder.frame_retimed, PostOrder.frame_retimed]
  refine (order.encode_frame_agree h).bind fun payload payload' _ _ hlength => ?_
  -- both orders are funded as the order itself is with the second payload
  have hfund := fund_retimed p order prepared now freshId hlength
  have hfund' := fund_retimed p order prepared now' freshId' (Eq.refl payload'.length)
  rw [hfund, hfund']
  refine .bind_same _ fun ⟨f, o⟩ hfunded => ?_
  have h' := funded_of_fund (hfund.trans hfunded)
  rw [PostOrder.utxos_retimed] at h'
  exact Posting.finish_sameCosts hlength h' (funded_of_fund hfunded) prepared.key

end

variable {σ : Type} {p : Poster (Stateful σ)} {s t : σ} {now now' : Timestamp}

/-- The message of an order has ciphertexts of the same length at two times. -/
lemma ciphertext_retimed (hnow : now.HasPlainYear) (hnow' : now'.HasPlainYear) (id id' : Block 16)
    (hcipher : p.cipher.MeasuresAlike s t) (key : SecretKey) (order : PostOrder) :
    Agree (fun ciphertext ciphertext' => ciphertext.length = ciphertext'.length)
      ((p.ciphertext key (order.retimed now (Uuid.text id))).answer s)
      ((p.ciphertext key (order.retimed now' (Uuid.text id'))).answer t) := by
  cases order with
  | handshake _ _ o =>
    exact hcipher _ _ _ (Handshake.size_compose hnow hnow' id id' o.nickname o.recipient
      o.conversationId o.isResponse)
  | payment _ o => exact hcipher _ _ _ (Note.size_compose hnow hnow' o.note o.amount)
  | message o => exact .ok rfl
  | selfStash _ o =>
    exact hcipher _ _ _ (Backup.size_compose hnow hnow' o.partner o.nickname o.conversationId
      o.isResponse)

/-- In the years with four digits the time makes no difference to the size of a body, and hence
none to what a post costs, given a cipher that measures alike. Nor does the value of a generated
identifier. -/
theorem post_retimed (hnow : now.HasPlainYear) (hnow' : now'.HasPlainYear) (id id' : Block 16) :
    (∀ nickname recipient (conversationId : Option String) isResponse,
      (Handshake.compose nickname recipient (conversationId.getD (Uuid.text id)) isResponse
          now).toJson.size =
        (Handshake.compose nickname recipient (conversationId.getD (Uuid.text id')) isResponse
          now').toJson.size) ∧
    (∀ partner nickname conversationId isResponse,
      (Backup.compose partner nickname conversationId isResponse now).toJson.size =
        (Backup.compose partner nickname conversationId isResponse now').toJson.size) ∧
    (∀ message amount,
      (Note.compose message amount now).toJson.size =
        (Note.compose message amount now').toJson.size) ∧
    ∀ {σ : Type} (p : Poster (Stateful σ)) (order : PostOrder) (s t : σ),
      p.cipher.MeasuresAlike s t →
        Agree Posted.SameCosts ((p.post (order.retimed now (Uuid.text id))).answer s)
          ((p.post (order.retimed now' (Uuid.text id'))).answer t) := by
  refine ⟨Handshake.size_compose hnow hnow' id id', Backup.size_compose hnow hnow',
    Note.size_compose hnow hnow', ?_⟩
  intro σ p order s t hcipher
  rw [answer_post, answer_post, PostOrder.prepare_retimed, PostOrder.prepare_retimed]
  refine .bind_same _ fun prepared _ => ?_
  refine (ciphertext_retimed hnow hnow' id id' hcipher prepared.key order).bind ?_
  intro ciphertext ciphertext' _ _ hlength
  exact dispatch_retimed p order prepared now now' _ _ hlength

end Poster

/-- The last nanosecond of the year 2016, which is in a 61st second. -/
def Timestamp.leapSecond : Timestamp where
  date := ⟨2016, 12, 31, by decide, by decide, by decide⟩
  hour := 23
  minute := 59
  second := 60
  nanos := 999999999
  hour_lt := by decide
  minute_lt := by decide
  second_le := by decide
  nanos_lt := by decide

namespace Poster

lemma measuresAlike_plain : plain.cipher.MeasuresAlike () () :=
  fun _ _ _ hlength => .ok hlength

/-- A cup of coffee costs the same at noon and in a leap second. -/
theorem coffee_retimed :
    Timestamp.firstNoon.HasPlainYear ∧ Timestamp.leapSecond.HasPlainYear ∧
      plain.cipher.MeasuresAlike () () ∧
      ∃ posted posted',
        (plain.post (PostOrder.coffee.retimed .firstNoon (Uuid.text (.zero 16)))).answer () =
            .ok posted ∧
          (plain.post (PostOrder.coffee.retimed .leapSecond (Uuid.text (.zero 16)))).answer () =
            .ok posted' ∧
          posted.SameCosts posted' := by
  have hnoon : Timestamp.firstNoon.HasPlainYear := by decide
  have hleap : Timestamp.leapSecond.HasPlainYear := by decide
  refine ⟨hnoon, hleap, measuresAlike_plain, ?_⟩
  obtain ⟨-, -, -, hposts⟩ := post_retimed hnoon hleap (.zero 16) (.zero 16)
  have hagree := hposts plain .coffee () () measuresAlike_plain
  have hsame : PostOrder.coffee.retimed .firstNoon (Uuid.text (.zero 16)) = .coffee := rfl
  obtain ⟨posted, hposted⟩ := exists_post_coffee
  have hanswer : (plain.post .coffee).answer () = .ok posted := by
    rw [Stateful.answer, hposted]
  rw [hsame, hanswer] at hagree ⊢
  obtain ⟨posted', hposted', hcosts⟩ := hagree.exists_ok
  exact ⟨posted, posted', rfl, hposted', hcosts⟩

end Poster

end LedgerPost
