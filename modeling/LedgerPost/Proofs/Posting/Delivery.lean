import LedgerPost.Proofs.Message.Body
import LedgerPost.Proofs.Message.Frame
import LedgerPost.Proofs.Posting.Order

/-!
# Messages that arrive

Whoever takes the frame out of a posted transaction holds what the cipher returned, and what the
cipher was given is a text that is read as the body of the order. The calls of the cipher are
written down by a cipher that does the same besides.
-/

namespace LedgerPost

/-! ### Calls of a cipher -/

/-- A call of a cipher. -/
structure Call where
  text : Bytes
  key : PublicKey
  answer : Except Error Bytes

/-- The cipher that writes down its calls. -/
def Cipher.logged {σ : Type} (cipher : Cipher (Stateful σ)) :
    Cipher (Stateful (σ × List Call)) := fun text key =>
  ExceptT.mk fun (s, calls) =>
    let (answer, s') := (cipher text key).run.run s
    (answer, s', calls ++ [⟨text, key, answer⟩])

/-- The poster whose cipher writes down its calls. -/
def Poster.logged {σ : Type} (p : Poster (Stateful σ)) : Poster (Stateful (σ × List Call)) where
  config := p.config
  valid := p.valid
  cipher := p.cipher.logged
  resolver := p.resolver

namespace Cipher

variable {σ : Type} {cipher : Cipher (Stateful σ)} {text : Bytes} {key : PublicKey} {s s' : σ}

/-- Writing down a call changes neither its answer nor the state of the cipher. -/
lemma run_logged {answer : Except Error Bytes} {calls : List Call}
    (h : (cipher text key).run.run s = (answer, s')) :
    (cipher.logged text key).run.run (s, calls) =
      (answer, s', calls ++ [⟨text, key, answer⟩]) := by
  have hrun : (cipher.logged text key).run.run (s, calls) =
      (((cipher text key).run.run s).1, ((cipher text key).run.run s).2,
        calls ++ [⟨text, key, ((cipher text key).run.run s).1⟩]) := rfl
  rw [hrun, h]

end Cipher

/-! ### What arrives -/

/-- A text is read as a body. -/
def Says {α : Type} (read : Json → Option α) (text : Bytes) (body : α) : Prop :=
  (Bytes.text? text).bind (Json.read? read) = some body

lemma says_compact {α : Type} {read : Json → Option α} {v : Json} {body : α}
    (h : Json.read? read v.compact = some body) : Says read (Bytes.ofText v.compact) body := by
  rw [Says, Bytes.text?_ofText, Option.bind_some, h]

/-- The calls of the cipher and the frame of a posted message are those of the order. A message in
a conversation is carried as it is. Others are encrypted with one call, and the text that is given
to the cipher is read as the body of the order, at the time cut to milliseconds. -/
def PostOrder.Delivers : PostOrder → Posted → List Call → Prop
  | .handshake now freshId o, posted, calls =>
    ∃ text ciphertext, calls = [⟨text, o.recipientKey, .ok ciphertext⟩] ∧
      posted.frame? = some (.handshake ciphertext) ∧
      Says Handshake.ofJson? text (.compose o.nickname o.recipient
        (o.conversationId.getD freshId) o.isResponse now.cut)
  | .payment now o, posted, calls =>
    ∃ text ciphertext, calls = [⟨text, o.recipientKey, .ok ciphertext⟩] ∧
      posted.frame? = some (.payment ciphertext) ∧
      (posted.transaction.outputs.head?.map (·.value)) = some o.amount ∧
      Says Note.ofJson? text (.compose o.note o.amount now.cut)
  | .message o, posted, calls =>
    calls = [] ∧ posted.frame? = some (.contextual o.nickname o.message)
  | .selfStash now o, posted, calls =>
    ∃ key text ciphertext, SecretKey.parse o.secret = .ok key ∧
      calls = [⟨text, key.publicKey, .ok ciphertext⟩] ∧
      posted.frame? = some (.selfStash "saved_handshake" ciphertext) ∧
      Says Backup.ofJson? text (.compose o.partner o.nickname o.conversationId o.isResponse
        now.cut)

namespace PostOrder

/-- The calls of the cipher for an order of a sender, with the ciphertext that it returns. -/
def calls (key : SecretKey) (ciphertext : Bytes) : PostOrder → List Call
  | .handshake now freshId o =>
    [⟨Bytes.ofText (Handshake.compose o.nickname o.recipient (o.conversationId.getD freshId)
      o.isResponse now).toJson.compact, o.recipientKey, .ok ciphertext⟩]
  | .payment now o =>
    [⟨Bytes.ofText (Note.compose o.note o.amount now).toJson.compact, o.recipientKey,
      .ok ciphertext⟩]
  | .message _ => []
  | .selfStash now o =>
    [⟨Bytes.ofText (Backup.compose o.partner o.nickname o.conversationId o.isResponse
      now).toJson.compact, key.publicKey, .ok ciphertext⟩]

end PostOrder

namespace Posting

variable {c : Config} {key : SecretKey} {sender : ScriptPublicKey} {payload : Bytes}
  {utxos : List UnspentOutput} {asked : Option Output} {posted : Posted}

lemma Posts.payload_eq (h : Posts c key sender payload utxos asked posted) :
    posted.transaction.payload = payload := by
  obtain ⟨f, o, -, hassembled⟩ := h
  rw [hassembled.transaction]
  rfl

/-- The output that is asked for comes first. -/
lemma Posts.head?_outputs {o : Output} (h : Posts c key sender payload utxos (some o) posted) :
    posted.transaction.outputs.head? = some o := by
  obtain ⟨f, o', hfunded, hassembled⟩ := h
  rw [hassembled.outputs_eq]
  cases hfunded with
  | pays hsettles => rfl

end Posting

namespace Poster

section

variable {m : Type → Type} {p : Poster m} {order : PostOrder} {prepared : Prepared}
  {ciphertext : Bytes} {posted : Posted}

lemma Fulfils.frame?_eq (h : p.Fulfils order prepared ciphertext posted) :
    posted.frame? = some (order.frame ciphertext) := by
  obtain ⟨payload, hencode, hposts⟩ := h.posts
  rw [Posted.frame?, hposts.payload_eq]
  exact Frame.decode?_of_encode hencode

lemma Fulfils.value_head? (h : p.Fulfils order prepared ciphertext posted) {recipient : String}
    {amount : UInt64} (hpayee : order.payee? p.config = some (recipient, amount)) :
    (posted.transaction.outputs.head?.map (·.value)) = some amount := by
  obtain ⟨payload, -, hposts⟩ := h.posts
  have hasks := h.asks
  generalize prepared.asked = asked at hasks hposts
  cases hasks with
  | nothing hnone =>
    rw [hpayee] at hnone
    cases hnone
  | output hpayee' hscript =>
    rw [hpayee] at hpayee'
    cases hpayee'
    rw [hposts.head?_outputs]
    rfl

/-- What fulfils an order delivers it, if a message in a conversation is its own ciphertext. -/
lemma Fulfils.delivers (h : p.Fulfils order prepared ciphertext posted)
    (hmessage : ∀ o, order = .message o → ciphertext = o.message) :
    order.Delivers posted (order.calls prepared.key ciphertext) := by
  have hframe := h.frame?_eq
  cases order with
  | handshake now freshId o =>
    exact ⟨_, ciphertext, rfl, hframe, says_compact (Handshake.read?_compact _)⟩
  | payment now o =>
    exact ⟨_, ciphertext, rfl, hframe, h.value_head? rfl, says_compact (Note.read?_compact _)⟩
  | message o =>
    rw [hmessage o rfl] at hframe
    exact ⟨rfl, hframe⟩
  | selfStash now o =>
    exact ⟨prepared.key, _, ciphertext, h.key, rfl, hframe, says_compact (Backup.read?_compact _)⟩

end

variable {σ : Type} {p : Poster (Stateful σ)} {order : PostOrder} {posted : Posted} {s s' : σ}

lemma ciphertext_of_message {key : SecretKey} {ciphertext : Bytes}
    (h : (p.ciphertext key order).run.run s = (.ok ciphertext, s')) (o : MessageOrder)
    (horder : order = .message o) : ciphertext = o.message := by
  subst horder
  cases h
  rfl

/-- The cipher is called as the order says. -/
lemma run_ciphertext_logged {key : SecretKey} {ciphertext : Bytes}
    (h : (p.ciphertext key order).run.run s = (.ok ciphertext, s')) :
    (p.logged.ciphertext key order).run.run (s, []) =
      (.ok ciphertext, s', order.calls key ciphertext) := by
  cases order with
  | handshake now freshId o => exact Cipher.run_logged h
  | payment now o => exact Cipher.run_logged h
  | message o =>
    cases h
    rfl
  | selfStash now o => exact Cipher.run_logged h

/-- Whatever is posted is delivered. A cipher that writes down its calls makes no difference to
what is posted, and the calls that it writes down are those of the order. -/
theorem post_delivers (h : (p.post order).run.run s = (.ok posted, s')) :
    ∃ calls, (p.logged.post order).run.run (s, []) = (.ok posted, s', calls) ∧
      order.Delivers posted calls := by
  obtain ⟨prepared, ciphertext, hprepare, hciphertext, hdispatch⟩ := run_post_eq_ok.mp h
  have hlogged := run_ciphertext_logged hciphertext
  refine ⟨order.calls prepared.key ciphertext, ?_, ?_⟩
  · rw [run_post_eq_ok]
    exact ⟨prepared, ciphertext, hprepare, hlogged, hdispatch⟩
  · have hfulfils := Fulfils.of_dispatch hprepare hdispatch
    exact hfulfils.delivers (ciphertext_of_message hciphertext)

theorem post_coffee_delivers :
    ∃ posted calls, (Poster.plain.post .coffee).run.run () = (.ok posted, ()) ∧
      (Poster.plain.logged.post .coffee).run.run ((), []) = (.ok posted, (), calls) ∧
      PostOrder.coffee.Delivers posted calls := by
  obtain ⟨posted, h⟩ := exists_post_coffee
  obtain ⟨calls, hlogged, hdelivers⟩ := post_delivers h
  exact ⟨posted, calls, h, hlogged, hdelivers⟩

end Poster

end LedgerPost
