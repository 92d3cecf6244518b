import LedgerPost.Posting.Poster
import LedgerPost.Proofs.Ledger.Config
import LedgerPost.Proofs.Posting.Assembly
import LedgerPost.Proofs.Stateful

/-!
# Orders

The four kinds of message as one kind of order. Posting an order takes three steps: it is prepared
without the cipher, its message is encrypted, and the ciphertext is dispatched without the cipher.

The cipher may keep a state, which it also leaves behind when it fails.
-/

namespace LedgerPost

/-- An order to post a message. -/
inductive PostOrder
  | handshake (now : Timestamp) (freshId : String) (o : HandshakeOrder)
  | payment (now : Timestamp) (o : PaymentOrder)
  | message (o : MessageOrder)
  | selfStash (now : Timestamp) (o : BackupOrder)

namespace PostOrder

/-- The address of the sender. -/
def sender : PostOrder → String
  | .handshake _ _ o => o.sender
  | .payment _ o => o.sender
  | .message o => o.sender
  | .selfStash _ o => o.sender

/-- The bytes of the secret key of the sender. -/
def secret : PostOrder → Bytes
  | .handshake _ _ o => o.secret
  | .payment _ o => o.secret
  | .message o => o.secret
  | .selfStash _ o => o.secret

/-- The outputs to choose from. -/
def utxos : PostOrder → List UnspentOutput
  | .handshake _ _ o => o.utxos
  | .payment _ o => o.utxos
  | .message o => o.utxos
  | .selfStash _ o => o.utxos

/-- Who is paid besides the sender, and how much. -/
def payee? (c : Config) : PostOrder → Option (String × UInt64)
  | .handshake _ _ o => some (o.recipient, c.handshakeAmount)
  | .payment _ o => some (o.recipient, o.amount)
  | .message _ => none
  | .selfStash _ _ => none

/-- The frame of a ciphertext. -/
def frame : PostOrder → Bytes → Frame
  | .handshake _ _ _, ciphertext => .handshake ciphertext
  | .payment _ _, ciphertext => .payment ciphertext
  | .message o, ciphertext => .contextual o.nickname ciphertext
  | .selfStash _ _, ciphertext => .selfStash Backup.scope ciphertext

/-- Whether an order takes the largest outputs only, as many as it needs. -/
def isPayment : PostOrder → Bool
  | .payment _ _ => true
  | _ => false

/-- The same order with another amount, if it is a payment. -/
def withAmount (amount : UInt64) : PostOrder → PostOrder
  | .payment now o => .payment now { o with amount := amount }
  | order => order

/-- The same order with other outputs to choose from. -/
def withUtxos (utxos : List UnspentOutput) : PostOrder → PostOrder
  | .handshake now freshId o => .handshake now freshId { o with utxos := utxos }
  | .payment now o => .payment now { o with utxos := utxos }
  | .message o => .message { o with utxos := utxos }
  | .selfStash now o => .selfStash now { o with utxos := utxos }

/-- A payment has to pay something. -/
def checkAmount : PostOrder → Except Error Unit
  | .payment _ o => if o.amount = 0 then .error .zeroPayment else .ok ()
  | _ => .ok ()

end PostOrder

/-- What is found out about an order before its message is encrypted. -/
structure Prepared where
  key : SecretKey
  sender : ScriptPublicKey
  /-- The output that pays somebody else. -/
  asked : Option Output

namespace Poster

variable {m : Type → Type}

/-- The output that an order asks for. -/
def asked (p : Poster m) (order : PostOrder) : Except Error (Option Output) :=
  match order.payee? p.config with
  | none => .ok none
  | some (recipient, amount) => (p.resolver recipient).map fun script => some ⟨amount, script⟩

/-- The first step: what is found out without the cipher. -/
def prepare (p : Poster m) (order : PostOrder) : Except Error Prepared := do
  order.checkAmount
  let key ← SecretKey.parse order.secret
  let sender ← p.resolver order.sender
  let asked ← p.asked order
  return ⟨key, sender, asked⟩

/-- The last step: from the ciphertext to the posted transaction. -/
def dispatch (p : Poster m) (order : PostOrder) (prepared : Prepared) (ciphertext : Bytes) :
    Except Error Posted := do
  let payload ← (order.frame ciphertext).encode
  match prepared.asked, order with
  | none, _ =>
    Posting.payBack p.config prepared.key prepared.sender payload order.utxos
  | some o, .payment _ _ =>
    Posting.payFromLargest p.config prepared.key prepared.sender o.scriptPublicKey o.value payload
      order.utxos
  | some o, _ =>
    Posting.payFromAll p.config prepared.key prepared.sender o.scriptPublicKey o.value payload
      order.utxos

/-- How an order is funded: a payment out of the largest outputs, another output that is asked for
out of all of them, and else all of them are paid back. -/
def fund (p : Poster m) (order : PostOrder) (prepared : Prepared) (payload : Bytes) :
    Except Error (Funding × Output) :=
  match prepared.asked with
  | none => Posting.fundBack p.config prepared.sender payload order.utxos
  | some o => do
    let choose := if order.isPayment then Funding.forPayment else Funding.allForAmount
    let f ← choose order.utxos o.value p.config.dustThreshold
      (Posting.fee p.config [o] prepared.sender payload)
    return (f, o)

/-- Dispatching frames the ciphertext, funds the order, and finishes the transaction. -/
lemma dispatch_eq (p : Poster m) (order : PostOrder) (prepared : Prepared) (ciphertext : Bytes) :
    p.dispatch order prepared ciphertext = (do
      let payload ← (order.frame ciphertext).encode
      let (f, o) ← p.fund order prepared payload
      Posting.finish p.config prepared.key f [o] prepared.sender payload) := by
  refine bind_congr fun payload => ?_
  rcases prepared with ⟨key, sender, _ | o⟩
  · exact Posting.payBack_eq
  · simp only [fund, bind_assoc, pure_bind]
    cases order <;> rfl

variable [Monad m] [MonadExceptOf Error m]

/-- Posts an order. -/
def post (p : Poster m) : PostOrder → m Posted
  | .handshake now freshId o => p.handshake now freshId o
  | .payment now o => p.payment now o
  | .message o => p.message o
  | .selfStash now o => p.selfStash now o

/-- The step in between: the ciphertext of an order, which a message in a conversation brings
along. -/
def ciphertext (p : Poster m) (key : SecretKey) : PostOrder → m Bytes
  | .handshake now freshId o =>
    p.encrypt (Handshake.compose o.nickname o.recipient (o.conversationId.getD freshId)
      o.isResponse now).toJson o.recipientKey
  | .payment now o => p.encrypt (Note.compose o.note o.amount now).toJson o.recipientKey
  | .message o => pure o.message
  | .selfStash now o =>
    p.encrypt (Backup.compose o.partner o.nickname o.conversationId o.isResponse now).toJson
      key.publicKey

end Poster

/-! ### The three steps in a run -/

namespace Poster

variable {σ : Type}

open Stateful in
/-- Posting takes the three steps. -/
theorem post_eq (p : Poster (Stateful σ)) (order : PostOrder) :
    p.post order = (do
      let prepared ← MonadExcept.ofExcept (p.prepare order)
      let ciphertext ← p.ciphertext prepared.key order
      MonadExcept.ofExcept (p.dispatch order prepared ciphertext)) := by
  unfold prepare asked dispatch
  cases order with
  | handshake now freshId o =>
    simp only [post, handshake, ciphertext, PostOrder.checkAmount, PostOrder.payee?,
      PostOrder.secret, PostOrder.sender, PostOrder.frame, PostOrder.utxos, ofExcept_bind,
      ofExcept_map, ofExcept_pure, bind_assoc, pure_bind]
    rfl
  | payment now o =>
    simp only [post, payment, ciphertext, PostOrder.checkAmount, PostOrder.payee?,
      PostOrder.secret, PostOrder.sender, PostOrder.frame, PostOrder.utxos, ofExcept_bind,
      ofExcept_map, ofExcept_pure, bind_assoc, pure_bind]
    by_cases hamount : o.amount = 0
    · rw [if_pos hamount, if_pos hamount]
      rfl
    · rw [if_neg hamount, if_neg hamount]
      rfl
  | message o =>
    simp only [post, message, ciphertext, PostOrder.checkAmount, PostOrder.payee?,
      PostOrder.secret, PostOrder.sender, PostOrder.frame, PostOrder.utxos, ofExcept_bind,
      ofExcept_pure, bind_assoc, pure_bind]
    rfl
  | selfStash now o =>
    simp only [post, selfStash, ciphertext, PostOrder.checkAmount, PostOrder.payee?,
      PostOrder.secret, PostOrder.sender, PostOrder.frame, PostOrder.utxos, ofExcept_bind,
      ofExcept_pure, bind_assoc, pure_bind]
    rfl

/-- An order is posted if it is prepared, its message is encrypted and the outcome dispatched. Only
the cipher changes the state. -/
lemma run_post_eq_ok {p : Poster (Stateful σ)} {order : PostOrder} {s s' : σ} {posted : Posted} :
    (p.post order).run.run s = (.ok posted, s') ↔
      ∃ prepared ciphertext, p.prepare order = .ok prepared ∧
        (p.ciphertext prepared.key order).run.run s = (.ok ciphertext, s') ∧
        p.dispatch order prepared ciphertext = .ok posted := by
  rw [post_eq, Stateful.run_bind_eq_ok]
  constructor
  · rintro ⟨prepared, s₁, hstart, h⟩
    obtain ⟨ciphertext, s₂, hciphertext, hend⟩ := Stateful.run_bind_eq_ok.mp h
    obtain ⟨hprepare, rfl⟩ := Stateful.run_ofExcept_eq_ok.mp hstart
    obtain ⟨hdispatch, rfl⟩ := Stateful.run_ofExcept_eq_ok.mp hend
    exact ⟨prepared, ciphertext, hprepare, hciphertext, hdispatch⟩
  · rintro ⟨prepared, ciphertext, hprepare, hciphertext, hdispatch⟩
    refine ⟨prepared, s, Stateful.run_ofExcept_eq_ok.mpr ⟨hprepare, rfl⟩, ?_⟩
    rw [Stateful.run_bind_eq_ok]
    exact ⟨ciphertext, s', hciphertext, Stateful.run_ofExcept_eq_ok.mpr ⟨hdispatch, rfl⟩⟩

/-- An order fails while it is prepared, while its message is encrypted, or while the outcome is
dispatched. -/
lemma run_post_eq_error {p : Poster (Stateful σ)} {order : PostOrder} {s s' : σ} {e : Error} :
    (p.post order).run.run s = (.error e, s') ↔
      (p.prepare order = .error e ∧ s = s') ∨
        ∃ prepared, p.prepare order = .ok prepared ∧
          ((p.ciphertext prepared.key order).run.run s = (.error e, s') ∨
            ∃ ciphertext, (p.ciphertext prepared.key order).run.run s = (.ok ciphertext, s') ∧
              p.dispatch order prepared ciphertext = .error e) := by
  rw [post_eq, Stateful.run_bind_eq_error, Stateful.run_ofExcept, Prod.mk.injEq]
  refine or_congr_right ?_
  constructor
  · rintro ⟨prepared, s₁, hstart, h⟩
    obtain ⟨hprepare, rfl⟩ := Prod.mk.inj hstart
    refine ⟨prepared, hprepare, ?_⟩
    rcases Stateful.run_bind_eq_error.mp h with h | ⟨ciphertext, s₂, hciphertext, h⟩
    · exact .inl h
    · obtain ⟨hdispatch, rfl⟩ := Stateful.run_ofExcept_eq_error.mp h
      exact .inr ⟨ciphertext, hciphertext, hdispatch⟩
  · rintro ⟨prepared, hprepare, h⟩
    refine ⟨prepared, s, Prod.ext hprepare rfl, ?_⟩
    rw [Stateful.run_bind_eq_error]
    rcases h with h | ⟨ciphertext, hciphertext, hdispatch⟩
    · exact .inl h
    · refine .inr ⟨ciphertext, s', hciphertext, ?_⟩
      rw [Stateful.run_ofExcept, hdispatch]

end Poster

/-! ### Fulfilled orders -/

/-- The output that an order asks for, which is none when nobody but the sender is paid. -/
inductive Poster.Asks {m : Type → Type} (p : Poster m) (order : PostOrder) : Option Output → Prop
  | nothing (hpayee : order.payee? p.config = none) : Asks p order none
  | output {recipient : String} {amount : UInt64} {script : ScriptPublicKey}
      (hpayee : order.payee? p.config = some (recipient, amount))
      (hscript : p.resolver recipient = .ok script) : Asks p order (some ⟨amount, script⟩)

/-- An order that is posted, with what was found out about it and the ciphertext of its message. -/
structure Poster.Fulfils {m : Type → Type} (p : Poster m) (order : PostOrder) (prepared : Prepared)
    (ciphertext : Bytes) (posted : Posted) : Prop where
  amount : order.checkAmount = .ok ()
  key : SecretKey.parse order.secret = .ok prepared.key
  sender : p.resolver order.sender = .ok prepared.sender
  asks : p.Asks order prepared.asked
  posts : ∃ payload, (order.frame ciphertext).encode = .ok payload ∧
    Posting.Posts p.config prepared.key prepared.sender payload order.utxos prepared.asked posted

namespace Poster

variable {m : Type → Type} {p : Poster m} {order : PostOrder} {prepared : Prepared}
  {ciphertext : Bytes} {posted : Posted}

lemma Asks.of_asked {asked : Option Output} (h : p.asked order = .ok asked) :
    p.Asks order asked := by
  rw [Poster.asked] at h
  split at h
  · rename_i hpayee
    cases h
    exact .nothing hpayee
  · rename_i recipient amount hpayee
    obtain ⟨script, hscript, rfl⟩ := map_eq_ok.mp h
    exact .output hpayee hscript

/-- What is funded is funded out of the outputs of the order, for the output that it asks for. -/
lemma funded_of_fund {payload : Bytes} {f : Funding} {o : Output}
    (h : p.fund order prepared payload = .ok (f, o)) :
    Posting.Funded p.config prepared.sender payload order.utxos prepared.asked f o := by
  rcases prepared with ⟨key, sender, _ | o'⟩
  · exact .of_fundBack h
  · obtain ⟨f', hf, heq⟩ := bind_eq_ok.mp h
    cases heq
    dsimp only at hf
    split at hf
    · exact .pays (.of_forPayment hf)
    · exact .pays (.of_allForAmount hf)

lemma posts_of_dispatch (h : p.dispatch order prepared ciphertext = .ok posted) :
    ∃ payload, (order.frame ciphertext).encode = .ok payload ∧
      Posting.Posts p.config prepared.key prepared.sender payload order.utxos prepared.asked
        posted := by
  rw [dispatch_eq] at h
  obtain ⟨payload, hpayload, h⟩ := bind_eq_ok.mp h
  obtain ⟨⟨f, o⟩, hf, h⟩ := bind_eq_ok.mp h
  exact ⟨payload, hpayload, f, o, funded_of_fund hf, .of_finish h⟩

/-- What is prepared and dispatched fulfils the order. -/
lemma Fulfils.of_dispatch (hprepare : p.prepare order = .ok prepared)
    (hdispatch : p.dispatch order prepared ciphertext = .ok posted) :
    p.Fulfils order prepared ciphertext posted := by
  have hposts := posts_of_dispatch hdispatch
  obtain ⟨⟨⟩, hamount, hprepare⟩ := bind_eq_ok.mp hprepare
  obtain ⟨key, hkey, hprepare⟩ := bind_eq_ok.mp hprepare
  obtain ⟨sender, hsender, hprepare⟩ := bind_eq_ok.mp hprepare
  obtain ⟨asked, hasked, hprepare⟩ := bind_eq_ok.mp hprepare
  cases hprepare
  exact ⟨hamount, hkey, hsender, .of_asked hasked, hposts⟩

/-- Whatever is posted fulfils the order. -/
theorem Fulfils.of_post {σ : Type} {p : Poster (Stateful σ)} {s s' : σ}
    (h : (p.post order).run.run s = (.ok posted, s')) :
    ∃ prepared ciphertext, p.Fulfils order prepared ciphertext posted := by
  obtain ⟨prepared, ciphertext, hprepare, -, hdispatch⟩ := run_post_eq_ok.mp h
  exact ⟨prepared, ciphertext, .of_dispatch hprepare hdispatch⟩

/-- What is asked for is worth something, since a handshake pays more than dust. -/
lemma Fulfils.amount_pos (h : p.Fulfils order prepared ciphertext posted) {recipient : String}
    {amount : UInt64} (hpayee : order.payee? p.config = some (recipient, amount)) : 0 < amount := by
  cases order with
  | handshake now freshId o =>
    cases hpayee
    exact UInt64.lt_of_le_of_lt UInt64.zero_le p.valid.dust_lt
  | payment now o =>
    cases hpayee
    have hamount := h.amount
    rw [UInt64.pos_iff_ne_zero]
    intro hzero
    simp [PostOrder.checkAmount, hzero] at hamount
  | message o => cases hpayee
  | selfStash now o => cases hpayee

end Poster

/-! ### An order on the main network -/

/-- The first noon of the year 2025. -/
def Timestamp.firstNoon : Timestamp where
  date := ⟨2025, 1, 1, by decide, by decide, by decide⟩
  hour := 12
  minute := 0
  second := 0
  nanos := 0
  hour_lt := by decide
  minute_lt := by decide
  second_le := by decide
  nanos_lt := by decide

/-- A poster on the main network whose cipher leaves texts as they are. -/
def Poster.plain : Poster (Stateful Unit) where
  config := .standard .mainnet
  valid := by decide
  cipher := fun text _ => pure text
  resolver := Network.mainnet.resolver

/-- A payment out of one output and a block reward. -/
def PostOrder.coffee : PostOrder := .payment .firstNoon {
  sender := (Address.ofPublicKey .mainnet SecretKey.one.publicKey).text
  recipient := (Address.mk .mainnet .scriptHash (.zero 32)).text
  amount := 60000000
  note := "coffee"
  secret := Bytes.bigEndian 32 1
  recipientKey := SecretKey.one.publicKey
  utxos := [
    ⟨⟨⟨.zero 32⟩, 0⟩, 100000000, .payToPublicKey SecretKey.one.publicKey.bytes, false⟩,
    ⟨⟨⟨.zero 32⟩, 1⟩, 900000000, .payToPublicKey SecretKey.one.publicKey.bytes, true⟩] }

lemma Poster.exists_post_of_isOk {p : Poster (Stateful Unit)} {order : PostOrder}
    (h : ((p.post order).run.run ()).1.isOk = true) :
    ∃ posted, (p.post order).run.run () = (.ok posted, ()) := by
  generalize (p.post order).run.run () = answer at h ⊢
  rcases answer with ⟨e | posted, s⟩
  · cases h
  · exact ⟨posted, rfl⟩

set_option maxRecDepth 100000 in
lemma exists_post_coffee :
    ∃ posted, (Poster.plain.post .coffee).run.run () = (.ok posted, ()) :=
  Poster.exists_post_of_isOk (by decide +kernel)

end LedgerPost
