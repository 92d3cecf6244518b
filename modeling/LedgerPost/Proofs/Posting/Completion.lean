import LedgerPost.Proofs.Ledger.Address
import LedgerPost.Proofs.Message.Frame
import LedgerPost.Proofs.Posting.Conservation
import LedgerPost.Proofs.Posting.Fee

/-!
# After the funding

An order that is funded is posted, unless its storage mass is refused. The steps that are left are
about a transaction that is put together anew, but its outputs add up to what was funded, and it
has the mass that was priced.
-/

namespace LedgerPost

namespace Posting

variable {c : Config} {key : SecretKey} {f : Funding} {o : Output} {sender : ScriptPublicKey}
  {payload : Bytes} {utxos : List UnspentOutput} {asked : Option Output}

/-- The steps that put a funded transaction together, none of which fails: the outputs have a sum,
which the fee completes to the total of the funding, the inputs are signed, and the signed
transaction has a mass. -/
structure Completes (c : Config) (key : SecretKey) (f : Funding) (o : Output)
    (sender : ScriptPublicKey) (payload : Bytes) : Prop where
  sum : ∃ sum, Amount.sum ((outputs f o sender).map (·.value)) = .ok sum ∧
    Amount.add sum f.fee = .ok f.total
  mass : ∃ signed mass,
    (Transaction.draft f.utxos (outputs f o sender) payload).sign f.utxos key = .ok signed ∧
      signed.computeMass c.mass = .ok mass

/-- The fee of the outputs that a funding makes was priced. -/
lemma Funded.exists_fee (h : Funded c sender payload utxos asked f o) :
    ∃ o' fee, o'.scriptPublicKey = o.scriptPublicKey ∧
      Posting.fee c [o'] sender payload f.utxos f.hasChange = .ok fee := by
  cases h with
  | pays hsettles =>
    by_cases hchange : f.hasChange = true
    · rw [hchange]
      exact ⟨o, f.fee, rfl, (hsettles.of_hasChange hchange).2⟩
    · rw [Bool.not_eq_true] at hchange
      obtain ⟨full, bare, -, hbare, -⟩ := hsettles.of_not_hasChange hchange
      rw [hchange]
      exact ⟨o, bare, rfl, hbare⟩
  | paysBack _ _ _ hfee hzero =>
    have hchange : f.hasChange = false := by
      simp [Funding.hasChange, hzero]
    rw [hchange]
    exact ⟨⟨0, sender⟩, f.fee, rfl, hfee⟩

lemma Funded.completes (h : Funded c sender payload utxos asked f o) (key : SecretKey) :
    Completes c key f o sender payload := by
  constructor
  · have htotal := h.total_eq
    have hvalues := exactSum_outputs f o sender
    have hsize := f.total.toNat_lt_size
    obtain ⟨sum, hsum⟩ := Amount.exists_ofNat_eq_ok
      (n := Amount.exactSum ((outputs f o sender).map (·.value))) (by omega)
    have hsum' := Amount.sum_eq_ok_iff.mp hsum
    exact ⟨sum, hsum, Amount.add_eq_ok_iff.mpr (by omega)⟩
  · obtain ⟨o', fee, hscript, hfee⟩ := h.exists_fee
    have hlength := Transaction.length_draft_inputs f.utxos (outputs f o sender) payload
    have hrequired : (Transaction.draft f.utxos (outputs f o sender) payload).requiredFee c.mass =
        .ok fee := by
      apply requiredFee_of_fee hfee
      · exact map_sigOpCount_draft ..
      · rw [Output.dimension, hscript]
        exact map_dimension_outputs f o sender
      · rfl
    obtain ⟨mass, hmass, -⟩ := Transaction.requiredFee_eq_ok_iff.mp hrequired
    rw [← Transaction.computeMass_signed hlength] at hmass
    exact ⟨_, mass, Transaction.sign_eq_ok hlength, hmass⟩

/-- What is funded is assembled, and then refused for its storage mass or posted. -/
theorem Funded.finish_eq (h : Funded c sender payload utxos asked f o) (key : SecretKey) :
    ∃ posted, Assembled c key f o sender payload posted ∧
      finish c key f [o] sender payload =
        if c.mass.standardLimit < posted.storageMass ∧ c.enforceStorageMass then
          .error (.storageMassExceeded posted.storageMass c.mass.standardLimit)
        else .ok posted := by
  obtain ⟨⟨sum, hsum, -⟩, signed, mass, hsigned, hmass⟩ := h.completes key
  have hlength := Transaction.length_draft_inputs f.utxos (outputs f o sender) payload
  have heq := hsigned
  rw [Transaction.sign_eq_ok hlength, Except.ok.injEq] at heq
  let posted : Posted := {
    transaction := signed
    transactionId := signed.id
    fee := f.fee
    computeMass := mass
    storageMass := signed.storageMass c.mass (f.utxos.map UnspentOutput.spent)
    spent := f.utxos }
  refine ⟨posted, ⟨heq.symm, rfl, rfl, hmass, rfl, rfl⟩, ?_⟩
  have hstorage : (Transaction.draft f.utxos (outputs f o sender) payload).storageMass c.mass
      (f.utxos.map UnspentOutput.spent) = posted.storageMass := by
    dsimp only [posted]
    rw [← heq]
    rfl
  rw [finish]
  dsimp only
  rw [← outputs, hstorage]
  have hsum' : Amount.sum ((Transaction.draft f.utxos (outputs f o sender) payload).outputs.map
      (·.value)) = .ok sum := hsum
  rw [hsum', hsigned]
  split
  · rfl
  · change (signed.computeMass c.mass >>= _) = _
    rw [hmass]
    rfl

/-- What is funded is refused for its storage mass alone. -/
lemma Funded.finish_eq_error (h : Funded c sender payload utxos asked f o) {e : Error}
    (hfinish : finish c key f [o] sender payload = .error e) :
    c.enforceStorageMass = true ∧ ∃ mass, c.mass.standardLimit < mass ∧
      e = .storageMassExceeded mass c.mass.standardLimit := by
  obtain ⟨posted, -, heq⟩ := h.finish_eq key
  rw [heq] at hfinish
  split at hfinish
  · rename_i hrefused
    cases hfinish
    exact ⟨hrefused.2, posted.storageMass, hrefused.1, rfl⟩
  · cases hfinish

/-! ### Why there are no funds -/

lemma fee_eq_error {primary : List Output} {chosen : List UnspentOutput} {withChange : Bool}
    {e : Error} (h : Posting.fee c primary sender payload chosen withChange = .error e) :
    e = .amountOverflow :=
  Transaction.failsOnOverflow_requiredFee _ _ e h

/-- The sender is not paid back if there is nothing to spend, or if the fee leaves no more than
dust. -/
lemma fundBack_eq_error {e : Error} (h : fundBack c sender payload utxos = .error e) :
    e = .amountOverflow ∨ ∃ required available, e = .insufficientFunds required available ∧
      (Funding.all utxos 1 = .error e ∨
        ∃ chosen needed, Funding.all utxos 1 = .ok (chosen, available) ∧
          Posting.fee c [⟨0, sender⟩] sender payload chosen false = .ok needed ∧
          required.toNat = needed.toNat + c.dustThreshold.toNat + 1 ∧ available < required) := by
  rw [fundBack] at h
  rcases bind_eq_error.mp h with h | ⟨⟨chosen, total⟩, hall, h⟩
  · rcases Funding.all_eq_error h with he | ⟨total, he, -⟩
    · exact .inl he
    · exact .inr ⟨1, total, he, .inl h⟩
  · rcases bind_eq_error.mp h with h | ⟨needed, hfee, h⟩
    · exact .inl (fee_eq_error h)
    · dsimp only at h
      by_cases hdust : (if needed ≤ total then total - needed else 0) ≤ c.dustThreshold
      · rw [if_pos hdust] at h
        rw [rest_le_iff] at hdust
        rcases bind_eq_error.mp h with h | ⟨sum, hsum, h⟩
        · exact .inl (Amount.ofNat_eq_error h)
        · rcases bind_eq_error.mp h with h | ⟨required, hrequired, h⟩
          · exact .inl (Amount.ofNat_eq_error h)
          · cases h
            rw [Amount.add_eq_ok_iff] at hsum hrequired
            rw [UInt64.toNat_one] at hrequired
            have hlt : total < required := by
              rw [UInt64.lt_iff_toNat_lt]
              omega
            exact .inr ⟨required, total, rfl, .inr ⟨chosen, needed, hall, hfee, by omega, hlt⟩⟩
      · rw [if_neg hdust] at h
        cases h

end Posting

/-! ### Funded orders -/

/-- An order with funds: it is prepared, its message is encrypted and framed, and outputs are
chosen that cover what is posted. -/
structure Poster.HasFunds {σ : Type} (p : Poster (Stateful σ)) (order : PostOrder) (s s' : σ)
    (prepared : Prepared) (payload : Bytes) (f : Funding) (o : Output) : Prop where
  prepare : p.prepare order = .ok prepared
  frame : ∃ ciphertext, (p.ciphertext prepared.key order).run.run s = (.ok ciphertext, s') ∧
    (order.frame ciphertext).encode = .ok payload
  fund : p.fund order prepared payload = .ok (f, o)

/-- An order is posted, or refused for its storage mass where that is enforced. -/
def Poster.PostsOrRefuses {σ : Type} (p : Poster (Stateful σ)) (order : PostOrder) (s s' : σ) :
    Prop :=
  (∃ posted, (p.post order).run.run s = (.ok posted, s')) ∨
    p.config.enforceStorageMass = true ∧ ∃ mass, p.config.mass.standardLimit < mass ∧
      (p.post order).run.run s =
        (.error (.storageMassExceeded mass p.config.mass.standardLimit), s')

/-- The errors of an order. Each but the last comes before there are funds. -/
inductive Poster.Fails {σ : Type} (p : Poster (Stateful σ)) : Error → Prop
  | amount : Fails p .zeroPayment
  | secret : Fails p .invalidSecretKey
  | address {address : String} {e : Error} (h : p.resolver address = .error e) : Fails p e
  | cipher {text : Bytes} {key : PublicKey} {s s' : σ} {e : Error}
      (h : (p.cipher text key).run.run s = (.error e, s')) : Fails p e
  | payload (fault : PayloadFault) : Fails p (.invalidPayload fault)
  | overflow : Fails p .amountOverflow
  | funds (required available : UInt64) : Fails p (.insufficientFunds required available)
  | storageMass {mass : UInt64} (henforce : p.config.enforceStorageMass = true)
      (hlimit : p.config.mass.standardLimit < mass) :
      Fails p (.storageMassExceeded mass p.config.mass.standardLimit)

/-- A resolver that refuses addresses as such. -/
def Resolver.Refuses (resolver : Resolver) : Prop :=
  ∀ address e, resolver address = .error e →
    e.isFatal = true ∨ ∃ text fault, e = .invalidAddress text fault

/-- A cipher that fails as such. -/
def Cipher.Reports {σ : Type} (cipher : Cipher (Stateful σ)) : Prop :=
  ∀ text key s e s', (cipher text key).run.run s = (.error e, s') → ∃ cause, e = .encryption cause

lemma Network.refuses_resolver (network : Network) : network.resolver.Refuses := by
  intro address e h
  have hanswer := Address.Answer.of_resolver network address
  rw [h] at hanswer
  cases hanswer with
  | refused _ fault => exact .inr ⟨address, fault, rfl⟩
  | fatal _ => exact .inl rfl

lemma Poster.reports_plain : Poster.plain.cipher.Reports := by
  intro text key s e s' h
  cases h

/-- Whether an error is one that no order should meet: its inputs are numbered and counted by the
library itself, and its configuration was checked before. -/
def Error.isInternal : Error → Bool
  | .inputOutOfRange _ _ => true
  | .spentCountMismatch _ _ => true
  | .invalidConfig _ => true
  | _ => false

namespace Poster

variable {σ : Type} {p : Poster (Stateful σ)} {order : PostOrder} {prepared : Prepared}
  {payload ciphertext : Bytes} {f : Funding} {o : Output} {e : Error} {s s' : σ}

lemma fund_eq_error (h : p.fund order prepared payload = .error e) :
    e = .amountOverflow ∨ ∃ required available, e = .insufficientFunds required available := by
  rcases prepared with ⟨key, sender, _ | o⟩
  · exact (Posting.fundBack_eq_error h).imp_right
      fun ⟨required, available, h, _⟩ => ⟨required, available, h⟩
  · rcases bind_eq_error.mp h with h | ⟨f, -, h⟩
    · dsimp only at h
      split at h
      · exact (Funding.forPayment_eq_error (fun _ _ _ => Posting.fee_eq_error) h).imp_right
          fun ⟨required, available, h, _⟩ => ⟨required, available, h⟩
      · exact (Funding.allForAmount_eq_error (fun _ _ _ => Posting.fee_eq_error) h).imp_right
          fun ⟨required, available, h, _⟩ => ⟨required, available, h⟩
    · cases h

/-- With funds an order is finished in the state that the cipher left. -/
lemma HasFunds.run_post (h : p.HasFunds order s s' prepared payload f o) :
    (p.post order).run.run s =
      (Posting.finish p.config prepared.key f [o] prepared.sender payload, s') := by
  obtain ⟨hprepare, ⟨ciphertext, hciphertext, hencode⟩, hfund⟩ := h
  have hdispatch : p.dispatch order prepared ciphertext =
      Posting.finish p.config prepared.key f [o] prepared.sender payload := by
    rw [dispatch_eq, hencode]
    change (p.fund order prepared payload >>= _) = _
    rw [hfund]
    rfl
  rw [← hdispatch]
  cases hanswer : p.dispatch order prepared ciphertext with
  | error e =>
    rw [run_post_eq_error]
    exact .inr ⟨prepared, hprepare, .inr ⟨ciphertext, hciphertext, hanswer⟩⟩
  | ok posted =>
    rw [run_post_eq_ok]
    exact ⟨prepared, ciphertext, hprepare, hciphertext, hanswer⟩

lemma HasFunds.postsOrRefuses (h : p.HasFunds order s s' prepared payload f o) :
    p.PostsOrRefuses order s s' := by
  obtain ⟨posted, -, hfinish⟩ := (funded_of_fund h.fund).finish_eq prepared.key
  rw [PostsOrRefuses, h.run_post, hfinish]
  by_cases hrefused : p.config.mass.standardLimit < posted.storageMass ∧
      p.config.enforceStorageMass
  · rw [if_pos hrefused]
    exact .inr ⟨hrefused.2, posted.storageMass, hrefused.1, rfl⟩
  · rw [if_neg hrefused]
    exact .inl ⟨posted, rfl⟩

/-! ### Unfunded orders -/

lemma prepare_eq_error (h : p.prepare order = .error e) :
    e = .zeroPayment ∨ e = .invalidSecretKey ∨ ∃ address, p.resolver address = .error e := by
  rcases bind_eq_error.mp h with h | ⟨-, -, h⟩
  · cases order with
    | payment now o =>
      rw [PostOrder.checkAmount] at h
      split at h
      · cases h
        exact .inl rfl
      · cases h
    | handshake now freshId o => cases h
    | message o => cases h
    | selfStash now o => cases h
  · rcases bind_eq_error.mp h with h | ⟨key, -, h⟩
    · rw [SecretKey.parse] at h
      split at h
      · cases h
      · cases h
        exact .inr (.inl rfl)
    · rcases bind_eq_error.mp h with h | ⟨sender, -, h⟩
      · exact .inr (.inr ⟨_, h⟩)
      · rcases bind_eq_error.mp h with h | ⟨asked, -, h⟩
        · rw [Poster.asked] at h
          split at h
          · cases h
          · exact .inr (.inr ⟨_, map_eq_error.mp h⟩)
        · cases h

lemma ciphertext_eq_error {key : SecretKey}
    (h : (p.ciphertext key order).run.run s = (.error e, s')) :
    ∃ text recipient, (p.cipher text recipient).run.run s = (.error e, s') := by
  cases order with
  | handshake now freshId o => exact ⟨_, _, h⟩
  | payment now o => exact ⟨_, _, h⟩
  | message o => cases h
  | selfStash now o => exact ⟨_, _, h⟩

/-- The last step fails at the frame, for lack of funds, or with funds for the storage mass. -/
lemma dispatch_eq_error (h : p.dispatch order prepared ciphertext = .error e) :
    (∃ fault, e = .invalidPayload fault) ∨
      ∃ payload, (order.frame ciphertext).encode = .ok payload ∧
        (p.fund order prepared payload = .error e ∨
          p.config.enforceStorageMass = true ∧ ∃ mass, p.config.mass.standardLimit < mass ∧
            e = .storageMassExceeded mass p.config.mass.standardLimit) := by
  rw [dispatch_eq] at h
  rcases bind_eq_error.mp h with h | ⟨payload, hencode, h⟩
  · exact .inl (Frame.encode_eq_error h)
  · refine .inr ⟨payload, hencode, ?_⟩
    rcases bind_eq_error.mp h with h | ⟨⟨f, o⟩, hfund, h⟩
    · exact .inl h
    · exact .inr ((funded_of_fund hfund).finish_eq_error h)

/-- Every error of an order is one of these. -/
theorem Fails.of_post (h : (p.post order).run.run s = (.error e, s')) : p.Fails e := by
  rcases run_post_eq_error.mp h with ⟨h, -⟩ | ⟨prepared, -, h | ⟨ciphertext, -, h⟩⟩
  · rcases prepare_eq_error h with rfl | rfl | ⟨address, h⟩
    · exact .amount
    · exact .secret
    · exact .address h
  · obtain ⟨text, recipient, h⟩ := ciphertext_eq_error h
    exact .cipher h
  · rcases dispatch_eq_error h with ⟨fault, rfl⟩ | ⟨payload, -, h | ⟨henforce, mass, hlimit, rfl⟩⟩
    · exact .payload fault
    · rcases fund_eq_error h with rfl | ⟨required, available, rfl⟩
      · exact .overflow
      · exact .funds required available
    · exact .storageMass henforce hlimit

/-- With funds, every step that is left succeeds but the check of the storage mass, and the order
is posted unless that refuses it. If addresses are refused as such and the cipher fails as such,
no error is internal. -/
theorem post_completes (p : Poster (Stateful σ)) (order : PostOrder) :
    (∀ s s' prepared payload f o, p.HasFunds order s s' prepared payload f o →
      Posting.Completes p.config prepared.key f o prepared.sender payload ∧
        p.PostsOrRefuses order s s') ∧
    (p.resolver.Refuses → p.cipher.Reports → ∀ s e s',
      (p.post order).run.run s = (.error e, s') → e.isInternal = false) := by
  constructor
  · intro s s' prepared payload f o h
    exact ⟨(funded_of_fund h.fund).completes prepared.key, h.postsOrRefuses⟩
  · intro hresolver hcipher s e s' h
    cases Fails.of_post h with
    | address h =>
      rcases hresolver _ _ h with hfatal | ⟨text, fault, rfl⟩
      · cases e with
        | unfitPayload => rfl
        | _ => cases hfatal
      · rfl
    | cipher h =>
      obtain ⟨cause, rfl⟩ := hcipher _ _ _ _ _ h
      rfl
    | amount => rfl
    | secret => rfl
    | payload => rfl
    | overflow => rfl
    | funds => rfl
    | storageMass => rfl

/-- A cup of coffee is funded, and refused when it is for free. -/
theorem coffee_completes :
    (∃ prepared payload f o, Poster.plain.HasFunds .coffee () () prepared payload f o ∧
      Posting.Completes Poster.plain.config prepared.key f o prepared.sender payload ∧
      Poster.plain.PostsOrRefuses .coffee () ()) ∧
    (Poster.plain.post (PostOrder.coffee.withAmount 0)).run.run () = (.error .zeroPayment, ()) ∧
      Error.zeroPayment.isInternal = false := by
  constructor
  · obtain ⟨posted, h⟩ := exists_post_coffee
    obtain ⟨prepared, ciphertext, hprepare, hciphertext, hdispatch⟩ := run_post_eq_ok.mp h
    rw [dispatch_eq] at hdispatch
    obtain ⟨payload, hencode, hdispatch⟩ := bind_eq_ok.mp hdispatch
    obtain ⟨⟨f, o⟩, hfund, -⟩ := bind_eq_ok.mp hdispatch
    have hfunds : Poster.plain.HasFunds .coffee () () prepared payload f o :=
      ⟨hprepare, ⟨ciphertext, hciphertext, hencode⟩, hfund⟩
    exact ⟨prepared, payload, f, o, hfunds,
      (post_completes Poster.plain .coffee).1 () () prepared payload f o hfunds⟩
  · have hfree : (Poster.plain.post (PostOrder.coffee.withAmount 0)).run.run () =
        (.error .zeroPayment, ()) := rfl
    exact ⟨hfree, (post_completes Poster.plain (PostOrder.coffee.withAmount 0)).2
      (Network.refuses_resolver .mainnet) Poster.reports_plain _ _ _ hfree⟩

end Poster

end LedgerPost
