import LedgerPost.Proofs.Posting.Conservation
import LedgerPost.Proofs.Transaction.SignedReport

/-!
# Posted transactions under verification

A posted transaction that spends outputs of the sender is found to be valid by everybody who gets
a report of it.
-/

namespace LedgerPost

/-- What is posted with a key is valid when it is reported. -/
lemma Poster.Fulfils.verify_report {m : Type → Type} {p : Poster m} {order : PostOrder}
    {prepared : Prepared} {ciphertext : Bytes} {posted : Posted} {resolver : Resolver} {r : Report}
    (h : p.Fulfils order prepared ciphertext posted)
    (hparse : PublicKey.ofBytes? prepared.key.publicKey.bytes.toList = some prepared.key.publicKey)
    (hlocked : ∀ u ∈ posted.spent, u.LockedTo prepared.key)
    (hverifies : ∀ d ∈ posted.transaction.digests posted.spent, prepared.key.Verifies d)
    (hreports : r.Reports resolver posted.transaction posted.spent) :
    r.verify resolver = .ok .valid := by
  obtain ⟨payload, -, f, o, hfunded, hassembled⟩ := h.posts
  have hlength := Transaction.length_draft_inputs f.utxos (Posting.outputs f o prepared.sender)
    payload
  rw [hassembled.spent] at hlocked hverifies hreports
  rw [hassembled.transaction] at hverifies hreports
  rw [Transaction.digests_signed hlength] at hverifies
  refine Report.verify_signed hlength ?_ hparse hlocked hverifies hreports
  rw [← List.length_pos_iff, ← hlength, List.length_pos_iff]
  exact hfunded.nonempty

/-! ### The payment on the main network

Its digest and its signature are evaluated in steps, as the digests of its parts are.
-/

namespace PostOrder

/-- The payment before it is signed. -/
def coffeeDraft : Transaction :=
  .draft (Funding.spendable coffee.utxos)
    [⟨60000000, (Address.mk .mainnet .scriptHash (.zero 32)).script⟩,
      ⟨39997796, .payToPublicKey SecretKey.one.publicKey.bytes⟩]
    ((coffee.frame (Bytes.ofText (Note.compose "coffee" 60000000
      .firstNoon).toJson.compact)).encode.toOption.getD [])

/-- The digests of its parts. -/
def coffeeDigests : SharedDigests := .ofFirst
  ⟨Bytes.bigEndian 32 0x1692355c81fbc4eb0d28eca448ff8bed325bb355132245e27739ed9d07ce8ae9,
    Bytes.length_bigEndian ..⟩
  ⟨Bytes.bigEndian 32 0x7cf47df69c4cb8506f417a06687aa5875b841df09f097ab19d073b66e339cb7d,
    Bytes.length_bigEndian ..⟩

/-- The digest that is signed for its only input. -/
def coffeeDigest : Block 32 where
  toList := Bytes.bigEndian 32 0x8466754526bb264243212bca0c418cab362117ad0e5969b83927d9b0350c3690
  length_toList := Bytes.length_bigEndian ..

set_option maxRecDepth 100000 in
lemma sharedDigests_coffeeDraft : coffeeDraft.sharedDigests = coffeeDigests := by
  apply Transaction.sharedDigests_eq_ofFirst
  · rfl
  · decide +kernel
  · decide +kernel

set_option maxRecDepth 100000 in
lemma digests_coffeeDraft :
    coffeeDraft.digests (Funding.spendable coffee.utxos) = [coffeeDigest] := by
  simp only [Transaction.digests, Transaction.digestFor, sharedDigests_coffeeDraft]
  decide +kernel

set_option maxRecDepth 100000 in
lemma verifies_coffeeDigest : SecretKey.one.Verifies coffeeDigest := by
  have hnonce : Schnorr.nonceScalar .one coffeeDigest =
      0x8e7ab5c8d1e4c76fda0a7c924307e3f49fa5e3264ee6d0731c5870fd4c4856d2 := by
    decide +kernel
  rw [SecretKey.Verifies, Schnorr.sign, hnonce]
  decide +kernel

end PostOrder

set_option maxRecDepth 100000 in
/-- The payment on the main network spends what its key unlocks, and its signatures are valid. -/
lemma exists_post_coffee_verifies :
    ∃ posted, (Poster.plain.post .coffee).run.run () = (.ok posted, ()) ∧
      (∀ u ∈ posted.spent, u.LockedTo .one) ∧
      ∀ d ∈ posted.transaction.digests posted.spent, SecretKey.one.Verifies d := by
  have hcheck : ((Poster.plain.post .coffee).run.run ()).1.toOption.any (fun posted =>
      decide (posted.spent = Funding.spendable PostOrder.coffee.utxos) &&
        decide (posted.transaction.unsigned = PostOrder.coffeeDraft)) = true := by
    decide +kernel
  obtain ⟨posted, h⟩ := exists_post_coffee
  rw [h] at hcheck
  simp only [Except.toOption, Option.any_some, Bool.and_eq_true, decide_eq_true_eq] at hcheck
  obtain ⟨hspent, hunsigned⟩ := hcheck
  refine ⟨posted, h, ?_, ?_⟩
  · intro u hu
    rw [hspent] at hu
    obtain rfl := List.mem_singleton.mp hu
    rfl
  · have hdigests : posted.transaction.digests posted.spent = [PostOrder.coffeeDigest] := by
      rw [← Transaction.digests_unsigned, hunsigned, hspent, PostOrder.digests_coffeeDraft]
    rw [hdigests, List.forall_mem_singleton]
    exact PostOrder.verifies_coffeeDigest

lemma parse_coffee_secret : SecretKey.parse PostOrder.coffee.secret = .ok .one := rfl

lemma resolver_coffee_sender : Network.mainnet.resolver PostOrder.coffee.sender =
    .ok (.payToPublicKey SecretKey.one.publicKey.bytes) := by
  decide +kernel

/-- What is signed with a key is valid when it is reported, as long as the key is the one that
the spent outputs are locked to, and its public key and its signatures are valid. So is whatever
is posted with the key. -/
theorem signed_report_is_valid (key : SecretKey)
    (hparse : PublicKey.ofBytes? key.publicKey.bytes.toList = some key.publicKey) :
    (∀ (tx : Transaction) (spent : List UnspentOutput), tx.inputs ≠ [] →
        spent.length = tx.inputs.length → (∀ u ∈ spent, u.LockedTo key) →
        (∀ d ∈ tx.digests spent, key.Verifies d) →
        ∃ signed, tx.sign spent key = .ok signed ∧ ∀ (resolver : Resolver) (r : Report),
          r.Reports resolver signed spent → r.verify resolver = .ok .valid) ∧
      ∀ (σ : Type) (p : Poster (Stateful σ)) (order : PostOrder) (s s' : σ) (posted : Posted),
        (p.post order).run.run s = (.ok posted, s') → SecretKey.parse order.secret = .ok key →
        (∀ u ∈ posted.spent, u.LockedTo key) →
        (∀ d ∈ posted.transaction.digests posted.spent, key.Verifies d) →
        ∀ (resolver : Resolver) (r : Report),
          r.Reports resolver posted.transaction posted.spent → r.verify resolver = .ok .valid := by
  constructor
  · intro tx spent hne hlength hlocked hverifies
    refine ⟨tx.signed key spent, Transaction.sign_eq_ok hlength, ?_⟩
    intro resolver r hreports
    exact Report.verify_signed hlength hne hparse hlocked hverifies hreports
  · intro σ p order s s' posted h hkey hlocked hverifies resolver r hreports
    obtain ⟨prepared, ciphertext, hfulfils⟩ := Poster.Fulfils.of_post h
    have hsame := hfulfils.key
    rw [hkey, Except.ok.injEq] at hsame
    subst hsame
    exact hfulfils.verify_report hparse hlocked hverifies hreports

theorem coffee_report_is_valid :
    ∃ posted, (Poster.plain.post .coffee).run.run () = (.ok posted, ()) ∧
      (∃ signed, posted.transaction.sign posted.spent .one = .ok signed ∧
        (signed.report posted.spent fun _ => PostOrder.coffee.sender).verify
          Network.mainnet.resolver = .ok .valid) ∧
      (posted.transaction.report posted.spent fun _ => PostOrder.coffee.sender).verify
        Network.mainnet.resolver = .ok .valid := by
  have hparse : PublicKey.ofBytes? SecretKey.one.publicKey.bytes.toList =
      some SecretKey.one.publicKey := by
    decide +kernel
  obtain ⟨hsigned, hposted⟩ := signed_report_is_valid .one hparse
  obtain ⟨posted, h, hlocked, hverifies⟩ := exists_post_coffee_verifies
  have haddress : ∀ u ∈ posted.spent,
      Network.mainnet.resolver PostOrder.coffee.sender = .ok u.scriptPublicKey := by
    intro u hu
    rw [resolver_coffee_sender, show u.scriptPublicKey = _ from hlocked u hu]
  obtain ⟨prepared, ciphertext, hfulfils⟩ := Poster.Fulfils.of_post h
  obtain ⟨payload, -, hposts⟩ := hfulfils.posts
  have hlength := hposts.spendsFrom.length_eq.symm
  have hne : posted.transaction.inputs ≠ [] := by
    rw [← List.length_pos_iff, ← hlength]
    exact hposts.spendsFrom.length_pos
  refine ⟨posted, h, ?_, ?_⟩
  · obtain ⟨signed, hsign, hvalid⟩ := hsigned _ _ hne hlength hlocked hverifies
    refine ⟨signed, hsign, hvalid _ _ (Transaction.reports_report ?_ haddress)⟩
    rw [Transaction.sign_eq_ok hlength, Except.ok.injEq] at hsign
    rw [← hsign]
    simp [Transaction.signed, hlength]
  · exact hposted _ _ _ _ _ posted h parse_coffee_secret hlocked hverifies _ _
      (Transaction.reports_report hlength haddress)

end LedgerPost
