import LedgerPost.Proofs.Funding.Shortfall
import LedgerPost.Proofs.Posting.Completion
import LedgerPost.Proofs.Posting.Estimate

/-!
# Orders without funds

An order that lacks funds says what it requires. As many outputs that are worth as much fund it,
and unless it is a payment, nothing less does.
-/

namespace LedgerPost

open Funding

/-! ### Paying an output -/

namespace Posting

variable {c : Config} {sender : ScriptPublicKey} {payload : Bytes} {o : Output}
  {utxos : List UnspentOutput} {total required available needed : UInt64}

/-- The fee of an output and change to the sender is a tariff. -/
lemma tariff_fee : Tariff (Posting.fee c [o] sender payload) where
  congr _ _ h := fee_congr h rfl
  overflow _ _ _ := fee_eq_error
  le chosen full bare hfull hbare := by
    have hlength : (candidateOutputs [o] sender false).length + 1 < UInt64.size := by
      change 1 + 1 < _
      decide
    rw [UInt64.le_iff_toNat_le, toNat_fee hfull, toNat_fee hbare, candidateOutputs_true]
    exact Nat.le_of_add_right_le (Transaction.exactFee_add_le_concat _ _ _ _ hlength)

/-! ### Paying back -/

/-- All outputs are paid back if the fee leaves more than dust. -/
lemma fundBack_eq (htotal : total.toNat = worth utxos) (hpos : 0 < total)
    (hfee : Posting.fee c [⟨0, sender⟩] sender payload (spendable utxos) false = .ok needed)
    (hrequired : required.toNat = needed.toNat + c.dustThreshold.toNat + 1) :
    fundBack c sender payload utxos =
      if required ≤ total then .ok (⟨spendable utxos, total, needed, 0⟩, ⟨total - needed, sender⟩)
      else .error (.insufficientFunds required total) := by
  have hsize := required.toNat_lt_size
  rw [fundBack, all_of_pos htotal hpos]
  change (Posting.fee c [⟨0, sender⟩] sender payload (spendable utxos) false >>= _) = _
  rw [hfee]
  change (if _ then _ else _) = _
  by_cases hle : required ≤ total
  · have hle' : needed ≤ total := by
      rw [UInt64.le_iff_toNat_le] at hle ⊢
      omega
    have hdust : ¬ (if needed ≤ total then total - needed else 0) ≤ c.dustThreshold := by
      rw [rest_le_iff]
      rw [UInt64.le_iff_toNat_le] at hle
      omega
    rw [if_neg hdust, if_pos hle, if_pos hle']
    rfl
  · have hdust : (if needed ≤ total then total - needed else 0) ≤ c.dustThreshold := by
      rw [rest_le_iff]
      rw [UInt64.le_iff_toNat_le] at hle
      omega
    obtain ⟨sum, hsum⟩ := Amount.exists_ofNat_eq_ok
      (n := needed.toNat + c.dustThreshold.toNat) (by omega)
    have hadd : Amount.add needed c.dustThreshold = .ok sum := hsum
    have hadd' : Amount.add sum 1 = .ok required := by
      rw [Amount.add_eq_ok_iff, Amount.add_eq_ok_iff.mp hadd, UInt64.toNat_one, hrequired]
    rw [if_pos hdust, if_neg hle, hadd]
    change (Amount.add sum 1 >>= _) = _
    rw [hadd']
    rfl

/-- What is required to pay back is the fee, and one more than dust. -/
lemma priced_of_fundBack (hpos : 0 < worth utxos)
    (h : fundBack c sender payload utxos = .error (.insufficientFunds required available)) :
    available.toNat = worth utxos ∧ available < required ∧ ∃ needed,
      Posting.fee c [⟨0, sender⟩] sender payload (spendable utxos) false = .ok needed ∧
      required.toNat = needed.toNat + c.dustThreshold.toNat + 1 := by
  rcases fundBack_eq_error h with h | ⟨required', available', herror, h⟩
  · cases h
  · cases herror
    rcases h with h | ⟨chosen, needed, hall, hfee, hrequired, hlt⟩
    · cases all_eq_error_of_pos hpos h
    · obtain ⟨rfl, -, htotal⟩ := all_eq_ok hall
      exact ⟨htotal, hlt, needed, hfee, hrequired⟩

lemma strictShortfall_of_fundBack (hpos : 0 < worth utxos)
    (h : fundBack c sender payload utxos = .error (.insufficientFunds required available)) :
    StrictShortfall (fundBack c sender payload) utxos required available := by
  obtain ⟨havailable, hlt, needed, hfee, hrequired⟩ := priced_of_fundBack hpos h
  refine .of_forall havailable hlt fun utxos' total hlength htotal hpos' => ?_
  rw [fee_congr hlength.symm rfl] at hfee
  rw [fundBack_eq htotal hpos' hfee hrequired]
  constructor
  · intro hle
    rw [if_pos hle]
    exact ⟨_, rfl⟩
  · intro hlt'
    rw [if_neg (UInt64.not_le.mpr hlt')]

end Posting

/-! ### The same order with other outputs -/

namespace PostOrder

variable (order : PostOrder) (utxos : List UnspentOutput)

@[simp] lemma utxos_withUtxos : (order.withUtxos utxos).utxos = utxos := by
  cases order <;> rfl

@[simp] lemma isPayment_withUtxos : (order.withUtxos utxos).isPayment = order.isPayment := by
  cases order <;> rfl

@[simp] lemma frame_withUtxos : (order.withUtxos utxos).frame = order.frame := by
  cases order <;> rfl

end PostOrder

namespace Poster

@[simp] lemma prepare_withUtxos {m : Type → Type} (p : Poster m) (order : PostOrder)
    (utxos : List UnspentOutput) : p.prepare (order.withUtxos utxos) = p.prepare order := by
  cases order <;> rfl

@[simp] lemma ciphertext_withUtxos {σ : Type} (p : Poster (Stateful σ)) (key : SecretKey)
    (order : PostOrder) (utxos : List UnspentOutput) :
    p.ciphertext key (order.withUtxos utxos) = p.ciphertext key order := by
  cases order <;> rfl

variable {m : Type → Type} {p : Poster m} {order : PostOrder} {prepared : Prepared}
  {payload : Bytes} {required available : UInt64}

/-- A lack of funds is a shortfall of the way in which the order is funded. -/
lemma shortfall_of_fund (hpos : 0 < worth order.utxos)
    (h : p.fund order prepared payload = .error (.insufficientFunds required available)) :
    Shortfall (fun utxos => p.fund (order.withUtxos utxos) prepared payload) order.utxos
        required available ∧
      (order.isPayment = false →
        StrictShortfall (fun utxos => p.fund (order.withUtxos utxos) prepared payload) order.utxos
          required available) := by
  simp only [fund, PostOrder.utxos_withUtxos, PostOrder.isPayment_withUtxos] at h ⊢
  rcases prepared with ⟨key, sender, _ | o⟩
  · have hshort := Posting.strictShortfall_of_fundBack hpos h
    exact ⟨hshort.toShortfall, fun _ => hshort⟩
  · rcases bind_eq_error.mp h with h | ⟨f, -, h⟩
    · by_cases hpayment : order.isPayment = true
      · rw [if_pos hpayment] at h ⊢
        have hshort := Shortfall.of_forPayment Posting.tariff_fee hpos h
        refine ⟨hshort.map (·, o), fun hnot => ?_⟩
        rw [hpayment] at hnot
        cases hnot
      · rw [if_neg hpayment] at h ⊢
        have hshort := StrictShortfall.of_allForAmount Posting.tariff_fee hpos h
        exact ⟨hshort.toShortfall.map (·, o), fun _ => hshort.map (·, o)⟩
    · cases h

end Poster

/-! ### Orders that lack funds -/

/-- A cipher that gives the same ciphertext for the same call, whatever its state is. -/
def Cipher.Steady {σ : Type} (cipher : Cipher (Stateful σ)) : Prop :=
  ∀ text key s t ciphertext, ((cipher text key).run.run s).1 = .ok ciphertext →
    ((cipher text key).run.run t).1 = .ok ciphertext

namespace Poster

variable {σ : Type} {p : Poster (Stateful σ)} {order : PostOrder} {s s' : σ}
  {required available : UInt64}

/-- A steady cipher encrypts the message of an order as before. -/
lemma ciphertext_of_steady (hsteady : p.cipher.Steady) {key : SecretKey} {ciphertext : Bytes}
    (h : (p.ciphertext key order).run.run s = (.ok ciphertext, s')) (t : σ) :
    ∃ t', (p.ciphertext key order).run.run t = (.ok ciphertext, t') := by
  have hcall : ∀ text recipient, (p.cipher text recipient).run.run s = (.ok ciphertext, s') →
      ∃ t', (p.cipher text recipient).run.run t = (.ok ciphertext, t') := by
    intro text recipient h
    have hanswer := hsteady text recipient s t ciphertext (by rw [h])
    exact ⟨_, Prod.ext hanswer rfl⟩
  cases order with
  | handshake now freshId o => exact hcall _ _ h
  | payment now o => exact hcall _ _ h
  | message o =>
    cases h
    exact ⟨t, rfl⟩
  | selfStash now o => exact hcall _ _ h

/-- An order that lacks funds was prepared, encrypted and framed. -/
lemma fund_of_run_post
    (hresolver : ∀ address required available,
      p.resolver address ≠ .error (.insufficientFunds required available))
    (hcipher : p.cipher.Reports)
    (h : (p.post order).run.run s = (.error (.insufficientFunds required available), s')) :
    ∃ prepared ciphertext payload, p.prepare order = .ok prepared ∧
      (p.ciphertext prepared.key order).run.run s = (.ok ciphertext, s') ∧
      (order.frame ciphertext).encode = .ok payload ∧
      p.fund order prepared payload = .error (.insufficientFunds required available) := by
  rcases run_post_eq_error.mp h with
    ⟨h, -⟩ | ⟨prepared, hprepare, h | ⟨ciphertext, hciphertext, h⟩⟩
  · rcases prepare_eq_error h with h | h | ⟨address, h⟩
    · cases h
    · cases h
    · exact absurd h (hresolver address required available)
  · obtain ⟨text, recipient, h⟩ := ciphertext_eq_error h
    obtain ⟨cause, h⟩ := hcipher _ _ _ _ _ h
    cases h
  · rcases dispatch_eq_error h with ⟨fault, h⟩ | ⟨payload, hencode, h | ⟨-, mass, -, h⟩⟩
    · cases h
    · exact ⟨prepared, ciphertext, payload, hprepare, hciphertext, hencode, h⟩
    · cases h

/-- An order that lacks funds says how much it has, and requires more. It is funded out of as many
outputs that are worth what it requires, and unless it is a payment, it lacks funds again when they
are worth less. -/
theorem post_shortfall
    (hresolver : ∀ address required available,
      p.resolver address ≠ .error (.insufficientFunds required available))
    (hcipher : p.cipher.Reports) (hsteady : p.cipher.Steady)
    (hworth : ∃ u ∈ order.utxos, u.isCoinbase = false ∧ 0 < u.amount)
    (h : (p.post order).run.run s = (.error (.insufficientFunds required available), s')) :
    available.toNat = worth order.utxos ∧ available < required ∧
      ∀ utxos t, (spendable utxos).length = (spendable order.utxos).length →
        (required.toNat ≤ worth utxos → worth utxos < UInt64.size →
          ∃ t', p.PostsOrRefuses (order.withUtxos utxos) t t') ∧
        (order.isPayment = false → 0 < worth utxos → worth utxos < required.toNat →
          ∃ available' t', available'.toNat = worth utxos ∧
            (p.post (order.withUtxos utxos)).run.run t =
              (.error (.insufficientFunds required available'), t')) := by
  obtain ⟨prepared, ciphertext, payload, hprepare, hciphertext, hencode, hfund⟩ :=
    fund_of_run_post hresolver hcipher h
  obtain ⟨hshort, hstrict⟩ := shortfall_of_fund (worth_pos hworth) hfund
  refine ⟨hshort.available_eq, hshort.lt, ?_⟩
  intro utxos t hlength
  obtain ⟨t', hciphertext'⟩ := ciphertext_of_steady hsteady hciphertext t
  constructor
  · intro hle hsize
    obtain ⟨⟨f, o⟩, hfund'⟩ := hshort.enough utxos hlength hle hsize
    have hfunds : p.HasFunds (order.withUtxos utxos) t t' prepared payload f o := by
      refine ⟨?_, ⟨ciphertext, ?_, ?_⟩, hfund'⟩
      · rw [prepare_withUtxos, hprepare]
      · rw [ciphertext_withUtxos, hciphertext']
      · rw [PostOrder.frame_withUtxos, hencode]
    exact ⟨t', hfunds.postsOrRefuses⟩
  · intro hpayment hpos hlt
    obtain ⟨available', havailable'⟩ := exists_toNat_eq_worth (hlt.trans required.toNat_lt_size)
    rw [← havailable'] at hpos hlt
    have hfund' := (hstrict hpayment).needed utxos available' hlength havailable'
      (UInt64.lt_iff_toNat_lt.mpr hpos) (UInt64.lt_iff_toNat_lt.mpr hlt)
    refine ⟨available', t', havailable', ?_⟩
    rw [run_post_eq_error]
    refine .inr ⟨prepared, ?_, .inr ⟨ciphertext, ?_, ?_⟩⟩
    · rw [prepare_withUtxos, hprepare]
    · rw [ciphertext_withUtxos, hciphertext']
    · rw [dispatch_eq, PostOrder.frame_withUtxos, hencode]
      change (p.fund (order.withUtxos utxos) prepared payload >>= _) = _
      rw [show p.fund (order.withUtxos utxos) prepared payload = _ from hfund']
      rfl

end Poster

/-! ### Orders on the main network -/

/-- An output of the least secret key. -/
def UnspentOutput.ofOne (amount : UInt64) : UnspentOutput :=
  ⟨⟨⟨.zero 32⟩, 0⟩, amount, .payToPublicKey SecretKey.one.publicKey.bytes, false⟩

/-- Three outputs of the least secret key, and a block reward behind the first one. -/
def UnspentOutput.pocket (first second third : UInt64) : List UnspentOutput := [
  .ofOne first,
  { ofOne 900000000 with outpoint := ⟨⟨.zero 32⟩, 1⟩, isCoinbase := true },
  { ofOne second with outpoint := ⟨⟨.zero 32⟩, 2⟩ },
  { ofOne third with outpoint := ⟨⟨.zero 32⟩, 3⟩ }]

/-- A handshake out of one output, which is what the handshake pays. -/
def PostOrder.greeting : PostOrder := .handshake .firstNoon "conversation" {
  sender := (Address.ofPublicKey .mainnet SecretKey.one.publicKey).text
  recipient := (Address.mk .mainnet .scriptHash (.zero 32)).text
  nickname := "alice"
  conversationId := none
  isResponse := false
  secret := Bytes.bigEndian 32 1
  recipientKey := SecretKey.one.publicKey
  utxos := [.ofOne 20000000] }

/-- The payment on the main network out of three outputs. -/
def PostOrder.coffeeOutOf (first second third : UInt64) : PostOrder :=
  coffee.withUtxos (UnspentOutput.pocket first second third)

set_option maxRecDepth 100000 in
lemma run_post_greeting : (Poster.plain.post .greeting).run.run () =
    (.error (.insufficientFunds 20001845 20000000), ()) := by
  have hanswer : ((Poster.plain.post .greeting).run.run ()).1 =
      .error (.insufficientFunds 20001845 20000000) := by decide +kernel
  exact Prod.ext hanswer rfl

lemma largestFirst_pocket :
    largestFirst (UnspentOutput.pocket 5000000 30000000 20000000) = [
      { UnspentOutput.ofOne 30000000 with outpoint := ⟨⟨.zero 32⟩, 2⟩ },
      { UnspentOutput.ofOne 20000000 with outpoint := ⟨⟨.zero 32⟩, 3⟩ },
      .ofOne 5000000] := by
  simp [largestFirst, spendable, UnspentOutput.pocket, UnspentOutput.ofOne, List.mergeSort]

set_option maxRecDepth 100000 in
lemma run_post_coffeeOutOf :
    (Poster.plain.post (.coffeeOutOf 5000000 30000000 20000000)).run.run () =
      (.error (.insufficientFunds 60004023 55000000), ()) := by
  have hanswer : ((Poster.plain.post (.coffeeOutOf 5000000 30000000 20000000)).run.run ()).1 =
      .error (.insufficientFunds 60004023 55000000) := by
    simp only [PostOrder.coffeeOutOf, PostOrder.coffee, PostOrder.withUtxos, Poster.post,
      Poster.payment, Posting.payFromLargest, forPayment, largestFirst_pocket]
    decide +kernel
  exact Prod.ext hanswer rfl

lemma Poster.steady_plain : Poster.plain.cipher.Steady := fun _ _ _ _ _ h => h

/-- Without a limit on storage mass, what is not refused for it is posted. -/
lemma Poster.PostsOrRefuses.exists_post {order : PostOrder} {s : Unit}
    (h : Poster.plain.PostsOrRefuses order () s) :
    ∃ posted, (Poster.plain.post order).run.run () = (.ok posted, ()) := by
  rcases h with h | ⟨henforce, -⟩
  · exact h
  · cases henforce

/-- One less than a greeting requires does not pay for it. A payment out of three outputs is made
once they are worth what it requires, whether it takes all of them or the largest one. -/
theorem greeting_and_coffee_shortfall :
    ((Poster.plain.post .greeting).run.run () =
        (.error (.insufficientFunds 20001845 20000000), ()) ∧
      (∃ posted, (Poster.plain.post (PostOrder.greeting.withUtxos [.ofOne 20001845])).run.run () =
        (.ok posted, ())) ∧
      (Poster.plain.post (PostOrder.greeting.withUtxos [.ofOne 20001844])).run.run () =
        (.error (.insufficientFunds 20001845 20001844), ())) ∧
    (Poster.plain.post (.coffeeOutOf 5000000 30000000 20000000)).run.run () =
        (.error (.insufficientFunds 60004023 55000000), ()) ∧
      (∃ posted, (Poster.plain.post (.coffeeOutOf 10004023 30000000 20000000)).run.run () =
        (.ok posted, ())) ∧
      ∃ posted, (Poster.plain.post (.coffeeOutOf 1 60004021 1)).run.run () = (.ok posted, ()) := by
  have hresolver : ∀ address required available,
      Poster.plain.resolver address ≠ .error (.insufficientFunds required available) := by
    intro address required available h
    rcases Network.refuses_resolver .mainnet address _ h with hfatal | ⟨text, fault, herror⟩
    · cases hfatal
    · cases herror
  constructor
  · obtain ⟨-, -, hother⟩ := Poster.post_shortfall hresolver Poster.reports_plain
      Poster.steady_plain ⟨.ofOne 20000000, List.mem_singleton_self _, rfl, by decide⟩
      run_post_greeting
    refine ⟨run_post_greeting, ?_, ?_⟩
    · obtain ⟨t', h⟩ := (hother [.ofOne 20001845] () rfl).1 (Nat.le_refl _) (by decide)
      exact h.exists_post
    · obtain ⟨available', t', havailable', hrun⟩ :=
        (hother [.ofOne 20001844] () rfl).2 rfl (by decide) (by decide)
      have heq : available' = 20001844 := UInt64.toNat_inj.mp havailable'
      rw [hrun, heq]
  · obtain ⟨-, -, hother⟩ := Poster.post_shortfall hresolver Poster.reports_plain
      Poster.steady_plain ⟨.ofOne 5000000, List.mem_cons_self, rfl, by decide⟩
      run_post_coffeeOutOf
    refine ⟨run_post_coffeeOutOf, ?_, ?_⟩
    · obtain ⟨t', h⟩ := (hother (UnspentOutput.pocket 10004023 30000000 20000000) () rfl).1
        (Nat.le_refl _) (by decide)
      exact h.exists_post
    · obtain ⟨t', h⟩ := (hother (UnspentOutput.pocket 1 60004021 1) () rfl).1
        (Nat.le_refl _) (by decide)
      exact h.exists_post

end LedgerPost
