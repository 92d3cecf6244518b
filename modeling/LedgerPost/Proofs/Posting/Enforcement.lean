import LedgerPost.Proofs.Posting.Answer
import LedgerPost.Proofs.Posting.Completion

/-!
# The limit on storage mass

Whether the limit is enforced makes a difference to nothing but a check, and whatever is funded
would be posted without that check. So to enforce it is to filter what is posted.
-/

namespace LedgerPost

/-- The same configuration, which enforces the limit on storage mass or does not. -/
def Config.enforcing (c : Config) (enforce : Bool) : Config :=
  { c with enforceStorageMass := enforce }

/-- The same poster, which enforces the limit on storage mass or does not. -/
def Poster.enforcing {m : Type → Type} (p : Poster m) (enforce : Bool) : Poster m where
  config := p.config.enforcing enforce
  valid := p.valid
  cipher := p.cipher
  resolver := p.resolver

/-- Refuses a posted transaction whose storage mass is above a limit. -/
def Posted.within (limit : UInt64) (posted : Posted) : Except Error Posted :=
  if posted.storageMass ≤ limit then .ok posted
  else .error (.storageMassExceeded posted.storageMass limit)

namespace Posting

variable {c : Config} {key : SecretKey} {f : Funding} {o : Output} {sender : ScriptPublicKey}
  {payload : Bytes} {utxos : List UnspentOutput} {asked : Option Output} {posted posted' : Posted}

/-- A funding makes up all that is posted. -/
lemma Assembled.unique (h : Assembled c key f o sender payload posted)
    (h' : Assembled c key f o sender payload posted') : posted = posted' := by
  have htransaction := h.transaction.trans h'.transaction.symm
  have hmass := h.computeMass
  rw [htransaction, h'.computeMass, Except.ok.injEq] at hmass
  have hspent := h.spent.trans h'.spent.symm
  have hid := h.transactionId
  have hstorage := h.storageMass
  rw [htransaction, ← h'.transactionId] at hid
  rw [htransaction, hspent, ← h'.storageMass] at hstorage
  cases posted
  cases posted'
  simp only [Posted.mk.injEq] at *
  exact ⟨htransaction, hid, h.fee.trans h'.fee.symm, hmass.symm, hstorage, hspent⟩

lemma Funded.enforcing (h : Funded c sender payload utxos asked f o) (enforce : Bool) :
    Funded (c.enforcing enforce) sender payload utxos asked f o := by
  cases h with
  | pays hsettles => exact .pays hsettles
  | paysBack hutxos hne htotal hfee hchange hsum hdust =>
    exact .paysBack hutxos hne htotal hfee hchange hsum hdust

lemma Assembled.of_enforcing {enforce : Bool}
    (h : Assembled (c.enforcing enforce) key f o sender payload posted) :
    Assembled c key f o sender payload posted :=
  ⟨h.transaction, h.transactionId, h.fee, h.computeMass, h.storageMass, h.spent⟩

/-- Whatever is funded is finished without the limit, so with the limit it is filtered. -/
lemma Funded.finish_enforcing (h : Funded c sender payload utxos asked f o) (key : SecretKey) :
    finish (c.enforcing true) key f [o] sender payload =
      finish (c.enforcing false) key f [o] sender payload >>=
        Posted.within c.mass.standardLimit := by
  obtain ⟨posted, hlenient, hfree⟩ := (h.enforcing false).finish_eq key
  obtain ⟨posted', hstrict, hchecked⟩ := (h.enforcing true).finish_eq key
  obtain rfl := hlenient.of_enforcing.unique hstrict.of_enforcing
  have hposted : finish (c.enforcing false) key f [o] sender payload = .ok posted := by
    rw [hfree, if_neg]
    rintro ⟨-, henforce⟩
    cases henforce
  rw [hposted, hchecked]
  change _ = posted.within _
  rw [Posted.within]
  by_cases hlimit : posted.storageMass ≤ c.mass.standardLimit
  · rw [if_pos hlimit, if_neg]
    rintro ⟨habove, -⟩
    exact UInt64.not_lt.mpr hlimit habove
  · rw [if_neg hlimit, if_pos ⟨UInt64.not_le.mp hlimit, rfl⟩]
    rfl

end Posting

namespace Poster

section

variable {m : Type → Type} (p : Poster m) (enforce : Bool) (order : PostOrder)
  (prepared : Prepared) (payload ciphertext : Bytes)

@[simp] lemma prepare_enforcing : (p.enforcing enforce).prepare order = p.prepare order := rfl

@[simp] lemma fund_enforcing :
    (p.enforcing enforce).fund order prepared payload = p.fund order prepared payload := rfl

lemma dispatch_enforcing : (p.enforcing true).dispatch order prepared ciphertext =
    (p.enforcing false).dispatch order prepared ciphertext >>=
      Posted.within p.config.mass.standardLimit := by
  rw [dispatch_eq, dispatch_eq, bind_assoc]
  refine bind_congr fun payload => ?_
  rw [bind_assoc, fund_enforcing, fund_enforcing]
  cases hfund : p.fund order prepared payload with
  | error e => rfl
  | ok funded => exact (funded_of_fund hfund).finish_enforcing prepared.key

end

variable {σ : Type} {s t : σ}

@[simp] lemma ciphertext_enforcing (p : Poster (Stateful σ)) (enforce : Bool) (key : SecretKey)
    (order : PostOrder) : (p.enforcing enforce).ciphertext key order = p.ciphertext key order := by
  cases order <;> rfl

/-- To enforce the limit is to refuse what is posted above it, and nothing else. -/
lemma answer_post_enforcing {p : Poster (Stateful σ)} (hcipher : p.cipher.AnswersAlike s t)
    (order : PostOrder) : ((p.enforcing true).post order).answer t =
      ((p.enforcing false).post order).answer s >>= Posted.within p.config.mass.standardLimit := by
  rw [answer_post, answer_post, bind_assoc, prepare_enforcing, prepare_enforcing]
  refine bind_congr fun prepared => ?_
  rw [bind_assoc, ciphertext_enforcing, ciphertext_enforcing, answer_ciphertext hcipher]
  exact bind_congr fun ciphertext => dispatch_enforcing p order prepared ciphertext

/-- Two posters of which one enforces the limit on storage mass and the other does not, and whose
cipher answers alike, differ in this alone: what is posted above the limit is refused. Errors and
what is posted within the limit are the same, and nothing is posted above it. -/
theorem post_enforcing (p : Poster (Stateful σ)) (order : PostOrder) (s t : σ)
    (hcipher : p.cipher.AnswersAlike s t) :
    (∀ e, ((p.enforcing false).post order).answer s = .error e →
      ((p.enforcing true).post order).answer t = .error e) ∧
    (∀ posted, ((p.enforcing false).post order).answer s = .ok posted →
      ((p.enforcing true).post order).answer t =
        if posted.storageMass ≤ p.config.mass.standardLimit then .ok posted
        else .error (.storageMassExceeded posted.storageMass p.config.mass.standardLimit)) ∧
    ∀ posted, ((p.enforcing true).post order).answer t = .ok posted →
      posted.storageMass ≤ p.config.mass.standardLimit ∧
        ((p.enforcing false).post order).answer s = .ok posted := by
  have hfilter := answer_post_enforcing hcipher order
  refine ⟨?_, ?_, ?_⟩
  · intro e h
    rw [hfilter, h]
    rfl
  · intro posted h
    rw [hfilter, h]
    rfl
  · intro posted h
    rw [hfilter] at h
    obtain ⟨posted', hposted, h⟩ := bind_eq_ok.mp h
    rw [Posted.within] at h
    split at h
    · rename_i hlimit
      cases h
      exact ⟨hlimit, hposted⟩
    · cases h

/-- A cup of coffee is posted by both, and a crumb only without the limit. -/
theorem coffee_and_crumb_enforcing :
    (∃ posted, ((plain.enforcing false).post .coffee).answer () = .ok posted ∧
      ((plain.enforcing true).post .coffee).answer () = .ok posted) ∧
    ∃ posted, ((plain.enforcing false).post (PostOrder.coffee.withAmount 1)).answer () =
        .ok posted ∧
      ((plain.enforcing true).post (PostOrder.coffee.withAmount 1)).answer () =
        .error (.storageMassExceeded posted.storageMass plain.config.mass.standardLimit) := by
  constructor
  · have hcheck : (((plain.enforcing false).post .coffee).answer ()).toOption.any
        (fun posted => posted.storageMass ≤ plain.config.mass.standardLimit) = true := by
      decide +kernel
    obtain ⟨posted, hposted, hlimit⟩ := exists_posted_of_any hcheck
    obtain ⟨-, hok, -⟩ := post_enforcing plain .coffee () () fun _ _ => rfl
    refine ⟨posted, hposted, ?_⟩
    rw [hok posted hposted, if_pos (of_decide_eq_true hlimit)]
  · have hcheck : (((plain.enforcing false).post (PostOrder.coffee.withAmount 1)).answer
        ()).toOption.any (fun posted => !(posted.storageMass ≤ plain.config.mass.standardLimit)) =
        true := by
      decide +kernel
    obtain ⟨posted, hposted, hlimit⟩ := exists_posted_of_any hcheck
    obtain ⟨-, hok, -⟩ := post_enforcing plain (PostOrder.coffee.withAmount 1) () () fun _ _ => rfl
    rw [Bool.not_eq_true', decide_eq_false_iff_not] at hlimit
    refine ⟨posted, hposted, ?_⟩
    rw [hok posted hposted, if_neg hlimit]

end Poster

end LedgerPost
