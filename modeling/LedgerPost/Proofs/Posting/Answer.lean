import LedgerPost.Proofs.Posting.Order

/-!
# Answers

Two runs are compared by what they answer, whatever state they leave behind. Of the steps of
posting only the cipher has a state, so what it answers is all that the answer depends on.
-/

namespace LedgerPost

/-- What steps answer that start in a state. -/
def Stateful.answer {σ α : Type} (x : Stateful σ α) (s : σ) : Except Error α := (x.run.run s).1

/-- A cipher answers alike in two states if each call has the same answer in both. Every cipher
does so in one state, and a cipher without a memory in any two. -/
def Cipher.AnswersAlike {σ : Type} (cipher : Cipher (Stateful σ)) (s t : σ) : Prop :=
  ∀ text key, (cipher text key).answer s = (cipher text key).answer t

namespace Poster

variable {σ : Type} {p q : Poster (Stateful σ)} {order order' : PostOrder} {s t : σ}

lemma answer_post (p : Poster (Stateful σ)) (order : PostOrder) (s : σ) :
    (p.post order).answer s = (do
      let prepared ← p.prepare order
      let ciphertext ← (p.ciphertext prepared.key order).answer s
      p.dispatch order prepared ciphertext) := by
  rw [post_eq, Stateful.answer, ExceptT.run_bind, StateT.run_bind, Stateful.run_ofExcept]
  cases p.prepare order with
  | error e => rfl
  | ok prepared =>
    change ((p.ciphertext prepared.key order >>= fun ciphertext =>
      MonadExcept.ofExcept (p.dispatch order prepared ciphertext)).run.run s).1 = _
    rw [ExceptT.run_bind, StateT.run_bind]
    change _ = ((p.ciphertext prepared.key order).answer s >>= _)
    rw [Stateful.answer]
    rcases (p.ciphertext prepared.key order).run.run s with ⟨e | ciphertext, s'⟩
    · rfl
    · exact congrArg Prod.fst (Stateful.run_ofExcept _ s')

lemma answer_ciphertext (h : p.cipher.AnswersAlike s t) (key : SecretKey) (order : PostOrder) :
    (p.ciphertext key order).answer s = (p.ciphertext key order).answer t := by
  cases order with
  | handshake now freshId o => exact h _ _
  | payment now o => exact h _ _
  | message o => rfl
  | selfStash now o => exact h _ _

lemma exists_posted_of_any {x : Except Error Posted} {test : Posted → Bool}
    (h : x.toOption.any test = true) : ∃ posted, x = .ok posted ∧ test posted = true := by
  cases x with
  | error e => cases h
  | ok posted => exact ⟨posted, rfl, h⟩

end Poster

end LedgerPost
