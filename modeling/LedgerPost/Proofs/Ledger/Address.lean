import LedgerPost.Ledger.Address.Basic
import LedgerPost.Proofs.Except
import LedgerPost.Proofs.Ledger.Address.Base32
import Mathlib.Data.List.Basic

/-!
# Parsed addresses

Every text is parsed, refused as an invalid address, or fatal. It is fatal when everything about
it is right but the length of the payload, which cannot be too short for a key or a hash.
-/

namespace LedgerPost

namespace Address

variable {s : String} {tag : String} {body payload : Bytes} {qs : List Base32.Quintet}
  {lowered : List Char} {network : Network} {version : AddressVersion}

/-! ### Lengths -/

lemma length_quintets (h : quintets body = .ok qs) : qs.length = body.length := by
  induction body generalizing qs with
  | nil =>
    cases h
    rfl
  | cons b body ih =>
    rw [quintets] at h
    split at h
    · obtain ⟨rest, hrest, rfl⟩ := map_eq_ok.mp h
      simp [ih hrest]
    · cases h

lemma length_contents (h : contents tag body = .ok payload) :
    payload.length = 5 * (body.length - 8) / 8 := by
  obtain ⟨qs, hqs, h⟩ := bind_eq_ok.mp h
  dsimp only at h
  split at h
  · cases h
    rw [Base32.length_toBytes, List.length_take, length_quintets hqs]
    congr 2
    omega
  · cases h

/-- The texts that have parts. -/
lemma parts_eq_ok (h : parts lowered = .ok (network, version, payload)) :
    ∃ rest, lowered = network.addressTag.toList ++ ':' :: rest ∧
      minLength ≤ (Bytes.ofText (String.ofList rest)).length ∧
      contents network.addressTag (Bytes.ofText (String.ofList rest)) =
        .ok (version.byte :: payload) := by
  have hsplit := List.takeWhile_append_dropWhile (p := fun c => decide (c ≠ ':')) (l := lowered)
  rw [parts] at h
  dsimp only at h
  split at h
  · cases h
  · rename_i c rest hrest
    have hcolon : c = ':' := by
      have hhead := List.head?_dropWhile_not (fun c => decide (c ≠ ':')) lowered
      rw [hrest] at hhead
      simpa using hhead
    subst hcolon
    rw [hrest] at hsplit
    split at h
    · cases h
    · rename_i hlength
      split at h
      · rename_i found hnetwork
        have htag := List.find?_some hnetwork
        obtain ⟨bytes, hcontents, h⟩ := bind_eq_ok.mp h
        split at h
        · cases h
        · rename_i b payload
          split at h
          · rename_i found hversion
            have hbyte := List.find?_some hversion
            cases h
            rw [decide_eq_true_eq] at htag hbyte
            refine ⟨rest, ?_, Nat.le_of_not_lt hlength, ?_⟩
            · rw [htag, String.toList_ofList]
              exact hsplit.symm
            · rw [htag, hbyte]
              exact hcontents
          · cases h
      · cases h

/-- A payload is never shorter than a key or a hash. -/
lemma le_length_of_parts (h : parts lowered = .ok (network, version, payload)) :
    32 ≤ payload.length := by
  obtain ⟨rest, -, hlength, hcontents⟩ := parts_eq_ok h
  have hpayload := length_contents hcontents
  rw [List.length_cons] at hpayload
  rw [minLength] at hlength
  omega

/-! ### Fatal texts -/

/-- A text whose checksum holds, with a payload that does not fit the version. -/
def Unfit (s : String) : Prop :=
  Text.isMixedCase s = false ∧ ∃ network version payload,
    parts (Text.lower s).toList = .ok (network, version, payload) ∧ payload.length ≠ version.size

/-- A payload that does not fit is too long, unless it is a key or a hash given as an ECDSA key. -/
theorem Unfit.exists_length (h : Unfit s) : ∃ network version payload,
    parts (Text.lower s).toList = .ok (network, version, payload) ∧
      (version.size < payload.length ∨ version = .ecdsaKey ∧ payload.length = 32) := by
  obtain ⟨-, network, version, payload, hparts, hne⟩ := h
  refine ⟨network, version, payload, hparts, ?_⟩
  have hle := le_length_of_parts hparts
  cases version with
  | ecdsaKey =>
    simp only [AddressVersion.size, true_and] at hne ⊢
    omega
  | publicKey =>
    simp only [AddressVersion.size, reduceCtorEq, false_and, or_false] at hne ⊢
    omega
  | scriptHash =>
    simp only [AddressVersion.size, reduceCtorEq, false_and, or_false] at hne ⊢
    omega

/-- How a text is answered that stands for an address, or for something that an address has. -/
inductive Answer {α : Type} (s : String) : Except Error α → Prop
  | accepted (h : ¬ Unfit s) (a : α) : Answer s (.ok a)
  | refused (h : ¬ Unfit s) (fault : AddressFault) : Answer s (.error (.invalidAddress s fault))
  | fatal (h : Unfit s) : Answer s (.error (.unfitPayload s))

theorem Answer.of_parse (s : String) : Answer s (parse s) := by
  rw [parse]
  by_cases hcase : Text.isMixedCase s = true
  · have hfit : ¬ Unfit s := by
      rintro ⟨hlower, -⟩
      simp [hcase] at hlower
    rw [if_pos hcase]
    exact .refused hfit _
  · rw [if_neg hcase]
    rw [Bool.not_eq_true] at hcase
    cases hparts : parts (Text.lower s).toList with
    | error fault =>
      refine .refused ?_ fault
      rintro ⟨-, network, version, payload, hparts', -⟩
      simp [hparts] at hparts'
    | ok found =>
      obtain ⟨network, version, payload⟩ := found
      dsimp only
      by_cases hlength : payload.length = version.size
      · rw [Block.ofList?, dif_pos hlength]
        refine .accepted ?_ _
        rintro ⟨-, network', version', payload', hparts', hne⟩
        rw [hparts] at hparts'
        cases hparts'
        exact hne hlength
      · rw [Block.ofList?, dif_neg hlength]
        exact .fatal ⟨hcase, network, version, payload, hparts, hlength⟩

/-- A resolver refuses the addresses of other networks, and answers otherwise like the parser. -/
theorem Answer.of_resolver (network : Network) (s : String) : Answer s (network.resolver s) := by
  have hparse := Answer.of_parse s
  unfold Network.resolver parseOn
  generalize parse s = answer at hparse ⊢
  cases hparse with
  | accepted h a =>
    change Answer s (Except.map script (if a.network = network then .ok a else .error _))
    by_cases hnetwork : a.network = network
    · rw [if_pos hnetwork]
      exact .accepted h _
    · rw [if_neg hnetwork]
      exact .refused h _
  | refused h fault => exact .refused h fault
  | fatal h => exact .fatal h

end Address

end LedgerPost
