import LedgerPost.Ledger.Address.Basic
import LedgerPost.Proofs.Bytes.Delimited

/-!
# Scripts and addresses

A script is recognized exactly if it is what is written for a key or a signature. The script of an
address opens with bytes that tell its version, so it tells everything but the network, and no
other version is taken for a key.
-/

namespace LedgerPost

/-! ### Recognized scripts -/

/-- A block is read in front of a last byte exactly if there is nothing else. -/
lemma Block.ofList?_take_eq_some_iff {n : Nat} {bs : Bytes} {last : UInt8} {b : Block n} :
    (if bs.drop n = [last] then ofList? n (bs.take n) else none) = some b ↔
      bs = b.toList ++ [last] := by
  constructor
  · intro h
    split at h
    · rename_i hlast
      rw [ofList?_eq_some_iff] at h
      rw [h, ← hlast, List.take_append_drop]
    · cases h
  · rintro rfl
    simp [b.length_toList]

namespace Script

variable {bs : Bytes}

lemma publicKey?_eq_some_iff {key : Block 32} :
    publicKey? bs = some key ↔ bs = (ScriptPublicKey.payToPublicKey key).script := by
  constructor
  · intro h
    rw [publicKey?.eq_def] at h
    split at h
    · rw [Block.ofList?_take_eq_some_iff] at h
      rw [h]
      rfl
    · cases h
  · rintro rfl
    exact publicKey?_payToPublicKey key

lemma signature?_eq_some_iff {signature : Block 64} :
    signature? bs = some signature ↔ bs = ofSignature signature := by
  constructor
  · intro h
    rw [signature?.eq_def] at h
    split at h
    · rw [Block.ofList?_take_eq_some_iff] at h
      rw [h]
      rfl
    · cases h
  · rintro rfl
    exact signature?_ofSignature signature

end Script

/-! ### Scripts of addresses -/

namespace AddressVersion

/-- What comes before the payload in a script. -/
def opening : AddressVersion → Bytes
  | .publicKey => [0x20]
  | .ecdsaKey => [0x21]
  | .scriptHash => [0xaa, 0x20]

/-- What comes behind the payload in a script. -/
def closing : AddressVersion → UInt8
  | .publicKey => 0xac
  | .ecdsaKey => 0xab
  | .scriptHash => 0x87

/-- The version is told by the first byte. -/
lemma selfDelimiting_opening : SelfDelimiting (fun _ => True) opening := by
  intro v w _ _ s t h
  cases v <;> cases w <;> simp_all [opening]

end AddressVersion

namespace Address

variable {a a' : Address}

lemma script_script (a : Address) :
    a.script.script = a.version.opening ++ (a.payload.toList ++ [a.version.closing]) := by
  obtain ⟨network, version, payload⟩ := a
  cases version <;> rfl

/-- The bytes of a script tell the version and the payload. -/
lemma eq_of_script_eq (hnetwork : a.network = a'.network)
    (h : a.script.script = a'.script.script) : a = a' := by
  obtain ⟨network, version, payload⟩ := a
  obtain ⟨network', version', payload'⟩ := a'
  rw [script_script, script_script] at h
  obtain ⟨hversion, hrest⟩ := AddressVersion.selfDelimiting_opening trivial trivial h
  dsimp only at hnetwork hversion hrest
  subst hnetwork hversion
  have hpayload := (Block.selfDelimiting_toList _ trivial trivial hrest).1
  rw [hpayload]

end Address

/-- A script is recognized exactly if it is what is written for a key or a signature. Addresses of
a network are equal when the bytes of their scripts are, and a key is found in the script of an
address exactly if the address stands for one, which is its payload. -/
theorem scripts_identify (bs : Bytes) (key : Block 32) (signature : Block 64) (a a' : Address) :
    (Script.publicKey? bs = some key ↔ bs = (ScriptPublicKey.payToPublicKey key).script) ∧
      (Script.signature? bs = some signature ↔ bs = Script.ofSignature signature) ∧
      (a = a' ↔ a.network = a'.network ∧ a.script.script = a'.script.script) ∧
      (Script.publicKey? a.script.script).map Block.toList =
        if a.version = .publicKey then some a.payload.toList else none := by
  refine ⟨Script.publicKey?_eq_some_iff, Script.signature?_eq_some_iff, ⟨?_, ?_⟩, ?_⟩
  · rintro rfl
    exact ⟨rfl, rfl⟩
  · rintro ⟨hnetwork, hscript⟩
    exact Address.eq_of_script_eq hnetwork hscript
  · obtain ⟨network, version, payload⟩ := a
    cases version with
    | publicKey => exact congrArg (·.map Block.toList) (Script.publicKey?_payToPublicKey payload)
    | ecdsaKey => rfl
    | scriptHash => rfl

/-- A byte of a key may be the one that ends the script. -/
example : Script.publicKey? (0x20 :: List.replicate 33 0xac) =
    some ⟨List.replicate 32 0xac, by decide⟩ := by decide

end LedgerPost
