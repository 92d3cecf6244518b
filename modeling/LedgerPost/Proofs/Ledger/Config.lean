import LedgerPost.Ledger.Config
import Mathlib.Tactic.Common

/-!
# Valid configurations

Validity is decided by the first fault, and means that there is none of them.
-/

namespace LedgerPost.Config

variable {c : Config}

theorem valid_iff :
    c.Valid ↔ c.mass.perByte ≠ 0 ∧ c.mass.perScriptByte ≠ 0 ∧ c.mass.perSignature ≠ 0 ∧
      c.mass.storageConstant ≠ 0 ∧ c.dustThreshold < c.handshakeAmount := by
  simp only [Valid, fault?]
  split
  · rename_i hweight
    simp only [reduceCtorEq, false_iff]
    rintro ⟨hbyte, hscript, hsignature, -⟩
    rcases hweight with h | h | h
    · exact hbyte h
    · exact hscript h
    · exact hsignature h
  · rename_i hweight
    simp only [not_or] at hweight
    obtain ⟨hbyte, hscript, hsignature⟩ := hweight
    split
    · rename_i hconstant
      simp [hconstant]
    · rename_i hconstant
      split
      · rename_i hhandshake
        rw [← UInt64.not_lt] at hhandshake
        simp [hhandshake]
      · rename_i hhandshake
        rw [UInt64.not_le] at hhandshake
        exact ⟨fun _ => ⟨hbyte, hscript, hsignature, hconstant, hhandshake⟩, fun _ => rfl⟩

/-- A handshake pays more than dust. -/
lemma Valid.dust_lt (h : c.Valid) : c.dustThreshold < c.handshakeAmount :=
  (valid_iff.mp h).2.2.2.2

end LedgerPost.Config
