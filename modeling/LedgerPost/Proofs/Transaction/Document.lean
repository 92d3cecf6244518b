import LedgerPost.Proofs.Json.Lossless
import LedgerPost.Proofs.Ledger.Config
import LedgerPost.Transaction.Report

/-!
# The documents of the ledger

What is read from the document of a transaction, of its parts, of a report or of a configuration is
what was written.
-/

namespace LedgerPost

open Json

/-! ### Parts of a transaction -/

@[simp] lemma TransactionId.ofText_text (id : TransactionId) : ofText id.text = .ok id := by
  rw [ofText, text, Hex.decodeBlock_encode, Except.map, Block.reverse_reverse]

theorem TransactionId.faithful : Faithful toJson ofJson? where
  isSpelled id := isSpelled_ofText id.text
  read_write id := by
    rw [toJson, ofJson?, text?_ofText, Option.bind_some, ofText_text]
    rfl

theorem ScriptPublicKey.faithful : Faithful toJson ofJson? where
  isSpelled s := by simp [toJson]
  read_write s := by
    rw [toJson, ofJson?, fields?_ofFields]
    · simp
    · rfl
    · decide

theorem Outpoint.faithful : Faithful toJson ofJson? where
  isSpelled o := by simp [toJson, TransactionId.faithful.isSpelled]
  read_write o := by
    rw [toJson, ofJson?, fields?_ofFields]
    · simp [TransactionId.faithful.read_write]
    · rfl
    · decide

theorem SpentOutput.faithful : Faithful toJson ofJson? where
  isSpelled s := by simp [toJson, ScriptPublicKey.faithful.isSpelled]
  read_write s := by
    rw [toJson, ofJson?, fields?_ofFields]
    · simp [ScriptPublicKey.faithful.read_write]
    · rfl
    · decide

theorem UnspentOutput.faithful : Faithful toJson ofJson? where
  isSpelled u := by
    simp [toJson, Outpoint.faithful.isSpelled, ScriptPublicKey.faithful.isSpelled]
  read_write u := by
    rw [toJson, ofJson?, fields?_ofFields]
    · simp [Outpoint.faithful.read_write, ScriptPublicKey.faithful.read_write]
    · rfl
    · decide

theorem Input.faithful : Faithful toJson ofJson? where
  isSpelled i := by simp [toJson, Outpoint.faithful.isSpelled]
  read_write i := by
    rw [toJson, ofJson?, fields?_ofFields]
    · simp [Outpoint.faithful.read_write]
    · rfl
    · decide

theorem Output.faithful : Faithful toJson ofJson? where
  isSpelled o := by simp [toJson, ScriptPublicKey.faithful.isSpelled]
  read_write o := by
    rw [toJson, ofJson?, fields?_ofFields]
    · simp [ScriptPublicKey.faithful.read_write]
    · rfl
    · decide

/-! ### Transactions and reports -/

theorem Transaction.faithful : Faithful toJson ofJson? where
  isSpelled tx := by
    simp [toJson, Input.faithful.list.isSpelled, Output.faithful.list.isSpelled]
  read_write tx := by
    rw [toJson, ofJson?, fields?_ofFields]
    · simp [Input.faithful.list.read_write, Output.faithful.list.read_write]
    · rfl
    · decide

lemma faithful_address : Faithful (ofOption ofText) (option? text?) :=
  faithful_text.option fun _ h => by cases h

lemma faithful_amount :
    Faithful (ofOption fun a : UInt64 => ofNat a.toNat) (option? word64?) :=
  faithful_word64.option fun _ h => by cases h

theorem ReportedInput.faithful : Faithful toJson ofJson? where
  isSpelled i := by
    simp [toJson, Outpoint.faithful.isSpelled, faithful_address.isSpelled,
      faithful_amount.isSpelled]
  read_write i := by
    rw [toJson, ofJson?, fields?_ofFields]
    · simp [Fields.optional, Outpoint.faithful.read_write, faithful_address.read_write,
        faithful_amount.read_write]
    · rfl
    · decide

theorem Report.faithful : Faithful toJson ofJson? where
  isSpelled r := by
    simp [toJson, ReportedInput.faithful.list.isSpelled, Output.faithful.list.isSpelled]
  read_write r := by
    rw [toJson, ofJson?, fields?_ofFields]
    · simp [ReportedInput.faithful.list.read_write, Output.faithful.list.read_write]
    · rfl
    · decide

/-! ### Configurations -/

theorem Network.faithful : Faithful toJson ofJson? where
  isSpelled n := isSpelled_ofText n.name
  read_write n := ofName?_name n

theorem MassParameters.faithful : Faithful toJson ofJson? where
  isSpelled p := by simp [toJson]
  read_write p := by
    rw [toJson, ofJson?, fields?_ofFields]
    · simp
    · rfl
    · decide

theorem Config.faithful : Faithful toJson ofJson? where
  isSpelled c := by simp [toJson, Network.faithful.isSpelled, MassParameters.faithful.isSpelled]
  read_write c := by
    rw [toJson, ofJson?, fields?_ofFields]
    · simp [Network.faithful.read_write, MassParameters.faithful.read_write]
    · rfl
    · decide

/-! ### All documents -/

/-- The documents of the ledger lose nothing. -/
theorem documents_lossless :
    Lossless Transaction.toJson Transaction.ofJson? ∧
      Lossless Input.toJson Input.ofJson? ∧
      Lossless Output.toJson Output.ofJson? ∧
      Lossless Outpoint.toJson Outpoint.ofJson? ∧
      Lossless ScriptPublicKey.toJson ScriptPublicKey.ofJson? ∧
      Lossless UnspentOutput.toJson UnspentOutput.ofJson? ∧
      Lossless SpentOutput.toJson SpentOutput.ofJson? ∧
      Lossless Report.toJson Report.ofJson? ∧
      Lossless MassParameters.toJson MassParameters.ofJson? ∧
      Lossless Config.toJson Config.ofJson? := by
  refine ⟨?_, ?_, ?_, ?_, ?_, ?_, ?_, ?_, ?_, ?_⟩
  · exact Transaction.faithful.lossless
  · exact Input.faithful.lossless
  · exact Output.faithful.lossless
  · exact Outpoint.faithful.lossless
  · exact ScriptPublicKey.faithful.lossless
  · exact UnspentOutput.faithful.lossless
  · exact SpentOutput.faithful.lossless
  · exact Report.faithful.lossless
  · exact MassParameters.faithful.lossless
  · exact Config.faithful.lossless

end LedgerPost
