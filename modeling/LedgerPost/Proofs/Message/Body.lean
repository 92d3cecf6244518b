import LedgerPost.Message.Body
import LedgerPost.Proofs.Json.Parser
import LedgerPost.Proofs.Time.Timestamp

/-!
# Reading a written body

Every body is read from its compact text as it was written, whatever texts it holds, with its moment
cut to milliseconds.
-/

namespace LedgerPost

open Json

@[simp] lemma Timestamp.isSpelled_toJson (t : Timestamp) : t.toJson.IsSpelled := by
  rw [toJson]
  exact isSpelled_ofText t.text

@[simp] lemma Timestamp.ofJson?_toJson (t : Timestamp) : ofJson? t.toJson = some t.cut := by
  rw [toJson, ofJson?, text?_ofText, Option.bind_some, parse?_text]

/-- A handshake is read as it was written. -/
theorem Handshake.read?_compact (h : Handshake) :
    read? ofJson? h.toJson.compact = some { h with timestamp := h.timestamp.cut } := by
  have hspelled : h.toJson.IsSpelled := by simp [toJson]
  rw [Json.read?_compact hspelled, toJson, ofJson?, fields?_ofFields]
  · simp
  · rfl
  · decide

/-- A backup is read as it was written. -/
theorem Backup.read?_compact (b : Backup) :
    read? ofJson? b.toJson.compact = some { b with timestamp := b.timestamp.cut } := by
  have hspelled : b.toJson.IsSpelled := by simp [toJson]
  rw [Json.read?_compact hspelled, toJson, ofJson?, fields?_ofFields]
  · simp
  · rfl
  · decide

/-- A note is read as it was written. -/
theorem Note.read?_compact (n : Note) :
    read? ofJson? n.toJson.compact = some { n with timestamp := n.timestamp.cut } := by
  have hspelled : n.toJson.IsSpelled := by simp [toJson]
  rw [Json.read?_compact hspelled, toJson, ofJson?, fields?_ofFields]
  · simp
  · rfl
  · decide

end LedgerPost
