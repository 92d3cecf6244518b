import LedgerPost.CommandLine.Run
import LedgerPost.Proofs.Transaction.Document
import Mathlib.Tactic.Common

/-!
# Requests with documents

A request whose documents are found and are of the right kind is carried out on the values that they
are documents of. How their texts are laid out does not matter.
-/

namespace LedgerPost

/-- The text of a valid configuration is accepted. -/
lemma Config.parse_eq_ok {c : Config} {s : String} (hvalid : c.Valid)
    (htext : Json.parse? s = some c.toJson) : Config.parse s = .ok c := by
  have hvalidate : c.validate = .ok () := by
    rw [Config.validate, hvalid]
  rw [Config.parse, Json.read?, htext, Option.bind_some, Config.faithful.read_write]
  dsimp only
  rw [hvalidate]
  rfl

namespace CommandLine

variable {m : Type → Type} [Monad m]

/-- There is a file with a text of a value. -/
def Host.HasFile (host : Host m) (path : String) (v : Json) : Prop :=
  ∃ text, Json.parse? text = some v ∧ host.file path = pure (some text)

/-- There is a text of a value in a file, or as the input if the path stands for that. -/
def Host.Offers (host : Host m) (path : String) (v : Json) : Prop :=
  ∃ text, Json.parse? text = some v ∧
    (if isInput path then host.input else host.file path) = pure (some text)

lemma orFault_ok {α : Type} (a : α) : (orFault (.ok a) : ExceptT Fault m α) = pure a := rfl

variable [LawfulMonad m] {host : Host m} {path : String}

lemma Host.text_eq {text : String} (h : host.file path = pure (some text)) :
    host.text path = pure text := by
  apply ExceptT.ext
  simp [Host.text, h]

lemma Host.textOrInput_eq {text : String}
    (h : (if isInput path then host.input else host.file path) = pure (some text)) :
    host.textOrInput path = pure text := by
  rw [Host.textOrInput]
  by_cases hinput : isInput path = true
  · rw [if_pos hinput] at h ⊢
    apply ExceptT.ext
    simp [h]
  · rw [if_neg hinput] at h ⊢
    exact host.text_eq h

/-- The document of a value is read as the value. -/
lemma Host.document_eq {α : Type} {write : α → Json} {reader : Json → Option α} {x : α}
    (hfaithful : Json.Faithful write reader) (h : host.Offers path (write x)) (kind : String) :
    host.document kind reader path = pure x := by
  obtain ⟨text, htext, hhost⟩ := h
  have hread : Json.read? reader text = some x := by
    rw [Json.read?, htext, Option.bind_some, hfaithful.read_write]
  rw [Host.document, Host.textOrInput_eq hhost, pure_bind, hread]

variable {c : Config} {network : Network} {command : Command}

/-- A request counts on the configuration that it names. -/
lemma Request.configuration_eq (hvalid : c.Valid) (h : host.HasFile path c.toJson) :
    Request.configuration ⟨network, some path, command⟩ host = pure c := by
  obtain ⟨text, htext, hhost⟩ := h
  rw [Request.configuration]
  dsimp only
  rw [Host.text_eq hhost, pure_bind, Config.parse_eq_ok hvalid htext, orFault_ok]

/-- The program prints what the command does with the configuration. -/
lemma run_eq {environment : Environment} {args : List String} {output : String}
    (hvalid : c.Valid) (hconfig : host.HasFile path c.toJson)
    (hparse : Request.parse environment args = .ok ⟨network, some path, command⟩)
    (houtput : command.output host c = pure output) :
    run host environment args = pure ⟨0, output, ""⟩ := by
  have hrequest : Request.output ⟨network, some path, command⟩ host = pure output := by
    rw [Request.output, Request.configuration_eq hvalid hconfig, pure_bind]
    exact houtput
  rw [run, hparse]
  simp [hrequest]

/-! ### Commands -/

variable {tx : Transaction} {input spent : String}

lemma output_txid (htx : host.Offers input tx.toJson) :
    (Command.txid input).output host c = pure (line tx.id.text) := by
  rw [Command.output, Host.document_eq Transaction.faithful htx, pure_bind]

lemma output_mass {outputs : List SpentOutput} {report : MassReport}
    (htx : host.Offers input tx.toJson)
    (hspent : host.Offers spent (Json.ofList SpentOutput.toJson outputs))
    (hreport : MassReport.make c.mass tx (some outputs) = .ok report) :
    (Command.mass input (some spent)).output host c = pure (line report.toJson.spread) := by
  rw [Command.output, Host.document_eq Transaction.faithful htx, pure_bind, Option.mapM_some,
    Host.document_eq SpentOutput.faithful.list hspent, map_pure, pure_bind, hreport, orFault_ok,
    pure_bind]

end CommandLine

end LedgerPost
