import LedgerPost.CommandLine.Request
import Mathlib.Tactic.Common

/-!
# Plain command lines

A command line that gives a configuration in front of an action and its documents behind it is read
as it stands, if no path looks like an option.
-/

namespace LedgerPost.CommandLine

/-- A path that an argument can be without looking like an option. -/
def IsPlainPath (path : String) : Prop := path ≠ "" ∧ path.toList.head? ≠ some '-'

instance : DecidablePred IsPlainPath := fun path =>
  inferInstanceAs (Decidable (path ≠ "" ∧ path.toList.head? ≠ some '-'))

variable {path config input spent : String}

lemma IsPlainPath.path? (h : IsPlainPath path) : path? path = some path := by
  have hempty : path.isEmpty = false := by simpa using h.1
  rw [CommandLine.path?, hempty, if_neg Bool.false_ne_true]

lemma IsPlainPath.ofText (h : IsPlainPath path) : Argument.ofText path = .word path := by
  have hdash : ∀ cs, path.toList ≠ '-' :: cs := by
    intro cs hcs
    rw [IsPlainPath, hcs] at h
    exact h.2 rfl
  rw [Argument.ofText]
  split
  case h_1 hcs => exact absurd hcs (hdash _)
  case h_2 hcs => exact absurd hcs (hdash _)
  case h_3 hcs => exact absurd hcs (hdash _)
  case h_4 => rfl

/-! ### Levels -/

namespace Level

/-- A level of which one value has been read that is not looked into yet. -/
def pendingIn (action : Option Action) (slot : Slot) (value : String) : Level :=
  ⟨action, [], some (slot, some value)⟩

/-- A value that is read is the only one of its level. -/
lemma settle_pendingIn {action : Option Action} {slot : Slot} {value : String} {v : Setting}
    (h : slot.read? action value = some v) :
    (pendingIn action slot value).settle = .ok ⟨action, [v], none⟩ := by
  rw [settle, pendingIn]
  simp [h, gives]

/-- The outer level reads its configuration first. -/
lemma outer_config (hconfig : IsPlainPath config) (rest : List String) :
    (start none).outer ("--config" :: config :: rest) =
      (pendingIn none .config config).outer rest := by
  have hoption : Argument.ofText "--config" = .long "config" none := by decide
  rw [outer, hoption]
  change ((⟨none, [], some (.config, none)⟩ : Level).outer (config :: rest)) = _
  rw [outer, hconfig.ofText]
  rfl

/-- The outer level ends at an action. -/
lemma outer_action {action : Action} {inner : Level} {rest : List String}
    (hconfig : IsPlainPath config) (hword : Argument.ofText action.name = .word action.name)
    (hinner : (start (some action)).inner rest = .ok inner) :
    (pendingIn none .config config).outer (action.name :: rest) =
      .ok (⟨none, [.config config], none⟩, action, inner) := by
  have hread : Slot.config.read? none config = some (.config config) := by
    rw [Slot.read?, hconfig.path?]
    rfl
  have hcomplete : (pendingIn none .config config).isAwaiting = false := rfl
  have hhelp : action.name ≠ "help" := by
    cases action <;> decide
  rw [outer, hword]
  dsimp only
  rw [hcomplete, if_neg Bool.false_ne_true, if_neg hhelp, Action.ofName?_name]
  dsimp only
  rw [hinner, settle_pendingIn hread]
  rfl

/-- The first word of the inner level is its operand. -/
lemma inner_operand {action : Action} (hinput : IsPlainPath input) (rest : List String) :
    (start (some action)).inner (input :: rest) =
      (pendingIn (some action) .operand input).inner rest := by
  rw [inner, hinput.ofText]
  rfl

lemma read?_operand {action : Action} (haction : action.operand = .document)
    (hinput : IsPlainPath input) :
    Slot.operand.read? (some action) input = some (.operand input) := by
  rw [Slot.read?, Option.bind_some, haction, Operand.read?, hinput.path?]
  rfl

lemma inner_txid (hinput : IsPlainPath input) :
    (start (some .txid)).inner [input] = .ok ⟨some .txid, [.operand input], none⟩ := by
  rw [inner_operand hinput, inner, settle_pendingIn (read?_operand rfl hinput)]

lemma inner_mass (hinput : IsPlainPath input) (hspent : IsPlainPath spent) :
    (start (some .mass)).inner [input, "--spent", spent] =
      .ok ⟨some .mass, [.spent spent, .operand input], none⟩ := by
  have hoption : Argument.ofText "--spent" = .long "spent" none := by decide
  have hlong : (pendingIn (some .mass) .operand input).long "spent" none =
      .ok ⟨some .mass, [.operand input], some (.spent, none)⟩ := by
    change (pendingIn (some .mass) .operand input).await .spent none = _
    rw [await, settle_pendingIn (read?_operand rfl hinput)]
    rfl
  have hread : Slot.spent.read? (some .mass) spent = some (.spent spent) := by
    rw [Slot.read?, hspent.path?]
    rfl
  rw [inner_operand hinput, inner, hoption]
  dsimp only
  rw [hlong]
  change ((⟨some .mass, [.operand input], some (.spent, none)⟩ : Level).inner [spent]) = _
  rw [inner, hspent.ofText]
  change ((⟨some .mass, [.operand input], some (.spent, some spent)⟩ : Level).inner []) = _
  rw [inner, settle]
  simp [hread, gives, Setting.slot]

end Level

/-! ### Requests -/

/-- A request for the identifier of a transaction. -/
theorem parse_txid (hconfig : IsPlainPath config) (hinput : IsPlainPath input) :
    Request.parse [] ["--config", config, "txid", input] =
      .ok ⟨.mainnet, some config, .txid input⟩ := by
  have houter : (Level.start none).outer ["--config", config, "txid", input] = _ :=
    (Level.outer_config hconfig ["txid", input]).trans
      (Level.outer_action hconfig (by decide) (Level.inner_txid hinput))
  rw [Request.parse, houter]
  rfl

/-- A request for the masses of a transaction, with the outputs that it consumes. -/
theorem parse_mass (hconfig : IsPlainPath config) (hinput : IsPlainPath input)
    (hspent : IsPlainPath spent) :
    Request.parse [] ["--config", config, "mass", input, "--spent", spent] =
      .ok ⟨.mainnet, some config, .mass input (some spent)⟩ := by
  have houter : (Level.start none).outer ["--config", config, "mass", input, "--spent", spent] =
      _ :=
    (Level.outer_config hconfig ["mass", input, "--spent", spent]).trans
      (Level.outer_action hconfig (by decide) (Level.inner_mass hinput hspent))
  rw [Request.parse, houter]
  rfl

end LedgerPost.CommandLine
