import LedgerPost.Ledger.Network

/-!
# Actions and settings

What a command line can ask for, and the values that it, or the environment, can give.
-/

namespace LedgerPost.CommandLine

/-! ### Actions -/

/-- What the program does. -/
inductive Action
  /-- Prints the identifier of a transaction. -/
  | txid
  /-- Reports the mass of a transaction and the fee that it needs. -/
  | mass
  /-- Reports the frame that a payload holds. -/
  | decodePayload
  /-- Checks the signatures of a reported transaction. -/
  | verify
  /-- Prints the address of a public key. -/
  | address
  /-- Prints the configuration. -/
  | config
  /-- Prints the version. -/
  | version
  deriving DecidableEq, Repr

namespace Action

/-- All actions. -/
def all : List Action := [txid, mass, decodePayload, verify, address, config, version]

/-- The word that asks for an action. -/
def name : Action → String
  | txid => "txid"
  | mass => "mass"
  | decodePayload => "decode-payload"
  | verify => "verify"
  | address => "address"
  | config => "config"
  | version => "version"

/-- The action that a word asks for. -/
def ofName? (s : String) : Option Action := all.find? fun a => a.name = s

@[simp] theorem ofName?_name (a : Action) : ofName? a.name = some a := by
  cases a <;> decide

end Action

/-! ### Values -/

/-- How diagnostics are written. No action writes any to its output. -/
inductive LogFormat
  | pretty
  | json
  deriving DecidableEq, Repr

/-- What a value is given for. -/
inductive Slot
  | network
  | config
  | logFormat
  | spent
  | operand
  deriving DecidableEq, Repr

/-- A value for its slot. -/
inductive Setting
  | network (n : Network)
  /-- The path of a configuration. -/
  | config (path : String)
  | logFormat (format : LogFormat)
  /-- The path of a list of consumed outputs. -/
  | spent (path : String)
  /-- What an action is applied to: a path or a text. -/
  | operand (text : String)
  deriving DecidableEq, Repr

/-- The slot of a value. -/
def Setting.slot : Setting → Slot
  | .network _ => .network
  | .config _ => .config
  | .logFormat _ => .logFormat
  | .spent _ => .spent
  | .operand _ => .operand

/-- How the operand of an action is read. -/
inductive Operand
  /-- There is none. -/
  | absent
  /-- The path of a document. When it is left out, the document is read from the input. -/
  | document
  /-- A text, which has to be given. -/
  | text
  deriving DecidableEq, Repr

/-- The operand of an action. -/
def Action.operand : Action → Operand
  | .txid => .document
  | .mass => .document
  | .verify => .document
  | .decodePayload => .text
  | .address => .text
  | .config => .absent
  | .version => .absent

/-- A path, which is not empty. -/
def path? (s : String) : Option String := if s.isEmpty then none else some s

/-- A log format by its name. -/
def LogFormat.ofName? (s : String) : Option LogFormat :=
  if s = "pretty" then some .pretty
  else if s = "json" then some .json
  else none

/-- The operand with the given text. -/
def Operand.read? (o : Operand) (s : String) : Option Setting :=
  match o with
  | .absent => none
  | .document => (path? s).map .operand
  | .text => some (.operand s)

/-- Reads the value of a slot, where the operand belongs to an action. -/
def Slot.read? (action : Option Action) (slot : Slot) (s : String) : Option Setting :=
  match slot with
  | .network => (Network.ofName? s).map .network
  | .config => (path? s).map .config
  | .logFormat => (LogFormat.ofName? s).map .logFormat
  | .spent => (path? s).map .spent
  | .operand => action.bind fun a => a.operand.read? s

/-! ### The environment -/

/-- The variable that gives a value when the command line does not. -/
def Slot.variableName? : Slot → Option String
  | .network => some "CIPH_NETWORK"
  | .config => some "CIPH_CONFIG"
  | .logFormat => some "CIPH_LOG_FORMAT"
  | _ => none

/-- The slots that the environment can give a value for. -/
def Slot.inherited : List Slot := [.network, .config, .logFormat]

/-- The texts that the environment gives for slots. -/
abbrev Environment := List (Slot × String)

/-- Looks up the variables of the environment. -/
def Environment.read {m : Type → Type} [Monad m] (lookup : String → m (Option String)) :
    m Environment :=
  Slot.inherited.filterMapM fun slot => do
    match slot.variableName? with
    | none => return none
    | some name => return (← lookup name).map fun s => (slot, s)

end LedgerPost.CommandLine
