import LedgerPost.CommandLine.Setting

/-!
# Reading a command line

A command line has two levels: what stands in front of the action, and what follows it. The
options that all actions have in common may stand on either, and the inner level counts where both
give a value; the environment counts where neither does. On one level no value is given twice.

The value of an option may be the next argument. Such a value is looked into only when the next
argument of its level is read or the level ends, so a request for the version may come first.
-/

namespace LedgerPost.CommandLine

/-! ### Arguments -/

/-- An argument by its shape. -/
inductive Argument
  /-- Two dashes alone, after which there are no options. -/
  | divider
  /-- An option by its long name, perhaps with a value. -/
  | long (name : String) (value : Option String)
  /-- Options by their letters, the last perhaps with a value. -/
  | letters (cs : List Char)
  | word (s : String)
  deriving DecidableEq, Repr

/-- The text after the first equals sign, if there is one, and what stands in front of it. -/
def splitEquals (cs : List Char) : String × Option String :=
  (String.ofList (cs.takeWhile (· ≠ '=')),
    match cs.dropWhile (· ≠ '=') with
    | [] => none
    | _ :: value => some (String.ofList value))

/-- The shape of an argument. A dash alone is a word. -/
def Argument.ofText (s : String) : Argument :=
  match s.toList with
  | ['-', '-'] => .divider
  | '-' :: '-' :: cs => .long (splitEquals cs).1 (splitEquals cs).2
  | '-' :: c :: cs => .letters (c :: cs)
  | _ => .word s

/-- An option. -/
inductive Switch
  /-- Gives a value. -/
  | valued (slot : Slot)
  /-- Asks for more diagnostics. -/
  | verbose
  | help
  | version
  deriving DecidableEq, Repr

/-- The option with the given long name, in front of an action or behind it. -/
def Switch.ofName? (action : Option Action) (name : String) : Option Switch :=
  if name = "network" then some (.valued .network)
  else if name = "config" then some (.valued .config)
  else if name = "log-format" then some (.valued .logFormat)
  else if name = "spent" ∧ action = some .mass then some (.valued .spent)
  else if name = "verbose" then some .verbose
  else if name = "help" then some .help
  else if name = "version" then some .version
  else none

/-- The option with the given letter, in front of an action or behind it. -/
def Switch.ofLetter? (action : Option Action) (letter : Char) : Option Switch :=
  if letter = 'n' then some (.valued .network)
  else if letter = 'c' then some (.valued .config)
  else if letter = 's' ∧ action = some .mass then some (.valued .spent)
  else if letter = 'v' then some .verbose
  else if letter = 'h' then some .help
  else if letter = 'V' then some .version
  else none

/-! ### Levels -/

/-- Why a command line is not a request for an action. -/
inductive Stop
  /-- It is not well-formed. -/
  | usage
  | help
  /-- It asks for the version, in front of an action or behind it. -/
  | version (action : Option Action)
  deriving DecidableEq, Repr

/-- What has been read of a level. -/
structure Level where
  action : Option Action
  /-- The values that have been looked into. -/
  settings : List Setting
  /-- A value that has not been looked into, or that has still to follow. -/
  pending : Option (Slot × Option String)

namespace Level

/-- A level of which nothing has been read. -/
def start (action : Option Action) : Level := ⟨action, [], none⟩

/-- Whether a slot has a value. -/
def gives (l : Level) (slot : Slot) : Bool := l.settings.any fun v => v.slot = slot

/-- Looks into the pending value. -/
def settle (l : Level) : Except Stop Level :=
  match l.pending with
  | none => .ok l
  | some (_, none) => .error .usage
  | some (slot, some s) =>
    match slot.read? l.action s with
    | none => .error .usage
    | some v => if l.gives slot then .error .usage else .ok ⟨l.action, v :: l.settings, none⟩

/-- Takes a value, or leaves it to the next argument. -/
def await (l : Level) (slot : Slot) (value : Option String) : Except Stop Level := do
  let l ← l.settle
  return { l with pending := some (slot, value) }

/-- Takes a value that stands in the same argument as its option. -/
def take (l : Level) (slot : Slot) (value : String) : Except Stop Level := do
  (← l.await slot (some value)).settle

/-- Takes an option without a value. -/
def flag (l : Level) (switch : Switch) : Except Stop Level := do
  let l ← l.settle
  match switch with
  | .valued _ => throw .usage
  | .verbose => return l
  | .help => throw .help
  | .version => throw (.version l.action)

/-- Takes an option by its long name. -/
def long (l : Level) (name : String) (value : Option String) : Except Stop Level :=
  match Switch.ofName? l.action name, value with
  | none, _ => .error .usage
  | some (.valued slot), none => l.await slot none
  | some (.valued slot), some s => l.take slot s
  | some switch, none => l.flag switch
  | some _, some _ => .error .usage

/-- The value that follows the letter of an option, if there is one. -/
def attached? : List Char → Option String
  | [] => none
  | '=' :: cs => some (String.ofList cs)
  | cs => some (String.ofList cs)

/-- Takes options by their letters. -/
def letters (l : Level) : List Char → Except Stop Level
  | [] => .ok l
  | c :: cs =>
    match Switch.ofLetter? l.action c with
    | none => .error .usage
    | some (.valued slot) =>
      match attached? cs with
      | none => l.await slot none
      | some s => l.take slot s
    | some switch => do (← l.flag switch).letters cs

/-- Takes a word: the value that has still to follow, or an operand. -/
def word (l : Level) (s : String) : Except Stop Level :=
  match l.pending with
  | some (slot, none) => .ok { l with pending := some (slot, some s) }
  | _ => l.await .operand (some s)

/-- Whether a value has still to follow. -/
def isAwaiting (l : Level) : Bool :=
  match l.pending with
  | some (_, none) => true
  | _ => false

/-- Takes the arguments after the divider. -/
def operands (l : Level) : List String → Except Stop Level
  | [] => .ok l
  | s :: rest => do (← l.await .operand (some s)).operands rest

/-- Takes the arguments of the inner level. -/
def inner (l : Level) : List String → Except Stop Level
  | [] => l.settle
  | arg :: rest =>
    match Argument.ofText arg with
    | .divider => do (← l.operands rest).settle
    | .long name value => do (← l.long name value).inner rest
    | .letters cs => do (← l.letters cs).inner rest
    | .word s => do (← l.word s).inner rest

/-- What a request for help stops with, by the words that follow it. -/
def helpOn : List String → Stop
  | [] => .help
  | [s] => if (Action.ofName? s).isSome ∨ s = "help" then .help else .usage
  | _ => .usage

/-- Takes the arguments of the outer level up to the action, and those of the inner one. -/
def outer (l : Level) : List String → Except Stop (Level × Action × Level)
  | [] => .error .usage
  | arg :: rest =>
    match Argument.ofText arg with
    | .divider => .error .usage
    | .long name value => do (← l.long name value).outer rest
    | .letters cs => do (← l.letters cs).outer rest
    | .word s =>
      if l.isAwaiting then do (← l.word s).outer rest
      else if s = "help" then .error (helpOn rest)
      else
        match Action.ofName? s with
        | none => .error .usage
        | some action => do
          let level ← (start (some action)).inner rest
          return (← l.settle, action, level)

/-- The values of the environment for the slots that a level gives no value for. -/
def inherit (l : Level) (environment : Environment) : Except Stop (List Setting) :=
  (environment.filter fun (slot, _) => !l.gives slot).mapM fun (slot, s) =>
    match slot.read? none s with
    | some v => .ok v
    | none => .error .usage

end Level

/-! ### Requests -/

/-- An action with its operands. -/
inductive Command
  | txid (input : String)
  | mass (input : String) (spent : Option String)
  | decodePayload (payload : String)
  | verify (input : String)
  | address (key : String)
  | config
  | version
  deriving DecidableEq, Repr

/-- What a command line asks for. -/
structure Request where
  network : Network
  /-- The path of a configuration, which then counts instead of the network. -/
  config : Option String
  command : Command
  deriving DecidableEq, Repr

/-- The path that stands for the input. -/
def inputPath : String := "-"

/-- An action with the operands that settings give. -/
def Command.ofSettings? (action : Action) (settings : List Setting) : Option Command :=
  let operand := settings.findSome? fun | .operand s => some s | _ => none
  let spent := settings.findSome? fun | .spent s => some s | _ => none
  match action with
  | .txid => some (.txid (operand.getD inputPath))
  | .mass => some (.mass (operand.getD inputPath) spent)
  | .decodePayload => operand.map .decodePayload
  | .verify => some (.verify (operand.getD inputPath))
  | .address => operand.map .address
  | .config => some .config
  | .version => some .version

/-- Reads a command line. -/
def Request.parse (environment : Environment) (args : List String) : Except Stop Request := do
  let (outer, action, inner) ← (Level.start none).outer args
  let settings := inner.settings ++ outer.settings
    ++ (← inner.inherit environment) ++ (← outer.inherit environment)
  let some command := Command.ofSettings? action settings | throw .usage
  return {
    network := (settings.findSome? fun | .network n => some n | _ => none).getD .mainnet
    config := settings.findSome? fun | .config path => some path | _ => none
    command := command }

end LedgerPost.CommandLine
