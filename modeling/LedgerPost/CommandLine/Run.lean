import LedgerPost.CommandLine.Report
import LedgerPost.CommandLine.Request
import LedgerPost.Ledger.Config
import LedgerPost.Text.Blank
import LedgerPost.Transaction.Report

/-!
# Carrying out a request

A request reads its documents from a host, which may be any monad, and leaves an exit status and
what is printed. Nothing is printed unless the whole request succeeds.
-/

namespace LedgerPost.CommandLine

/-- Where texts are read from. There is none where reading fails. -/
structure Host (m : Type → Type) where
  file : String → m (Option String)
  input : m (Option String)

/-! ### Failure -/

/-- Why a request fails. -/
inductive Fault
  | unreadable (path : String)
  /-- The text at a path is not a document of the given kind. -/
  | badDocument (path kind : String)
  | badHex (e : HexError)
  | badKey
  | refused (e : Error)
  deriving DecidableEq

namespace Fault

/-- The wording of a fault. -/
def message : Fault → String
  | .unreadable path => s!"failed to read {path}"
  | .badDocument path kind => s!"{path} is not a valid {kind}"
  | .badHex e => s!"not valid hex: {e.message}"
  | .badKey => "not a 32-byte x-only public key"
  | .refused e => e.message

/-- The exit status of a fault. -/
def status : Fault → UInt32
  | .refused e => if e.isFatal then 101 else 1
  | _ => 1

end Fault

/-! ### Commands -/

variable {m : Type → Type} [Monad m]

/-- Whether the rest of a path adds nothing to it: empty parts and single dots do not count. -/
def isTrailing : List Char → Bool
  | [] => true
  | '/' :: '.' :: s => isTrailing s
  | '/' :: s => isTrailing s
  | _ => false

/-- Whether a path stands for the input. -/
def isInput (path : String) : Bool :=
  inputPath.toList.isPrefixOf path.toList && isTrailing (path.toList.drop inputPath.length)

/-- The text at a path. -/
def Host.text (host : Host m) (path : String) : ExceptT Fault m String := do
  match ← host.file path with
  | some s => return s
  | none => throw (.unreadable path)

/-- The text at a path or of the input. -/
def Host.textOrInput (host : Host m) (path : String) : ExceptT Fault m String := do
  if isInput path then
    match ← host.input with
    | some s => return s
    | none => throw (.unreadable path)
  else host.text path

/-- The document at a path or of the input. -/
def Host.document {α : Type} (host : Host m) (kind : String) (reader : Json → Option α)
    (path : String) : ExceptT Fault m α := do
  match Json.read? reader (← host.textOrInput path) with
  | some v => return v
  | none => throw (.badDocument path kind)

/-- The result of a step of the library. -/
def orFault {α : Type} (r : Except Error α) : ExceptT Fault m α :=
  MonadExcept.ofExcept (r.mapError .refused)

/-- The bytes of a hexadecimal text, perhaps with blanks around it. -/
def hexBytes (s : String) : ExceptT Fault m Bytes :=
  MonadExcept.ofExcept ((Hex.decode (Text.trim s)).mapError .badHex)

/-- The configuration of a request. -/
def Request.configuration (r : Request) (host : Host m) : ExceptT Fault m Config := do
  match r.config with
  | none => return .standard r.network
  | some path => orFault (Config.parse (← host.text path))

/-- A text as a line. -/
def line (s : String) : String := s ++ "\n"

/-- The name of the program. -/
def programName : String := "ciph"

/-- The version of the program. -/
def programVersion : String := "0.1.0"

/-- What the version action prints. -/
def versionText : String :=
  line s!"{programName}          {programVersion}" ++ line s!"payload frame {Frame.commonTag}"
    ++ line "rustc         unknown"

/-- What a command prints. -/
def Command.output (host : Host m) (c : Config) : Command → ExceptT Fault m String
  | .txid input => do
    let tx ← host.document "transaction" Transaction.ofJson? input
    return line tx.id.text
  | .mass input spent => do
    let tx ← host.document "transaction" Transaction.ofJson? input
    let outputs ← spent.mapM
      (host.document "list of consumed outputs" (Json.list? SpentOutput.ofJson?))
    let report ← orFault (MassReport.make c.mass tx outputs)
    return line report.toJson.spread
  | .decodePayload payload => do
    return line (payloadReport (← hexBytes payload)).spread
  | .verify input => do
    let report ← host.document "reported transaction" Report.ofJson? input
    let outcome ← orFault (report.verify c.network.resolver)
    return line outcome.toJson.spread
  | .address key => do
    match PublicKey.ofBytes? (← hexBytes key) with
    | some key => return line (Address.ofPublicKey c.network key).text
    | none => throw .badKey
  | .config => return line c.toJson.spread
  | .version => return versionText

/-- What a request prints. -/
def Request.output (r : Request) (host : Host m) : ExceptT Fault m String := do
  r.command.output host (← r.configuration host)

/-! ### The program -/

/-- How the program ends, what it prints, and what it says about a failure. -/
structure Exit where
  status : UInt32
  output : String
  diagnostic : String
  deriving DecidableEq, Repr

/-- How the program is used. -/
def usageText : String :=
  line s!"usage: {programName} [options] <action> [operand]"
    ++ line ("actions: " ++ ", ".intercalate (Action.all.map Action.name))
    ++ line "options: --network, --config, --log-format, --verbose, --help, --version"

/-- The end of the program without a request. -/
def Stop.exit : Stop → Exit
  | .usage => ⟨2, "", usageText⟩
  | .help => ⟨0, usageText, ""⟩
  | .version none => ⟨0, line s!"{programName} {programVersion}", ""⟩
  | .version (some action) => ⟨0, line s!"{programName}-{action.name} {programVersion}", ""⟩

/-- Runs the program. -/
def run (host : Host m) (environment : Environment) (args : List String) : m Exit := do
  match Request.parse environment args with
  | .error stop => return stop.exit
  | .ok request =>
    match ← (request.output host).run with
    | .ok output => return ⟨0, output, ""⟩
    | .error fault => return ⟨fault.status, "", line s!"error: {fault.message}"⟩

end LedgerPost.CommandLine
