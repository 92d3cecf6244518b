import LedgerPost.Json.Parser
import LedgerPost.Json.Printer
import LedgerPost.Ledger.Error
import LedgerPost.Text.Case

/-!
# Configuration

What may differ between networks, or between a test and production. A configuration is valid when
no mass weight vanishes and a handshake pays more than dust.
-/

namespace LedgerPost

/-- The weights of mass, and what a fee adds to it. -/
structure MassParameters where
  perByte : UInt64
  perScriptByte : UInt64
  perSignature : UInt64
  /-- What a fee exceeds the mass by. -/
  feeBuffer : UInt64
  /-- The factor of storage mass. -/
  storageConstant : UInt64
  /-- The most mass that a transaction may have. -/
  standardLimit : UInt64
  deriving DecidableEq, Repr

/-- The parameters of the ledger. -/
def MassParameters.standard : MassParameters where
  perByte := 1
  perScriptByte := 10
  perSignature := 1000
  feeBuffer := 3
  storageConstant := 1000000000000
  standardLimit := 100000

/-- The parameters of an engine. -/
structure Config where
  network : Network
  /-- Outputs of this value or less are not made. -/
  dustThreshold : UInt64
  /-- What a handshake pays. -/
  handshakeAmount : UInt64
  mass : MassParameters
  /-- Whether a transaction above the standard limit is refused. -/
  enforceStorageMass : Bool
  deriving DecidableEq, Repr

/-! ### Documents -/

namespace Network

/-- The document of a network is its name. -/
def toJson (n : Network) : Json := .ofText n.name

/-- Reads the document of a network. -/
def ofJson? (v : Json) : Option Network := v.name?.bind ofName?

/-- The network with the given name, in any case. -/
def parse (s : String) : Except Error Network :=
  match ofName? (Text.lower s) with
  | some n => .ok n
  | none => .error (.invalidConfig (.unknownNetwork (Text.lower s)))

end Network

namespace MassParameters

/-- The document of mass parameters. -/
def toJson (p : MassParameters) : Json := .ofFields [
  ("massPerTxByte", .ofNat p.perByte.toNat),
  ("massPerScriptPubKeyByte", .ofNat p.perScriptByte.toNat),
  ("massPerSigOp", .ofNat p.perSignature.toNat),
  ("feeSafetyBuffer", .ofNat p.feeBuffer.toNat),
  ("storageMassParameter", .ofNat p.storageConstant.toNat),
  ("maxStandardMass", .ofNat p.standardLimit.toNat)]

/-- Reads the document of mass parameters. -/
def ofJson? (v : Json) : Option MassParameters := do
  let fields ← v.fields? ["massPerTxByte", "massPerScriptPubKeyByte", "massPerSigOp",
    "feeSafetyBuffer", "storageMassParameter", "maxStandardMass"]
  return {
    perByte := ← fields.required "massPerTxByte" Json.word64?
    perScriptByte := ← fields.required "massPerScriptPubKeyByte" Json.word64?
    perSignature := ← fields.required "massPerSigOp" Json.word64?
    feeBuffer := ← fields.required "feeSafetyBuffer" Json.word64?
    storageConstant := ← fields.required "storageMassParameter" Json.word64?
    standardLimit := ← fields.required "maxStandardMass" Json.word64? }

end MassParameters

namespace Config

/-- The parameters for a network. -/
def standard (network : Network) : Config where
  network := network
  dustThreshold := 10000
  handshakeAmount := 20000000
  mass := .standard
  enforceStorageMass := false

/-- The document of a configuration. -/
def toJson (c : Config) : Json := .ofFields [
  ("network", c.network.toJson),
  ("dustThreshold", .ofNat c.dustThreshold.toNat),
  ("handshakeAmount", .ofNat c.handshakeAmount.toNat),
  ("mass", c.mass.toJson),
  ("enforceStorageMass", .bool c.enforceStorageMass)]

/-- Reads the document of a configuration. -/
def ofJson? (v : Json) : Option Config := do
  let fields ← v.fields? ["network", "dustThreshold", "handshakeAmount", "mass",
    "enforceStorageMass"]
  return {
    network := ← fields.required "network" Network.ofJson?
    dustThreshold := ← fields.required "dustThreshold" Json.word64?
    handshakeAmount := ← fields.required "handshakeAmount" Json.word64?
    mass := ← fields.withDefault "mass" .standard MassParameters.ofJson?
    enforceStorageMass := ← fields.withDefault "enforceStorageMass" false Json.bool? }

/-! ### Validity -/

/-- The first fault of a configuration. -/
def fault? (c : Config) : Option ConfigFault :=
  if c.mass.perByte = 0 ∨ c.mass.perScriptByte = 0 ∨ c.mass.perSignature = 0 then some .zeroWeight
  else if c.mass.storageConstant = 0 then some .zeroStorageConstant
  else if c.handshakeAmount ≤ c.dustThreshold then
    some (.smallHandshake c.handshakeAmount c.dustThreshold)
  else none

/-- A configuration is valid when it has no fault. -/
def Valid (c : Config) : Prop := c.fault? = none

instance (c : Config) : Decidable c.Valid := inferInstanceAs (Decidable (c.fault? = none))

/-- Refuses a configuration with a fault. -/
def validate (c : Config) : Except Error Unit :=
  match c.fault? with
  | none => .ok ()
  | some fault => .error (.invalidConfig fault)

/-- Reads the text of a valid configuration. -/
def parse (s : String) : Except Error Config :=
  match Json.read? ofJson? s with
  | none => .error (.invalidConfig .unreadable)
  | some c => c.validate.map fun _ => c

end Config

end LedgerPost
