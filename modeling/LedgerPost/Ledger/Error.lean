import LedgerPost.Ledger.Network

/-!
# Errors

Each cause for which an operation of the library is refused, and its wording.
-/

namespace LedgerPost

/-- What is wrong with an address. -/
inductive AddressFault
  | mixedCase
  | noSeparator
  | tooShort
  | unknownTag (tag : String)
  | badCharacter (byte : UInt8)
  | badChecksum
  | unknownVersion (byte : UInt8)
  /-- The payload given for a version has another length than the version asks for. -/
  | wrongSize (version : AddressVersion)
  | otherNetwork (actual expected : Network)
  | unresolved (reason : String)
  deriving DecidableEq, Repr

/-- The wording of a fault. -/
def AddressFault.message : AddressFault → String
  | .mixedCase => "mixed case"
  | .noSeparator => "missing prefix separator"
  | .tooShort => "too short"
  | .unknownTag tag => s!"The address has an invalid prefix {tag}"
  | .badCharacter byte =>
    s!"The address contains an invalid character {String.singleton (Char.ofNat byte.toNat)}"
  | .badChecksum => "The address checksum is invalid"
  | .unknownVersion byte => s!"The address has an invalid version {byte}"
  | .wrongSize version => s!"{version.name} payload must be {version.size} bytes"
  | .otherNetwork actual expected =>
    s!"address is for {actual.name}, engine is on {expected.name}"
  | .unresolved reason => reason

/-- The label of a frame. -/
inductive LabelRole
  | nickname
  | scope
  deriving DecidableEq, Repr

/-- The name of a label. -/
def LabelRole.name : LabelRole → String
  | .nickname => "alias"
  | .scope => "scope"

/-- Why a payload cannot be framed. -/
inductive PayloadFault
  | emptyCiphertext
  | emptyLabel (role : LabelRole)
  | separatorInLabel (role : LabelRole)
  deriving DecidableEq, Repr

/-- The wording of a fault. -/
def PayloadFault.message : PayloadFault → String
  | .emptyCiphertext => "empty ciphertext"
  | .emptyLabel role => s!"{role.name} is empty"
  | .separatorInLabel role => s!"{role.name} contains ':'"

/-- Why a configuration is refused. -/
inductive ConfigFault
  /-- The document is not that of a configuration. -/
  | unreadable
  | unknownNetwork (name : String)
  | zeroWeight
  | zeroStorageConstant
  | smallHandshake (amount dust : UInt64)
  deriving DecidableEq, Repr

/-- The wording of a fault. -/
def ConfigFault.message : ConfigFault → String
  | .unreadable => "unreadable document"
  | .unknownNetwork name => s!"unknown network {name}"
  | .zeroWeight => "mass weights must be non-zero"
  | .zeroStorageConstant => "storage mass parameter must be non-zero"
  | .smallHandshake amount dust => s!"handshake amount {amount} must exceed dust threshold {dust}"

/-- Why an operation is refused. -/
inductive Error
  | invalidAddress (address : String) (fault : AddressFault)
  | insufficientFunds (required available : UInt64)
  | amountOverflow
  | zeroPayment
  /-- The cipher failed. The cause is passed on, and not part of the wording. -/
  | encryption (cause : String)
  | invalidSecretKey
  | invalidPayload (fault : PayloadFault)
  | inputOutOfRange (index count : Nat)
  | spentCountMismatch (inputs spent : Nat)
  | storageMassExceeded (mass limit : UInt64)
  | invalidConfig (fault : ConfigFault)
  /-- The checksum of an address holds, but the payload does not fit the version. -/
  | unfitPayload (address : String)
  deriving DecidableEq, Repr

namespace Error

/-- The wording of an error. -/
def message : Error → String
  | .invalidAddress address fault => s!"invalid address {address}: {fault.message}"
  | .insufficientFunds required available =>
    s!"insufficient funds: required {required}, available {available}"
  | .amountOverflow => "amount overflow while summing unsigned values"
  | .zeroPayment => "payment amount must be greater than zero"
  | .encryption _ => "encryption failed"
  | .invalidSecretKey => "invalid private key"
  | .invalidPayload fault => s!"invalid payload: {fault.message}"
  | .inputOutOfRange index count =>
    s!"input index {index} out of range (transaction has {count} inputs)"
  | .spentCountMismatch inputs spent => s!"expected {inputs} spent outputs, got {spent}"
  | .storageMassExceeded mass limit => s!"storage mass {mass} exceeds limit {limit}"
  | .invalidConfig fault => s!"invalid configuration: {fault.message}"
  | .unfitPayload address => s!"invalid address {address}: the payload does not fit the version"

/-- Whether an error ends the whole run, verification included, and is not an answer to it. -/
def isFatal : Error → Bool
  | .unfitPayload _ => true
  | _ => false

end Error

end LedgerPost
