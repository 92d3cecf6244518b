import LedgerPost.Curve.Schnorr
import LedgerPost.Ledger.Address.Checksum
import LedgerPost.Ledger.Error
import LedgerPost.Ledger.Script
import LedgerPost.Text.Case

/-!
# Addresses

An address names a network and what can unlock an output. Its text is the tag of the network, a
colon, and the characters of the version byte, the payload and a checksum.
-/

namespace LedgerPost

/-- An address. The payload has the length that the version asks for. -/
structure Address where
  network : Network
  version : AddressVersion
  payload : Block version.size
  deriving DecidableEq

namespace Address

/-! ### Making addresses -/

/-- The address with the given payload. -/
def ofPayload (network : Network) (version : AddressVersion) (payload : Bytes) :
    Except Error Address :=
  match Block.ofList? version.size payload with
  | some block => .ok ⟨network, version, block⟩
  | none => .error (.invalidAddress (Hex.encode payload) (.wrongSize version))

/-- The address of a public key. -/
def ofPublicKey (network : Network) (key : PublicKey) : Address :=
  ⟨network, .publicKey, key.bytes⟩

/-! ### What an address stands for -/

/-- The public key of an address that stands for one. -/
def publicKey? (a : Address) : Option PublicKey :=
  match a.version with
  | .publicKey => PublicKey.ofBytes? a.payload.toList
  | _ => none

/-- The script that pays to an address. -/
def script : Address → ScriptPublicKey
  | ⟨_, .publicKey, key⟩ => .payToPublicKey key
  | ⟨_, .ecdsaKey, key⟩ => .payToEcdsaKey key
  | ⟨_, .scriptHash, hash⟩ => .payToScriptHash hash

/-! ### Text -/

/-- The text of an address. -/
def text (a : Address) : String :=
  let payload := Base32.ofBytes (a.version.byte :: a.payload.toList)
  let all := payload ++ Checksum.quintets a.network.addressTag payload
  String.ofList (a.network.addressTag.toList ++ ':' :: all.map Base32.symbol)

/-- The characters after the colon of the shortest address: 33 bytes and a checksum. -/
def minLength : Nat := 53 + 8

/-- The quintets of ASCII characters. -/
def quintets : Bytes → Except AddressFault (List Base32.Quintet)
  | [] => .ok []
  | b :: bs =>
    match Base32.quintet? b with
    | some q => (quintets bs).map (q :: ·)
    | none => .error (.badCharacter b)

/-- The version byte and payload after a tag. -/
def contents (tag : String) (body : Bytes) : Except AddressFault Bytes := do
  let qs ← quintets body
  let payload := qs.take (qs.length - 8)
  if qs.drop (qs.length - 8) = Checksum.quintets tag payload then
    return Base32.toBytes payload
  else throw .badChecksum

/-- The network, version and payload of a text in lowercase. -/
def parts (lowered : List Char) : Except AddressFault (Network × AddressVersion × Bytes) := do
  let tag := String.ofList (lowered.takeWhile (· ≠ ':'))
  match lowered.dropWhile (· ≠ ':') with
  | [] => throw .noSeparator
  | _ :: rest =>
    let body := Bytes.ofText (String.ofList rest)
    if body.length < minLength then throw .tooShort
    let some network := Network.ofAddressTag? tag | throw (.unknownTag tag)
    match ← contents tag body with
    | [] => throw .tooShort
    | b :: payload =>
      let some version := AddressVersion.ofByte? b | throw (.unknownVersion b)
      return (network, version, payload)

/-- Reads the text of an address, which may be in uppercase but not in mixed case. -/
def parse (s : String) : Except Error Address :=
  if Text.isMixedCase s then .error (.invalidAddress s .mixedCase)
  else
    match parts (Text.lower s).toList with
    | .error fault => .error (.invalidAddress s fault)
    | .ok (network, version, payload) =>
      match Block.ofList? version.size payload with
      | some block => .ok ⟨network, version, block⟩
      | none => .error (.unfitPayload s)

/-- Reads the text of an address of the given network. -/
def parseOn (network : Network) (s : String) : Except Error Address := do
  let a ← parse s
  if a.network = network then return a
  else throw (.invalidAddress s (.otherNetwork a.network network))

end Address

/-! ### Resolvers -/

/-- Finds the script that pays to an address, given as a text. -/
abbrev Resolver := String → Except Error ScriptPublicKey

/-- The resolver of the addresses of a network. -/
def Network.resolver (network : Network) : Resolver := fun s =>
  (Address.parseOn network s).map Address.script

end LedgerPost
