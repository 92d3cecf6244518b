/-!
# Networks and address versions
-/

namespace LedgerPost

/-- A ledger that transactions can be made for. -/
inductive Network
  | mainnet
  | testnet
  | devnet
  | simnet
  deriving DecidableEq, Repr

namespace Network

/-- All networks. -/
def all : List Network := [.mainnet, .testnet, .devnet, .simnet]

/-- The name of a network. -/
def name : Network → String
  | .mainnet => "mainnet"
  | .testnet => "testnet"
  | .devnet => "devnet"
  | .simnet => "simnet"

/-- The network with the given name. -/
def ofName? (s : String) : Option Network := all.find? fun n => n.name = s

/-- The text in front of the colon of an address. -/
def addressTag : Network → String
  | .mainnet => "kaspa"
  | .testnet => "kaspatest"
  | .devnet => "kaspadev"
  | .simnet => "kaspasim"

/-- The network with the given address tag. -/
def ofAddressTag? (s : String) : Option Network := all.find? fun n => n.addressTag = s

@[simp] theorem ofName?_name (n : Network) : ofName? n.name = some n := by
  cases n <;> decide

@[simp] theorem ofAddressTag?_addressTag (n : Network) : ofAddressTag? n.addressTag = some n := by
  cases n <;> decide

end Network

/-- What the payload of an address stands for. -/
inductive AddressVersion
  /-- A Schnorr public key. -/
  | publicKey
  /-- A compressed ECDSA public key. -/
  | ecdsaKey
  /-- The hash of a script. -/
  | scriptHash
  deriving DecidableEq, Repr

namespace AddressVersion

/-- The byte in front of the payload. -/
def byte : AddressVersion → UInt8
  | .publicKey => 0
  | .ecdsaKey => 1
  | .scriptHash => 8

/-- The version with the given byte. -/
def ofByte? (b : UInt8) : Option AddressVersion :=
  [publicKey, ecdsaKey, scriptHash].find? fun v => v.byte = b

/-- The length of the payload. -/
def size : AddressVersion → Nat
  | .publicKey => 32
  | .ecdsaKey => 33
  | .scriptHash => 32

/-- The name of a version. -/
def name : AddressVersion → String
  | .publicKey => "PubKey"
  | .ecdsaKey => "PubKeyECDSA"
  | .scriptHash => "ScriptHash"

/-- The version with the given name. -/
def ofName? (s : String) : Option AddressVersion :=
  [publicKey, ecdsaKey, scriptHash].find? fun v => v.name = s

@[simp] theorem ofByte?_byte (v : AddressVersion) : ofByte? v.byte = some v := by
  cases v <;> rfl

end AddressVersion

end LedgerPost
