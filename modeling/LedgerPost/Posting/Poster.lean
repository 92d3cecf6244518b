import LedgerPost.Ledger.Address.Basic
import LedgerPost.Message.Body
import LedgerPost.Posting.Posted
import LedgerPost.Transaction.Report

/-!
# Posting messages

Four kinds of message are posted. A handshake pays a fixed amount to its recipient and a payment
any amount; a message in a conversation and the backup of a handshake pay the sender back.

The cipher belongs to the caller and runs in the caller's monad. It is called at most once, with
the compact text of a body, and its result is not looked into.
-/

namespace LedgerPost

/-- Encrypts a byte string for a recipient. -/
abbrev Cipher (m : Type → Type) := Bytes → PublicKey → m Bytes

/-- What messages are posted with. -/
structure Poster (m : Type → Type) where
  config : Config
  valid : config.Valid
  cipher : Cipher m
  resolver : Resolver

/-- A handshake to be posted. Without an identifier its conversation gets a fresh one. -/
structure HandshakeOrder where
  sender : String
  recipient : String
  nickname : String
  conversationId : Option String
  isResponse : Bool
  secret : Bytes
  recipientKey : PublicKey
  utxos : List UnspentOutput

/-- A payment to be posted. -/
structure PaymentOrder where
  sender : String
  recipient : String
  amount : UInt64
  note : String
  secret : Bytes
  recipientKey : PublicKey
  utxos : List UnspentOutput

/-- A message in a conversation to be posted, encrypted already. -/
structure MessageOrder where
  sender : String
  nickname : String
  message : Bytes
  secret : Bytes
  utxos : List UnspentOutput

/-- A backup of a handshake to be posted. -/
structure BackupOrder where
  sender : String
  partner : String
  nickname : String
  conversationId : String
  isResponse : Bool
  secret : Bytes
  utxos : List UnspentOutput

/-- The scope of a stashed handshake. -/
def Backup.scope : String := "saved_handshake"

/-- The secret key with the given bytes. -/
def SecretKey.parse (bs : Bytes) : Except Error SecretKey :=
  match SecretKey.ofBytes? bs with
  | some key => .ok key
  | none => .error .invalidSecretKey

namespace Poster

variable {m : Type → Type} [Monad m] [MonadExceptOf Error m]

/-- A poster with a configuration, which has to be valid. -/
def make (config : Config) (cipher : Cipher m) (resolver : Resolver) : Except Error (Poster m) :=
  match h : config.fault? with
  | none => .ok ⟨config, h, cipher, resolver⟩
  | some fault => .error (.invalidConfig fault)

/-- A poster that finds the addresses of its network. -/
def ofConfig (config : Config) (cipher : Cipher m) : Except Error (Poster m) :=
  make config cipher config.network.resolver

/-- The ciphertext of a body. -/
def encrypt (p : Poster m) (body : Json) (recipient : PublicKey) : m Bytes :=
  p.cipher (Bytes.ofText body.compact) recipient

/-- Posts a handshake. -/
def handshake (p : Poster m) (now : Timestamp) (freshId : String) (o : HandshakeOrder) :
    m Posted := do
  let key ← MonadExcept.ofExcept (SecretKey.parse o.secret)
  let sender ← MonadExcept.ofExcept (p.resolver o.sender)
  let recipient ← MonadExcept.ofExcept (p.resolver o.recipient)
  let id := o.conversationId.getD freshId
  let body := Handshake.compose o.nickname o.recipient id o.isResponse now
  let ciphertext ← p.encrypt body.toJson o.recipientKey
  let payload ← MonadExcept.ofExcept (Frame.handshake ciphertext).encode
  MonadExcept.ofExcept <|
    Posting.payFromAll p.config key sender recipient p.config.handshakeAmount payload o.utxos

/-- Posts a payment. -/
def payment (p : Poster m) (now : Timestamp) (o : PaymentOrder) : m Posted := do
  if o.amount = 0 then throw Error.zeroPayment
  let key ← MonadExcept.ofExcept (SecretKey.parse o.secret)
  let sender ← MonadExcept.ofExcept (p.resolver o.sender)
  let recipient ← MonadExcept.ofExcept (p.resolver o.recipient)
  let body := Note.compose o.note o.amount now
  let ciphertext ← p.encrypt body.toJson o.recipientKey
  let payload ← MonadExcept.ofExcept (Frame.payment ciphertext).encode
  MonadExcept.ofExcept <|
    Posting.payFromLargest p.config key sender recipient o.amount payload o.utxos

/-- Posts a message in a conversation. -/
def message (p : Poster m) (o : MessageOrder) : m Posted := MonadExcept.ofExcept do
  let key ← SecretKey.parse o.secret
  let sender ← p.resolver o.sender
  let payload ← (Frame.contextual o.nickname o.message).encode
  Posting.payBack p.config key sender payload o.utxos

/-- Posts the backup of a handshake, encrypted for the sender. -/
def selfStash (p : Poster m) (now : Timestamp) (o : BackupOrder) : m Posted := do
  let key ← MonadExcept.ofExcept (SecretKey.parse o.secret)
  let sender ← MonadExcept.ofExcept (p.resolver o.sender)
  let body := Backup.compose o.partner o.nickname o.conversationId o.isResponse now
  let ciphertext ← p.encrypt body.toJson key.publicKey
  let payload ← MonadExcept.ofExcept (Frame.selfStash Backup.scope ciphertext).encode
  MonadExcept.ofExcept (Posting.payBack p.config key sender payload o.utxos)

omit [Monad m] [MonadExceptOf Error m] in
/-- Checks a reported transaction. -/
def verify (p : Poster m) (r : Report) : Except Error Outcome := r.verify p.resolver

end Poster

end LedgerPost
