import LedgerPost.Json.Parser
import LedgerPost.Json.Printer
import LedgerPost.Time.Timestamp

/-!
# Message bodies

What a ciphertext holds: the opening of a conversation, the sender's own copy of it, or a note to
a payment. A body is encrypted as the compact text of its document.
-/

namespace LedgerPost

/-! ### Handshakes -/

/-- Opens a conversation. -/
structure Handshake where
  type : String
  nickname : String
  timestamp : Timestamp
  conversationId : String
  version : UInt32
  recipientAddress : String
  sendToRecipient : Bool
  isResponse : Bool
  deriving DecidableEq

namespace Handshake

/-- The handshake that is written now. -/
def compose (nickname recipientAddress conversationId : String) (isResponse : Bool)
    (timestamp : Timestamp) : Handshake where
  type := "handshake"
  nickname := nickname
  timestamp := timestamp
  conversationId := conversationId
  version := 1
  recipientAddress := recipientAddress
  sendToRecipient := true
  isResponse := isResponse

/-- The document of a handshake. -/
def toJson (h : Handshake) : Json := .ofFields [
  ("type", .ofText h.type),
  ("alias", .ofText h.nickname),
  ("timestamp", h.timestamp.toJson),
  ("conversationId", .ofText h.conversationId),
  ("version", .ofNat h.version.toNat),
  ("recipientAddress", .ofText h.recipientAddress),
  ("sendToRecipient", .bool h.sendToRecipient),
  ("isResponse", .bool h.isResponse)]

/-- Reads the document of a handshake. -/
def ofJson? (v : Json) : Option Handshake := do
  let fields ← v.fields? ["type", "alias", "timestamp", "conversationId", "version",
    "recipientAddress", "sendToRecipient", "isResponse"]
  return {
    type := ← fields.required "type" Json.text?
    nickname := ← fields.required "alias" Json.text?
    timestamp := ← fields.required "timestamp" Timestamp.ofJson?
    conversationId := ← fields.required "conversationId" Json.text?
    version := ← fields.required "version" Json.word32?
    recipientAddress := ← fields.required "recipientAddress" Json.text?
    sendToRecipient := ← fields.required "sendToRecipient" Json.bool?
    isResponse := ← fields.required "isResponse" Json.bool? }

end Handshake

/-! ### Backups -/

/-- The sender's copy of a handshake. -/
structure Backup where
  type : String
  partnerAddress : String
  nickname : String
  conversationId : String
  isResponse : Bool
  timestamp : Timestamp
  deriving DecidableEq

namespace Backup

/-- The backup that is written now. -/
def compose (partnerAddress nickname conversationId : String) (isResponse : Bool)
    (timestamp : Timestamp) : Backup where
  type := "saved_handshake"
  partnerAddress := partnerAddress
  nickname := nickname
  conversationId := conversationId
  isResponse := isResponse
  timestamp := timestamp

/-- The document of a backup. -/
def toJson (b : Backup) : Json := .ofFields [
  ("type", .ofText b.type),
  ("partnerAddress", .ofText b.partnerAddress),
  ("alias", .ofText b.nickname),
  ("conversationId", .ofText b.conversationId),
  ("isResponse", .bool b.isResponse),
  ("timestamp", b.timestamp.toJson)]

/-- Reads the document of a backup. -/
def ofJson? (v : Json) : Option Backup := do
  let fields ← v.fields? ["type", "partnerAddress", "alias", "conversationId", "isResponse",
    "timestamp"]
  return {
    type := ← fields.required "type" Json.text?
    partnerAddress := ← fields.required "partnerAddress" Json.text?
    nickname := ← fields.required "alias" Json.text?
    conversationId := ← fields.required "conversationId" Json.text?
    isResponse := ← fields.required "isResponse" Json.bool?
    timestamp := ← fields.required "timestamp" Timestamp.ofJson? }

end Backup

/-! ### Notes -/

/-- A note to a payment. -/
structure Note where
  type : String
  message : String
  amount : UInt64
  timestamp : Timestamp
  version : UInt32
  deriving DecidableEq

namespace Note

/-- The note that is written now. -/
def compose (message : String) (amount : UInt64) (timestamp : Timestamp) : Note where
  type := "payment"
  message := message
  amount := amount
  timestamp := timestamp
  version := 1

/-- The document of a note. -/
def toJson (n : Note) : Json := .ofFields [
  ("type", .ofText n.type),
  ("message", .ofText n.message),
  ("amount", .ofNat n.amount.toNat),
  ("timestamp", n.timestamp.toJson),
  ("version", .ofNat n.version.toNat)]

/-- Reads the document of a note. -/
def ofJson? (v : Json) : Option Note := do
  let fields ← v.fields? ["type", "message", "amount", "timestamp", "version"]
  return {
    type := ← fields.required "type" Json.text?
    message := ← fields.required "message" Json.text?
    amount := ← fields.required "amount" Json.word64?
    timestamp := ← fields.required "timestamp" Timestamp.ofJson?
    version := ← fields.required "version" Json.word32? }

end Note

end LedgerPost
