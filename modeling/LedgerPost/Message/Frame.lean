import LedgerPost.Bytes.Base64
import LedgerPost.Bytes.Hex
import LedgerPost.Json.Basic
import LedgerPost.Ledger.Error

/-!
# Frames

How the ciphertext of a message stands in the payload of a transaction: after a tag that names its
kind, for two kinds after a label and a colon, and raw, in Base64 or in hexadecimal digits. A
payload that is no frame is not an error, because others use payloads too.
-/

namespace LedgerPost

/-- The kinds of frame. -/
inductive FrameKind
  | handshake
  | contextual
  | payment
  | selfStash
  deriving DecidableEq, Repr

namespace FrameKind

/-- The name of a kind. -/
def name : FrameKind → String
  | .handshake => "handshake"
  | .contextual => "comm"
  | .payment => "pay"
  | .selfStash => "self_stash"

/-- The kind with the given name. -/
def ofName? (s : String) : Option FrameKind :=
  [handshake, contextual, payment, selfStash].find? fun k => k.name = s

/-- The document of a kind is its name. -/
def toJson (k : FrameKind) : Json := .ofText k.name

/-- Reads the document of a kind. -/
def ofJson? (v : Json) : Option FrameKind := v.name?.bind ofName?

end FrameKind

/-- A message in a payload. -/
inductive Frame
  | handshake (ciphertext : Bytes)
  | contextual (nickname : String) (ciphertext : Bytes)
  | payment (ciphertext : Bytes)
  | selfStash (scope : String) (ciphertext : Bytes)
  deriving DecidableEq

namespace Frame

/-- The kind of a frame. -/
def kind : Frame → FrameKind
  | .handshake _ => .handshake
  | .contextual _ _ => .contextual
  | .payment _ => .payment
  | .selfStash _ _ => .selfStash

/-- The ciphertext of a frame. -/
def ciphertext : Frame → Bytes
  | .handshake ciphertext => ciphertext
  | .contextual _ ciphertext => ciphertext
  | .payment ciphertext => ciphertext
  | .selfStash _ ciphertext => ciphertext

/-- The label of a frame, and what it is. -/
def label? : Frame → Option (LabelRole × String)
  | .contextual nickname _ => some (.nickname, nickname)
  | .selfStash scope _ => some (.scope, scope)
  | _ => none

/-! ### Tags -/

/-- The tag that all frames start with. -/
def commonTag : String := "ciph_msg:1:"

/-- The tag of a kind. -/
def tag (k : FrameKind) : Bytes := Bytes.ofText (commonTag ++ k.name ++ ":")

/-- Whether a payload starts as a frame does. -/
def isTagged (payload : Bytes) : Bool := (Bytes.ofText commonTag).isPrefixOf payload

/-- What follows a tag. -/
def untag? (t payload : Bytes) : Option Bytes :=
  if t.isPrefixOf payload then some (payload.drop t.length) else none

/-! ### Writing -/

/-- The byte between a label and a ciphertext. -/
def separator : UInt8 := 58

/-- The bytes of a label, which is not empty and has no colon. -/
def labelBytes (role : LabelRole) (s : String) : Except Error Bytes :=
  if s.toList = [] then .error (.invalidPayload (.emptyLabel role))
  else if s.toList.contains ':' then .error (.invalidPayload (.separatorInLabel role))
  else .ok (Bytes.ofText s ++ [separator])

/-- The hexadecimal digits of a ciphertext. -/
def hexBytes (ciphertext : Bytes) : Bytes := Bytes.ofText (Hex.encode ciphertext)

/-- The payload of a frame. -/
def encode (f : Frame) : Except Error Bytes :=
  if f.ciphertext = [] then .error (.invalidPayload .emptyCiphertext)
  else
    match f with
    | .handshake ciphertext => .ok (tag .handshake ++ ciphertext)
    | .contextual nickname ciphertext =>
      (labelBytes .nickname nickname).map fun label =>
        tag .contextual ++ label ++ Base64.encode ciphertext
    | .payment ciphertext => .ok (tag .payment ++ hexBytes ciphertext)
    | .selfStash scope ciphertext =>
      (labelBytes .scope scope).map fun label => tag .selfStash ++ label ++ hexBytes ciphertext

/-! ### Reading -/

/-- A ciphertext, if it is not empty. -/
def nonEmpty? (ciphertext : Bytes) : Option Bytes :=
  if ciphertext = [] then none else some ciphertext

/-- The label in front of the first colon, and what follows the colon. -/
def splitLabel? (bs : Bytes) : Option (String × Bytes) :=
  let label := bs.takeWhile (· ≠ separator)
  match bs.dropWhile (· ≠ separator) with
  | [] => none
  | _ :: rest => if label = [] then none else (Bytes.text? label).map (·, rest)

/-- The ciphertext of hexadecimal digits. -/
def unhex? (digits : Bytes) : Option Bytes :=
  (Hex.decodeDigits digits).toOption.bind nonEmpty?

/-- The frame of a payload. -/
def decode? (payload : Bytes) : Option Frame :=
  match untag? (tag .handshake) payload with
  | some rest => (nonEmpty? rest).map .handshake
  | none =>
  match untag? (tag .contextual) payload with
  | some rest => do
    let (nickname, rest) ← splitLabel? rest
    let ciphertext ← (Base64.decode? rest).bind nonEmpty?
    return .contextual nickname ciphertext
  | none =>
  match untag? (tag .payment) payload with
  | some rest => (unhex? rest).map .payment
  | none =>
  match untag? (tag .selfStash) payload with
  | some rest => do
    let (scope, rest) ← splitLabel? rest
    let ciphertext ← unhex? rest
    return .selfStash scope ciphertext
  | none => none

end Frame

end LedgerPost
