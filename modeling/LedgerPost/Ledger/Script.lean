import LedgerPost.Bytes.Basic
import LedgerPost.Json.Basic

/-!
# Locking and signature scripts

The shapes of script that the library writes and recognizes. A locking script for a public key
pushes the key and checks a signature; a signature script pushes a signature and the byte that
says it covers every input and output.
-/

namespace LedgerPost

/-- A locking script with its version. -/
structure ScriptPublicKey where
  version : UInt16
  script : Bytes
  deriving DecidableEq

namespace ScriptPublicKey

/-- A script of version 0, the only one that is written. -/
def ofScript (script : Bytes) : ScriptPublicKey := ⟨0, script⟩

/-- The script that pays to a public key. -/
def payToPublicKey (key : Block 32) : ScriptPublicKey :=
  ofScript (0x20 :: key.toList ++ [0xac])

/-- The script that pays to an ECDSA key. -/
def payToEcdsaKey (key : Block 33) : ScriptPublicKey :=
  ofScript (0x21 :: key.toList ++ [0xab])

/-- The script that pays to a script, by its hash. -/
def payToScriptHash (hash : Block 32) : ScriptPublicKey :=
  ofScript (0xaa :: 0x20 :: hash.toList ++ [0x87])

/-- The document of a locking script. -/
def toJson (s : ScriptPublicKey) : Json := .ofFields [
  ("version", .ofNat s.version.toNat),
  ("script", .ofBytes s.script)]

/-- Reads the document of a locking script. -/
def ofJson? (v : Json) : Option ScriptPublicKey := do
  let fields ← v.fields? ["version", "script"]
  return {
    version := ← fields.required "version" Json.word16?
    script := ← fields.required "script" Json.bytes? }

end ScriptPublicKey

namespace Script

/-- The key of a script that pays to a public key. -/
def publicKey? : Bytes → Option (Block 32)
  | 0x20 :: rest => if rest.drop 32 = [0xac] then Block.ofList? 32 (rest.take 32) else none
  | _ => none

/-- The script that unlocks an output with a signature. -/
def ofSignature (signature : Block 64) : Bytes := 0x41 :: signature.toList ++ [0x01]

/-- The signature of a script that consists of one signature. -/
def signature? : Bytes → Option (Block 64)
  | 0x41 :: rest => if rest.drop 64 = [0x01] then Block.ofList? 64 (rest.take 64) else none
  | _ => none

/-- A script as long as one with a signature, for measuring what is not signed yet. -/
def placeholder : Bytes := ofSignature (Block.zero 64)

@[simp] theorem length_ofSignature (signature : Block 64) :
    (ofSignature signature).length = 66 := by
  simp [ofSignature, signature.length_toList]

@[simp] theorem signature?_ofSignature (signature : Block 64) :
    signature? (ofSignature signature) = some signature := by
  have h := signature.length_toList
  simp [ofSignature, signature?, h]

@[simp] theorem publicKey?_payToPublicKey (key : Block 32) :
    publicKey? (ScriptPublicKey.payToPublicKey key).script = some key := by
  have h := key.length_toList
  simp [ScriptPublicKey.payToPublicKey, ScriptPublicKey.ofScript, publicKey?, h]

end Script

end LedgerPost
