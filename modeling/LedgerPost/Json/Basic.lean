import LedgerPost.Bytes.Hex
import LedgerPost.Text.Decimal

/-!
# JSON values

A number is kept as its numeral and an object as its members in order, repeated names included.
A string literal may spell half of a surrogate pair alone; no text stands for it, and such a
literal is well-formed but unreadable.
-/

namespace LedgerPost

/-- A JSON value. -/
inductive Json
  | null
  | bool (b : Bool)
  | number (numeral : List Char)
  | string (text : Option String)
  | array (items : List Json)
  | object (members : List (Option String × Json))
  deriving Inhabited

namespace Json

/-! ### Writing -/

/-- A text as a string. -/
def ofText (s : String) : Json := .string (some s)

/-- A natural number as a numeral. -/
def ofNat (n : Nat) : Json := .number (Decimal.digits n)

/-- A byte string as its hexadecimal text. -/
def ofBytes (bs : Bytes) : Json := .ofText (Hex.encode bs)

/-- A list of values. -/
def ofList {α : Type} (write : α → Json) (xs : List α) : Json := .array (xs.map write)

/-- A value that may be missing, in which case it is `null`. -/
def ofOption {α : Type} (write : α → Json) : Option α → Json
  | some x => write x
  | none => .null

/-- An object with the given fields. -/
def ofFields (fields : List (String × Json)) : Json :=
  .object (fields.map fun (name, v) => (some name, v))

/-! ### Reading -/

/-- The text of a readable string. -/
def text? : Json → Option String
  | .string t => t
  | _ => none

/-- A truth value. -/
def bool? : Json → Option Bool
  | .bool b => some b
  | _ => none

/-- The number that a numeral of digits alone spells. -/
def nat? : Json → Option Nat
  | .number numeral => if numeral.all Decimal.isDigit then some (Decimal.value numeral) else none
  | _ => none

/-- A number below a bound. -/
def natBelow? (bound : Nat) (v : Json) : Option Nat :=
  v.nat?.filter (· < bound)

/-- An 8-bit word. -/
def word8? (v : Json) : Option UInt8 := (v.natBelow? UInt8.size).map UInt8.ofNat

/-- A 16-bit word. -/
def word16? (v : Json) : Option UInt16 := (v.natBelow? UInt16.size).map UInt16.ofNat

/-- A 32-bit word. -/
def word32? (v : Json) : Option UInt32 := (v.natBelow? UInt32.size).map UInt32.ofNat

/-- A 64-bit word. -/
def word64? (v : Json) : Option UInt64 := (v.natBelow? UInt64.size).map UInt64.ofNat

/-- A byte string given by its hexadecimal text. -/
def bytes? (v : Json) : Option Bytes := v.text?.bind fun s => (Hex.decode s).toOption

/-- A block given by its hexadecimal text. -/
def block? (n : Nat) (v : Json) : Option (Block n) :=
  v.text?.bind fun s => (Hex.decodeBlock n s).toOption

/-- A list of values. -/
def list? {α : Type} (read : Json → Option α) : Json → Option (List α)
  | .array items => items.mapM read
  | _ => none

/-- A value that is missing when it is `null`. -/
def option? {α : Type} (read : Json → Option α) : Json → Option (Option α)
  | .null => some none
  | v => (read v).map some

/-- One of several names, as a string or as the only field of an object, where it stands with
`null`. -/
def name? : Json → Option String
  | .string t => t
  | .object [(name, .null)] => name
  | _ => none

end Json

/-! ### Records -/

/-- The fields of a record that are present, by name. -/
abbrev Fields := List (String × Json)

namespace Json

/--
The fields of a record with the given field names. A record is an object, where other members are
ignored and no field stands twice, or the array of its fields in order, where the last ones may be
left out.
-/
def fields? (names : List String) : Json → Option Fields
  | .array items => if items.length ≤ names.length then some (names.zip items) else none
  | .object members => do
    let named ← members.mapM fun (name, v) => name.map (·, v)
    let fields := named.filter fun (name, _) => names.contains name
    if (fields.map Prod.fst).Nodup then some fields else none
  | _ => none

end Json

namespace Fields

/-- A field that has to be present. -/
def required {α : Type} (fields : Fields) (name : String) (read : Json → Option α) : Option α :=
  (fields.lookup name).bind read

/-- A field with a value for when it is absent. -/
def withDefault {α : Type} (fields : Fields) (name : String) (default : α)
    (read : Json → Option α) : Option α :=
  match fields.lookup name with
  | some v => read v
  | none => some default

/-- A field that may be absent or `null`. -/
def optional {α : Type} (fields : Fields) (name : String) (read : Json → Option α) :
    Option (Option α) :=
  fields.withDefault name none (Json.option? read)

end Fields

end LedgerPost
