import LedgerPost.Json.Token

/-!
# Reading a JSON text

The value of a list of tokens is built by a machine that takes one token at a time. What is
unfinished is a list of open arrays and objects, so the depth of a text is not limited.
-/

namespace LedgerPost.Json

/-- An array or object that is not closed yet, the last part first. -/
inductive Open
  | array (items : List Json)
  | object (members : List (Option String × Json)) (key : Option String)

/-- What a machine has read so far. -/
inductive Progress
  /-- A value has to follow. -/
  | value (outer : List Open)
  /-- An array has just been opened. -/
  | arrayStart (outer : List Open)
  /-- An object has just been opened. -/
  | objectStart (outer : List Open)
  /-- The name of a further member has to follow. -/
  | memberName (members : List (Option String × Json)) (outer : List Open)
  /-- A name has been read and a colon has to follow. -/
  | afterName (members : List (Option String × Json)) (key : Option String) (outer : List Open)
  /-- A value is complete. -/
  | complete (v : Json) (outer : List Open)

namespace Progress

/-- Takes the first token of a value. -/
def start (outer : List Open) : Token → Option Progress
  | .null => some (.complete .null outer)
  | .bool b => some (.complete (.bool b) outer)
  | .number numeral => some (.complete (.number numeral) outer)
  | .string t => some (.complete (.string t) outer)
  | .openBracket => some (.arrayStart outer)
  | .openBrace => some (.objectStart outer)
  | _ => none

/-- Takes the token after a value. -/
def resume (v : Json) : List Open → Token → Option Progress
  | .array items :: outer, .comma => some (.value (.array (v :: items) :: outer))
  | .array items :: outer, .closeBracket => some (.complete (.array (v :: items).reverse) outer)
  | .object members key :: outer, .comma => some (.memberName ((key, v) :: members) outer)
  | .object members key :: outer, .closeBrace =>
    some (.complete (.object ((key, v) :: members).reverse) outer)
  | _, _ => none

/-- Takes one token. -/
def step : Progress → Token → Option Progress
  | .value outer, t => start outer t
  | .arrayStart outer, .closeBracket => some (.complete (.array []) outer)
  | .arrayStart outer, t => start (.array [] :: outer) t
  | .objectStart outer, .closeBrace => some (.complete (.object []) outer)
  | .objectStart outer, .string key => some (.afterName [] key outer)
  | .objectStart _, _ => none
  | .memberName members outer, .string key => some (.afterName members key outer)
  | .memberName _ _, _ => none
  | .afterName members key outer, .colon => some (.value (.object members key :: outer))
  | .afterName _ _ _, _ => none
  | .complete v outer, t => resume v outer t

/-- Takes all tokens. -/
def run : Progress → List Token → Option Progress
  | p, [] => some p
  | p, t :: ts =>
    match p.step t with
    | some q => q.run ts
    | none => none

end Progress

/-- The value of a list of tokens. -/
def ofTokens? (ts : List Token) : Option Json :=
  match (Progress.value []).run ts with
  | some (.complete v []) => some v
  | _ => none

/-- The value of a text. -/
def parse? (s : String) : Option Json := (tokens? s).bind ofTokens?

/-- What a text says to a reader of values. -/
def read? {α : Type} (reader : Json → Option α) (s : String) : Option α := (parse? s).bind reader

end LedgerPost.Json
