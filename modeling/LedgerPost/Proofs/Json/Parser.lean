import LedgerPost.Json.Parser
import LedgerPost.Proofs.Json.Token
import Mathlib.Data.List.Basic

/-!
# Reading a written value

The compact text of a value is read as the value. The machine that takes the tokens of a value
completes it, in whatever array or object it stands; the induction is on the value, together with
the further items of an array and the further members of an object.
-/

namespace LedgerPost

namespace Json

/-! ### Values -/

namespace Progress

variable {outer : List Open} {ts : List Token}

lemma run_cons {p q : Progress} {t : Token} (h : p.step t = some q) :
    p.run (t :: ts) = q.run ts := by
  rw [run, h]

/-- No value starts with a closing bracket, so the first item of an array is read as a value. -/
lemma run_arrayStart (v : Json) :
    (Progress.arrayStart outer).run (v.tokens ++ ts) =
      (Progress.value (.array [] :: outer)).run (v.tokens ++ ts) := by
  match v with
  | .null => rfl
  | .bool b => rfl
  | .number numeral => rfl
  | .string text => rfl
  | .array [] => rfl
  | .array (item :: items) => rfl
  | .object [] => rfl
  | .object ((name, v) :: members) => rfl

mutual

/-- The tokens of a value complete it. -/
theorem run_tokens (v : Json) {outer : List Open} {ts : List Token} :
    (Progress.value outer).run (v.tokens ++ ts) = (Progress.complete v outer).run ts := by
  match v with
  | .null => exact run_cons rfl
  | .bool b => exact run_cons rfl
  | .number numeral => exact run_cons rfl
  | .string text => exact run_cons rfl
  | .array [] => rfl
  | .array (item :: items) =>
    rw [tokens, List.cons_append, List.append_assoc, run_cons rfl, run_arrayStart,
      run_tokens item, run_tokensOfItems items]
    rfl
  | .object [] => rfl
  | .object ((name, v) :: members) =>
    rw [tokens, List.cons_append, List.cons_append, List.cons_append, List.append_assoc,
      run_cons rfl, run_cons rfl, run_cons rfl, run_tokens v, run_tokensOfMembers members]
    rfl

/-- The tokens of further items complete their array. -/
theorem run_tokensOfItems (items : List Json) {v : Json} {done : List Json} {outer : List Open}
    {ts : List Token} :
    (Progress.complete v (.array done :: outer)).run (tokensOfItems items ++ ts) =
      (Progress.complete (.array ((v :: done).reverse ++ items)) outer).run ts := by
  match items with
  | [] =>
    rw [List.append_nil]
    exact run_cons rfl
  | item :: items =>
    rw [tokensOfItems, List.cons_append, List.append_assoc, run_cons rfl, run_tokens item,
      run_tokensOfItems items]
    simp

/-- The tokens of further members complete their object. -/
theorem run_tokensOfMembers (members : List (Option String × Json)) {v : Json}
    {done : List (Option String × Json)} {key : Option String} {outer : List Open}
    {ts : List Token} :
    (Progress.complete v (.object done key :: outer)).run (tokensOfMembers members ++ ts) =
      (Progress.complete (.object (((key, v) :: done).reverse ++ members)) outer).run ts := by
  match members with
  | [] =>
    rw [List.append_nil]
    exact run_cons rfl
  | (name, w) :: members =>
    rw [tokensOfMembers, List.cons_append, List.cons_append, List.cons_append, List.append_assoc,
      run_cons rfl, run_cons rfl, run_cons rfl, run_tokens w, run_tokensOfMembers members]
    simp

end

end Progress

/-- The compact text of a value is read as the value. -/
theorem parse?_compact {v : Json} (hspelled : v.IsSpelled) : parse? v.compact = some v := by
  have hrun : (Progress.value []).run (v.tokens ++ []) = some (.complete v []) :=
    Progress.run_tokens v
  rw [List.append_nil] at hrun
  rw [parse?, tokens?_compact hspelled, Option.bind_some, ofTokens?, hrun]

/-- Reading a compact text is reading the value that it is written for. -/
lemma read?_compact {α : Type} {reader : Json → Option α} {v : Json} (hspelled : v.IsSpelled) :
    read? reader v.compact = reader v := by
  rw [read?, parse?_compact hspelled, Option.bind_some]

/-! ### Records -/

lemma mapM_named (fields : Fields) :
    (fields.map fun (name, v) => (some name, v)).mapM
      (fun (name, v) => name.map fun name => (name, v)) = some fields := by
  induction fields with
  | nil => rfl
  | cons field fields ih =>
    rw [List.map_cons, List.mapM_cons, ih]
    rfl

/-- The fields of a written record are read as they are, if no two have the same name. -/
theorem fields?_ofFields {fields : Fields} {names : List String}
    (hnames : fields.map Prod.fst = names) (hnodup : names.Nodup) :
    (ofFields fields).fields? names = some fields := by
  subst hnames
  have hfilter : (fields.filter fun (name, _) => (fields.map Prod.fst).contains name) = fields := by
    rw [List.filter_eq_self]
    intro field hfield
    rw [List.contains_iff_mem]
    exact List.mem_map_of_mem hfield
  rw [ofFields, Json.fields?, mapM_named]
  simp only [Option.bind_eq_bind, Option.bind_some]
  rw [hfilter, if_pos hnodup]

@[simp] lemma required_cons_self {α : Type} (name : String) (v : Json) (fields : Fields)
    (read : Json → Option α) : Fields.required ((name, v) :: fields) name read = read v := by
  simp [Fields.required]

@[simp] lemma required_cons_of_ne {α : Type} {name other : String} (hne : name ≠ other) (v : Json)
    (fields : Fields) (read : Json → Option α) :
    Fields.required ((other, v) :: fields) name read = fields.required name read := by
  have hbeq : (name == other) = false := beq_false_of_ne hne
  rw [Fields.required, List.lookup_cons, hbeq, Fields.required]

@[simp] lemma withDefault_cons_self (name : String) (v : Json) (fields : Fields) (default : α)
    (read : Json → Option α) :
    Fields.withDefault ((name, v) :: fields) name default read = read v := by
  simp [Fields.withDefault]

@[simp] lemma withDefault_cons_of_ne {name other : String} (hne : name ≠ other) (v : Json)
    (fields : Fields) (default : α) (read : Json → Option α) :
    Fields.withDefault ((other, v) :: fields) name default read =
      fields.withDefault name default read := by
  have hbeq : (name == other) = false := beq_false_of_ne hne
  rw [Fields.withDefault, List.lookup_cons, hbeq, Fields.withDefault]

/-! ### Parts of a record -/

@[simp] lemma text?_ofText (s : String) : (ofText s).text? = some s := rfl

@[simp] lemma bool?_bool (b : Bool) : (Json.bool b).bool? = some b := rfl

lemma nat?_ofNat (n : Nat) : (ofNat n).nat? = some n := by
  have hdigits : (Decimal.digits n).all Decimal.isDigit = true := by
    rw [List.all_eq_true]
    intro c hc
    exact Decimal.isDigit_of_mem_digits hc
  rw [ofNat, nat?, if_pos hdigits, Decimal.value_digits]

lemma natBelow?_ofNat {bound n : Nat} (hn : n < bound) : (ofNat n).natBelow? bound = some n := by
  rw [natBelow?, nat?_ofNat]
  simp [hn]

@[simp] lemma word8?_ofNat (n : UInt8) : (ofNat n.toNat).word8? = some n := by
  rw [word8?, natBelow?_ofNat n.toNat_lt_size]
  simp

@[simp] lemma word16?_ofNat (n : UInt16) : (ofNat n.toNat).word16? = some n := by
  rw [word16?, natBelow?_ofNat n.toNat_lt_size]
  simp

@[simp] lemma word32?_ofNat (n : UInt32) : (ofNat n.toNat).word32? = some n := by
  rw [word32?, natBelow?_ofNat n.toNat_lt_size]
  simp

@[simp] lemma word64?_ofNat (n : UInt64) : (ofNat n.toNat).word64? = some n := by
  rw [word64?, natBelow?_ofNat n.toNat_lt_size]
  simp

end Json

end LedgerPost
