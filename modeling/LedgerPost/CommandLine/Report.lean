import LedgerPost.Message.Frame
import LedgerPost.Transaction.Mass

/-!
# Reports

What the actions of the command line say about a transaction or a payload. The fields of a report
stand in the order of their names.
-/

namespace LedgerPost.CommandLine

/-! ### Mass -/

/-- What is reported only when the consumed outputs are known. -/
structure StorageReport where
  storageMass : UInt64
  isStandard : Bool
  /-- What the consumed outputs exceed the new ones by, unless they fall short of them. -/
  fee : Option UInt64
  deriving DecidableEq, Repr

/-- The mass of a transaction, and the fee that it needs. -/
structure MassReport where
  computeMass : UInt64
  signedMass : UInt64
  requiredFee : UInt64
  storage : Option StorageReport
  deriving DecidableEq, Repr

/-- Reports what is known when the consumed outputs are, one for each input. -/
def StorageReport.make (p : MassParameters) (tx : Transaction) (spent : List SpentOutput) :
    Except Error StorageReport := do
  if spent.length ≠ tx.inputs.length then
    throw (.spentCountMismatch tx.inputs.length spent.length)
  let inputs ← Amount.sum (spent.map (·.amount))
  let outputs ← Amount.sum (tx.outputs.map (·.value))
  let mass := tx.storageMass p spent
  return ⟨mass, mass ≤ p.standardLimit, if outputs ≤ inputs then some (inputs - outputs) else none⟩

/-- Reports the mass of a transaction, perhaps with its consumed outputs. -/
def MassReport.make (p : MassParameters) (tx : Transaction) (spent : Option (List SpentOutput)) :
    Except Error MassReport := do
  let computeMass ← tx.computeMass p
  let signedMass ← tx.signedMass p
  let requiredFee ← tx.requiredFee p
  match spent with
  | none => return ⟨computeMass, signedMass, requiredFee, none⟩
  | some outputs =>
    return ⟨computeMass, signedMass, requiredFee, some (← StorageReport.make p tx outputs)⟩

/-- The document of a report. -/
def MassReport.toJson (r : MassReport) : Json :=
  let fee := (r.storage.bind (·.fee)).toList.map fun a => ("fee", .ofText (Amount.text a))
  let storage := r.storage.toList.flatMap fun s =>
    [("storageMass", .ofNat s.storageMass.toNat), ("withinStandardMass", .bool s.isStandard)]
  .ofFields <|
    [("computeMass", .ofNat r.computeMass.toNat)] ++ fee
      ++ [("requiredFee", .ofNat r.requiredFee.toNat),
        ("signedComputeMass", .ofNat r.signedMass.toNat)]
      ++ storage

/-! ### Payloads -/

/-- The field for the label of a frame, if it has one with the given role. -/
def labelField (role : LabelRole) (f : Frame) : List (String × Json) :=
  match f.label? with
  | some (r, label) => if r = role then [(role.name, .ofText label)] else []
  | none => []

/-- The document of what a payload holds. -/
def payloadReport (payload : Bytes) : Json :=
  match Frame.decode? payload with
  | none => .ofFields [
    ("protocolTagged", .bool (Frame.isTagged payload)),
    ("recognized", .bool false)]
  | some f => .ofFields <|
    labelField .nickname f
      ++ [("ciphertext", .ofBytes f.ciphertext), ("kind", f.kind.toJson),
        ("recognized", .bool true)]
      ++ labelField .scope f

end LedgerPost.CommandLine
