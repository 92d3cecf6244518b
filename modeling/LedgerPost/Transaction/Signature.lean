import LedgerPost.Curve.Schnorr
import LedgerPost.Transaction.Digest

/-!
# Signing transactions
-/

namespace LedgerPost.Transaction

/-- The signature script of an input. -/
def signatureScript (key : SecretKey) (tx : Transaction) (shared : SharedDigests) (index : Nat)
    (spent : SpentOutput) : Except Error Bytes :=
  (tx.inputDigest shared index spent).map fun digest => Script.ofSignature (Schnorr.sign key digest)

/-- Signs each input, where the consumed outputs stand in the order of the inputs. -/
def sign (tx : Transaction) (spent : List UnspentOutput) (key : SecretKey) :
    Except Error Transaction :=
  if spent.length ≠ tx.inputs.length then
    .error (.spentCountMismatch tx.inputs.length spent.length)
  else do
    let shared := tx.sharedDigests
    let scripts ← spent.zipIdx.mapM fun (u, i) => signatureScript key tx shared i u.spent
    let inputs := tx.inputs.zipWith (fun input script => { input with signatureScript := script })
      scripts
    return { tx with inputs := inputs }

end LedgerPost.Transaction
