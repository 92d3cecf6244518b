import LedgerPost.Posting.Posted
import LedgerPost.Proofs.Funding.Choice
import LedgerPost.Proofs.Transaction.Mass

/-!
# From a funding to a posted transaction

Whatever is posted was first funded, either to pay an output or to pay the sender back, and then
assembled from that funding. Both steps are described by what they leave behind.
-/

namespace LedgerPost

/-! ### Drafts -/

namespace Transaction

variable (utxos : List UnspentOutput) (outs : List Output) (payload : Bytes)

@[simp] lemma draft_inputs :
    (draft utxos outs payload).inputs = utxos.map fun u => .unsigned u.outpoint := rfl

@[simp] lemma paying_inputs (tx : Transaction) : (tx.paying outs).inputs = tx.inputs := rfl

@[simp] lemma paying_outputs (tx : Transaction) :
    (tx.paying outs).outputs = tx.outputs ++ outs := rfl

lemma length_draft_inputs : utxos.length = (draft utxos outs payload).inputs.length := by
  simp

end Transaction

namespace Posting

/-! ### Funding an output -/

/-- How a payload is funded. An output that is asked for is paid with change to the sender, and
when none is asked for the sender gets an output of all that the fee leaves. -/
inductive Funded (c : Config) (sender : ScriptPublicKey) (payload : Bytes)
    (utxos : List UnspentOutput) : Option Output → Funding → Output → Prop
  | pays {o : Output} {f : Funding}
      (h : f.Settles utxos o.value c.dustThreshold (fee c [o] sender payload)) :
      Funded c sender payload utxos (some o) f o
  | paysBack {f : Funding} {value : UInt64} (hutxos : f.utxos = Funding.spendable utxos)
      (hne : f.utxos ≠ []) (htotal : f.total.toNat = Amount.exactSum (f.utxos.map (·.amount)))
      (hfee : fee c [⟨0, sender⟩] sender payload f.utxos false = .ok f.fee)
      (hchange : f.change = 0) (hsum : f.total.toNat = value.toNat + f.fee.toNat)
      (hdust : c.dustThreshold < value) :
      Funded c sender payload utxos none f ⟨value, sender⟩

namespace Funded

variable {c : Config} {sender : ScriptPublicKey} {payload : Bytes} {utxos : List UnspentOutput}
  {asked : Option Output} {f : Funding} {o : Output}

lemma subperm (h : Funded c sender payload utxos asked f o) :
    f.utxos.Subperm (Funding.spendable utxos) := by
  cases h with
  | pays h => exact h.spendable
  | paysBack hutxos => exact hutxos ▸ List.Subperm.refl _

lemma nonempty (h : Funded c sender payload utxos asked f o) : f.utxos ≠ [] := by
  cases h with
  | pays h => exact h.nonempty
  | paysBack _ hne => exact hne

lemma total_eq_exactSum (h : Funded c sender payload utxos asked f o) :
    f.total.toNat = Amount.exactSum (f.utxos.map (·.amount)) := by
  cases h with
  | pays h => exact h.total
  | paysBack _ _ htotal => exact htotal

/-- The total pays for the output, the fee and the change. -/
lemma total_eq (h : Funded c sender payload utxos asked f o) :
    f.total.toNat = o.value.toNat + f.fee.toNat + f.change.toNat := by
  cases h with
  | pays h => exact h.total_eq
  | paysBack _ _ _ _ hchange hsum => simpa [hchange] using hsum

/-- Only what may be spent is spent. -/
lemma not_isCoinbase (h : Funded c sender payload utxos asked f o) {u : UnspentOutput}
    (hu : u ∈ f.utxos) : u.isCoinbase = false := by
  have hmem : u ∈ Funding.spendable utxos := h.subperm.subset hu
  simpa using (List.mem_filter.mp hmem).2

/-- No output is spent more often than it was given. -/
lemma count_le (h : Funded c sender payload utxos asked f o) (u : UnspentOutput) :
    f.utxos.count u ≤ utxos.count u :=
  calc
    f.utxos.count u ≤ (Funding.spendable utxos).count u := h.subperm.count_le u
    _ ≤ utxos.count u := List.filter_sublist.count_le u

end Funded

/-! ### Assembling a transaction -/

/-- The outputs of a transaction: the one that is paid for, and change if there is any. -/
def outputs (f : Funding) (o : Output) (sender : ScriptPublicKey) : List Output :=
  [o] ++ changeOutputs sender (if f.hasChange then some f.change else none)

/-- What is posted for a funding and an output that it pays. -/
structure Assembled (c : Config) (key : SecretKey) (f : Funding) (o : Output)
    (sender : ScriptPublicKey) (payload : Bytes) (posted : Posted) : Prop where
  transaction : posted.transaction =
    (Transaction.draft f.utxos (outputs f o sender) payload).signed key f.utxos
  transactionId : posted.transactionId = posted.transaction.id
  fee : posted.fee = f.fee
  computeMass : posted.transaction.computeMass c.mass = .ok posted.computeMass
  storageMass : posted.storageMass =
    posted.transaction.storageMass c.mass (posted.spent.map UnspentOutput.spent)
  spent : posted.spent = f.utxos

variable {c : Config} {key : SecretKey} {f : Funding} {o : Output}
  {sender recipient : ScriptPublicKey} {payload : Bytes} {utxos : List UnspentOutput}
  {amount : UInt64} {posted : Posted}

lemma Assembled.outputs_eq (h : Assembled c key f o sender payload posted) :
    posted.transaction.outputs = outputs f o sender := by
  rw [h.transaction]
  rfl

lemma Assembled.of_finish (h : finish c key f [o] sender payload = .ok posted) :
    Assembled c key f o sender payload posted := by
  rw [finish] at h
  obtain ⟨-, -, h⟩ := bind_eq_ok.mp h
  dsimp only at h
  rw [← outputs] at h
  generalize houts : outputs f o sender = outs at h
  split at h
  · cases h
  · obtain ⟨signed, hsigned, h⟩ := bind_eq_ok.mp h
    obtain ⟨mass, hmass, h⟩ := bind_eq_ok.mp h
    rw [Transaction.sign_eq_ok (Transaction.length_draft_inputs ..)] at hsigned
    cases hsigned
    cases h
    exact ⟨by rw [houts], rfl, rfl, hmass, rfl, rfl⟩

/-! ### Paying back -/

/-- Funds a transaction that pays all outputs back to the sender, less the fee. -/
def fundBack (c : Config) (sender : ScriptPublicKey) (payload : Bytes)
    (utxos : List UnspentOutput) : Except Error (Funding × Output) := do
  let (chosen, total) ← Funding.all utxos 1
  let fee ← fee c [⟨0, sender⟩] sender payload chosen false
  let value := if fee ≤ total then total - fee else 0
  if value ≤ c.dustThreshold then
    let required ← Amount.add (← Amount.add fee c.dustThreshold) 1
    throw (.insufficientFunds required total)
  return (⟨chosen, total, fee, 0⟩, ⟨value, sender⟩)

lemma payBack_eq : payBack c key sender payload utxos =
    fundBack c sender payload utxos >>= fun (f, o) => finish c key f [o] sender payload := by
  simp only [payBack, fundBack, bind_assoc]
  refine bind_congr fun (chosen, total) => bind_congr fun needed => ?_
  dsimp only
  generalize (if needed ≤ total then total - needed else 0) = value
  by_cases hdust : value ≤ c.dustThreshold
  · rw [if_pos hdust, if_pos hdust, bind_assoc]
    refine bind_congr fun sum => ?_
    rw [bind_assoc]
    rfl
  · rw [if_neg hdust, if_neg hdust]
    rfl

/-- What the fee leaves is dust when the total does not exceed the fee by more than dust. -/
lemma rest_le_iff {total needed dust : UInt64} :
    (if needed ≤ total then total - needed else 0) ≤ dust ↔
      total.toNat ≤ needed.toNat + dust.toNat := by
  rw [UInt64.le_iff_toNat_le]
  split
  · rename_i hle
    rw [UInt64.toNat_sub_of_le _ _ hle]
    omega
  · rename_i hlt
    rw [UInt64.le_iff_toNat_le] at hlt
    rw [UInt64.toNat_zero]
    omega

lemma Funded.of_fundBack (h : fundBack c sender payload utxos = .ok (f, o)) :
    Funded c sender payload utxos none f o := by
  rw [fundBack] at h
  obtain ⟨⟨chosen, total⟩, hall, h⟩ := bind_eq_ok.mp h
  obtain ⟨needed, hneeded, h⟩ := bind_eq_ok.mp h
  obtain ⟨hchosen, hne, htotal⟩ := Funding.all_eq_ok hall
  dsimp only at h
  by_cases hdust : (if needed ≤ total then total - needed else 0) ≤ c.dustThreshold
  · rw [if_pos hdust] at h
    obtain ⟨sum, -, h⟩ := bind_eq_ok.mp h
    obtain ⟨required, -, h⟩ := bind_eq_ok.mp h
    cases h
  · rw [if_neg hdust] at h
    cases h
    have hrest := rest_le_iff.not.mp hdust
    have hle : needed ≤ total := by
      rw [UInt64.le_iff_toNat_le]
      omega
    have hsub := UInt64.toNat_sub_of_le _ _ hle
    rw [if_pos hle, UInt64.not_le] at hdust
    rw [if_pos hle]
    exact .paysBack hchosen hne htotal hneeded rfl (by dsimp only; omega) hdust

/-- A posted transaction, with the funding that it was assembled from. -/
def Posts (c : Config) (key : SecretKey) (sender : ScriptPublicKey) (payload : Bytes)
    (utxos : List UnspentOutput) (asked : Option Output) (posted : Posted) : Prop :=
  ∃ f o, Funded c sender payload utxos asked f o ∧ Assembled c key f o sender payload posted

end Posting

end LedgerPost
