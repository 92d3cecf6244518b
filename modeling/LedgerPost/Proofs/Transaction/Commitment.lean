import LedgerPost.Proofs.Transaction.Encoding

/-!
# What a signing digest commits to

A signing digest is the digest of bytes that hold other digests in turn. All of these byte strings
can be told apart. So two equal signing digests belong to transactions that agree in everything but
their signature scripts, unless there is a clash among the hashed byte strings.
-/

namespace LedgerPost

namespace Transaction

/-- The bytes whose digest stands for the payload, unless zero does. -/
def payloadBytes? (tx : Transaction) : Option Bytes :=
  if tx.subnetworkId = .native ∧ tx.payload = [] then none else some (Bytes.measured tx.payload)

/-- The byte strings that are hashed for the signing digest of an input. -/
inductive Hashes (tx : Transaction) (input : Input) (spent : SpentOutput) : Bytes → Prop
  | previousOutpoints : Hashes tx input spent (tx.inputs.flatMap fun i => i.previousOutpoint.encode)
  | sequences : Hashes tx input spent (tx.inputs.flatMap fun i => Bytes.word64 i.sequence)
  | sigOpCounts : Hashes tx input spent (tx.inputs.map (·.sigOpCount))
  | outputs : Hashes tx input spent (tx.outputs.flatMap Output.signedBytes)
  | payload {bs : Bytes} (h : tx.payloadBytes? = some bs) : Hashes tx input spent bs
  | input : Hashes tx input spent (tx.signedBytes tx.sharedDigests input spent)

/-- Two signing digests whose byte strings collide, or one with a payload that hashes to zero. -/
inductive Clash (tx tx' : Transaction) (input input' : Input) (spent spent' : SpentOutput) : Prop
  | collision {bs bs' : Bytes} (h : tx.Hashes input spent bs) (h' : tx'.Hashes input' spent' bs')
      (hcollision : Blake2b.Collision signingKey bs bs')
  | zeroDigest {bs : Bytes} (h : tx.payloadBytes? = some bs ∨ tx'.payloadBytes? = some bs)
      (hzero : signingHash bs = .zero 32)

/-- All that two signing digests cover is the same: the transactions and the inputs but for
signature scripts, and the amounts and script bytes of what is spent. -/
structure SameSigned (tx tx' : Transaction) (input input' : Input) (spent spent' : SpentOutput) :
    Prop where
  unsigned : tx.unsigned = tx'.unsigned
  input : input.cleared = input'.cleared
  amount : spent.amount = spent'.amount
  script : spent.scriptPublicKey.script = spent'.scriptPublicKey.script

/-- The lengths that are hashed for a signing digest fit into words. -/
structure Countable (tx : Transaction) (spent : SpentOutput) : Prop where
  outputs : ∀ o ∈ tx.outputs, o.Sized
  payload : tx.payload.length < UInt64.size
  script : spent.scriptPublicKey.script.length < UInt64.size

end Transaction

/-! ### Signed bytes -/

lemma Output.selfDelimiting_signedBytes : SelfDelimiting Output.Sized Output.signedBytes := by
  rintro ⟨value, ⟨version, script⟩⟩ ⟨value', ⟨version', script'⟩⟩ ho ho' s t h
  simp only [Output.signedBytes, List.append_assoc] at h
  obtain ⟨hvalue, h⟩ := Bytes.selfDelimiting_word64 trivial trivial h
  obtain ⟨hversion, h⟩ := Bytes.selfDelimiting_word16 trivial trivial h
  obtain ⟨hscript, h⟩ := Bytes.selfDelimiting_measured ho ho' h
  refine ⟨?_, h⟩
  rw [Output.mk.injEq, ScriptPublicKey.mk.injEq]
  exact ⟨hvalue, hversion, hscript⟩

lemma Output.signedBytes_ne_nil (o : Output) : o.signedBytes ≠ [] := by
  simp [signedBytes, Bytes.word64, Bytes.littleEndian]

namespace Transaction

variable {tx tx' : Transaction} {i i' : Input} {s s' : SpentOutput} {d d' : SharedDigests}

/-- The bytes that are signed have all their parts in fixed places but for one measured script. -/
lemma signedBytes_inj (hs : s.scriptPublicKey.script.length < UInt64.size)
    (hs' : s'.scriptPublicKey.script.length < UInt64.size)
    (h : tx.signedBytes d i s = tx'.signedBytes d' i' s') :
    tx.version = tx'.version ∧ tx.lockTime = tx'.lockTime ∧
      tx.subnetworkId = tx'.subnetworkId ∧ tx.gas = tx'.gas ∧ d = d' ∧
      i.cleared = i'.cleared ∧ s.amount = s'.amount ∧
      s.scriptPublicKey.script = s'.scriptPublicKey.script := by
  simp only [signedBytes, List.append_assoc] at h
  obtain ⟨hversion, h⟩ := Bytes.selfDelimiting_word16 trivial trivial h
  obtain ⟨hpreviousOutpoints, h⟩ := Block.selfDelimiting_toList 32 trivial trivial h
  obtain ⟨hsequences, h⟩ := Block.selfDelimiting_toList 32 trivial trivial h
  obtain ⟨hsigOpCounts, h⟩ := Block.selfDelimiting_toList 32 trivial trivial h
  obtain ⟨houtpoint, h⟩ := Outpoint.selfDelimiting_encode trivial trivial h
  rw [List.append_cancel_left_eq] at h
  obtain ⟨hscript, h⟩ := Bytes.selfDelimiting_measured hs hs' h
  obtain ⟨hamount, h⟩ := Bytes.selfDelimiting_word64 trivial trivial h
  obtain ⟨hsequence, h⟩ := Bytes.selfDelimiting_word64 trivial trivial h
  obtain ⟨hcount, h⟩ := List.cons.inj h
  obtain ⟨houtputs, h⟩ := Block.selfDelimiting_toList 32 trivial trivial h
  obtain ⟨hlockTime, h⟩ := Bytes.selfDelimiting_word64 trivial trivial h
  obtain ⟨hsubnetworkId, h⟩ := Block.selfDelimiting_toList 20 trivial trivial h
  obtain ⟨hgas, h⟩ := Bytes.selfDelimiting_word64 trivial trivial h
  obtain ⟨hpayload, -⟩ := Block.selfDelimiting_toList 32 trivial trivial h
  have hshared : d = d' := by
    rw [SharedDigests.mk.injEq]
    exact ⟨hpreviousOutpoints, hsequences, hsigOpCounts, houtputs, hpayload⟩
  have hinput : i.cleared = i'.cleared := by
    rw [Input.cleared, Input.cleared, houtpoint, hsequence, hcount]
  exact ⟨hversion, hlockTime, hsubnetworkId, hgas, hshared, hinput, hamount, hscript⟩

/-! ### Digests without a clash -/

lemma eq_of_not_clash (hclash : ¬ Clash tx tx' i i' s s') {bs bs' : Bytes}
    (h : tx.Hashes i s bs) (h' : tx'.Hashes i' s' bs')
    (heq : signingHash bs = signingHash bs') : bs = bs' := by
  by_contra hne
  exact hclash (.collision h h' ⟨hne, heq⟩)

lemma payloadDigest_eq (tx : Transaction) :
    tx.payloadDigest = (tx.payloadBytes?.map signingHash).getD (.zero 32) := by
  rw [payloadDigest, payloadBytes?]
  split <;> rfl

/-- The digest of a payload tells the payload, where the part of the ledger is known. -/
lemma payload_eq_of_not_clash (hclash : ¬ Clash tx tx' i i' s s')
    (hsize : tx.payload.length < UInt64.size) (hsize' : tx'.payload.length < UInt64.size)
    (h : tx.payloadDigest = tx'.payloadDigest) : tx.payload = tx'.payload := by
  rw [payloadDigest_eq, payloadDigest_eq] at h
  cases hbs : tx.payloadBytes? with
  | none =>
    cases hbs' : tx'.payloadBytes? with
    | none =>
      simp only [payloadBytes?, ite_eq_left_iff, reduceCtorEq, imp_false, not_not] at hbs hbs'
      rw [hbs.2, hbs'.2]
    | some bs' =>
      rw [hbs, hbs'] at h
      exact absurd (.zeroDigest (.inr hbs') h.symm) hclash
  | some bs =>
    cases hbs' : tx'.payloadBytes? with
    | none =>
      rw [hbs, hbs'] at h
      exact absurd (.zeroDigest (.inl hbs) h) hclash
    | some bs' =>
      rw [hbs, hbs'] at h
      have heq : bs = bs' := eq_of_not_clash hclash (.payload hbs) (.payload hbs') h
      simp only [payloadBytes?, Option.ite_none_left_eq_some, Option.some.injEq] at hbs hbs'
      rw [← hbs.2, ← hbs'.2] at heq
      exact Bytes.selfDelimiting_measured.injective hsize hsize' heq

/-- The shared digests tell the inputs but for their scripts. A signature operation count is one
byte, so the counts tell how many inputs there are. -/
lemma map_cleared_eq_of_not_clash (hclash : ¬ Clash tx tx' i i' s s')
    (h : tx.sharedDigests = tx'.sharedDigests) :
    tx.inputs.map Input.cleared = tx'.inputs.map Input.cleared := by
  have hcounts : tx.inputs.map (·.sigOpCount) = tx'.inputs.map (·.sigOpCount) :=
    eq_of_not_clash hclash .sigOpCounts .sigOpCounts (congrArg SharedDigests.sigOpCounts h)
  have hlength : tx.inputs.length = tx'.inputs.length := by
    simpa using congrArg List.length hcounts
  have houtpoints : tx.inputs.map (·.previousOutpoint) = tx'.inputs.map (·.previousOutpoint) := by
    apply Outpoint.selfDelimiting_encode.map_eq hlength
    exact eq_of_not_clash hclash .previousOutpoints .previousOutpoints
      (congrArg SharedDigests.previousOutpoints h)
  have hsequences : tx.inputs.map (·.sequence) = tx'.inputs.map (·.sequence) := by
    apply Bytes.selfDelimiting_word64.map_eq hlength
    exact eq_of_not_clash hclash .sequences .sequences (congrArg SharedDigests.sequences h)
  apply List.ext_getElem
  · rw [List.length_map, List.length_map, hlength]
  · intro n h₁ h₂
    have houtpoint := congrArg (·[n]?) houtpoints
    have hsequence := congrArg (·[n]?) hsequences
    have hcount := congrArg (·[n]?) hcounts
    rw [List.length_map] at h₁ h₂
    simp only [List.getElem?_map, List.getElem?_eq_getElem h₁, List.getElem?_eq_getElem h₂,
      Option.map_some, Option.some.injEq] at houtpoint hsequence hcount
    rw [List.getElem_map, List.getElem_map, Input.cleared, Input.cleared, houtpoint, hsequence,
      hcount]

/-- Equal signing digests without a clash cover the same. -/
theorem sameSigned_of_digestFor_eq (hclash : ¬ Clash tx tx' i i' s s') (htx : tx.Countable s)
    (htx' : tx'.Countable s') (h : tx.digestFor i s = tx'.digestFor i' s') :
    SameSigned tx tx' i i' s s' := by
  have hbytes := eq_of_not_clash hclash .input .input h
  obtain ⟨hversion, hlockTime, hsubnetworkId, hgas, hshared, hinput, hamount, hscript⟩ :=
    signedBytes_inj htx.script htx'.script hbytes
  have hinputs := map_cleared_eq_of_not_clash hclash hshared
  have houts : tx.outputs = tx'.outputs := by
    apply Output.selfDelimiting_signedBytes.flatMap_inj Output.signedBytes_ne_nil htx.outputs
      htx'.outputs
    exact eq_of_not_clash hclash .outputs .outputs (congrArg SharedDigests.outputs hshared)
  have hpay := payload_eq_of_not_clash hclash htx.payload htx'.payload
    (congrArg SharedDigests.payload hshared)
  refine ⟨?_, hinput, hamount, hscript⟩
  rw [unsigned_eq, unsigned_eq, mk.injEq]
  exact ⟨hversion, hinputs, houts, hlockTime, hsubnetworkId, hgas, hpay⟩

/-- Signing digests that cover the same are equal. -/
lemma SameSigned.digestFor_eq (h : SameSigned tx tx' i i' s s') :
    tx.digestFor i s = tx'.digestFor i' s' := by
  rw [digestFor_congr h.unsigned h.input, digestFor, digestFor, signedBytes, signedBytes, h.amount,
    h.script]

/-! ### Signing digests by position -/

variable {index index' : Nat}

lemma signingDigest_eq_ok (h : index < tx.inputs.length) (s : SpentOutput) :
    tx.signingDigest index s = .ok (tx.digestFor tx.inputs[index] s) :=
  inputDigest_eq_ok (List.getElem?_eq_getElem h)

/-- Replaced signature scripts leave all that a digest covers as it is. -/
lemma sameSigned_resealed (script : Nat → Bytes → Bytes) (version : UInt16)
    (h : index < tx.inputs.length) (h' : index < (tx.resealed script).inputs.length) :
    SameSigned (tx.resealed script) tx (tx.resealed script).inputs[index] tx.inputs[index]
      ⟨s.amount, ⟨version, s.scriptPublicKey.script⟩⟩ s := by
  refine ⟨unsigned_resealed tx script, ?_, rfl, rfl⟩
  simp [resealed, Input.cleared]

/-- A signing digest commits to all that it covers, and to nothing else. Two equal ones cover the
same unless byte strings that are hashed for them clash; and neither signature scripts nor the
version of the spent script make a difference. -/
theorem signingDigest_commits {tx tx' : Transaction} {index index' : Nat} {s s' : SpentOutput}
    (hindex : index < tx.inputs.length) (hindex' : index' < tx'.inputs.length)
    (htx : tx.Countable s) (htx' : tx'.Countable s') :
    (tx.signingDigest index s = tx'.signingDigest index' s' →
      Clash tx tx' tx.inputs[index] tx'.inputs[index'] s s' ∨
        SameSigned tx tx' tx.inputs[index] tx'.inputs[index'] s s') ∧
    (SameSigned tx tx' tx.inputs[index] tx'.inputs[index'] s s' →
      tx.signingDigest index s = tx'.signingDigest index' s') ∧
    ∀ script version,
      (tx.resealed script).signingDigest index ⟨s.amount, ⟨version, s.scriptPublicKey.script⟩⟩ =
        tx.signingDigest index s := by
  rw [signingDigest_eq_ok hindex, signingDigest_eq_ok hindex']
  refine ⟨?_, ?_, ?_⟩
  · intro h
    by_cases hclash : Clash tx tx' tx.inputs[index] tx'.inputs[index'] s s'
    · exact .inl hclash
    · exact .inr (sameSigned_of_digestFor_eq hclash htx htx' (Except.ok.inj h))
  · intro h
    rw [h.digestFor_eq]
  · intro script version
    have hlength : index < (tx.resealed script).inputs.length := by
      simpa [resealed] using hindex
    rw [signingDigest_eq_ok hlength,
      (sameSigned_resealed script version hindex hlength).digestFor_eq]

/-- What the one input of `split` spends. -/
def splitSource : SpentOutput := ⟨12500, .payToPublicKey (.zero 32)⟩

theorem split_signingDigest_commits :
    0 < split.inputs.length ∧ 0 < swapped.inputs.length ∧
      split.Countable splitSource ∧ swapped.Countable splitSource ∧
      (split.signingDigest 0 splitSource = swapped.signingDigest 0 splitSource →
        Clash split swapped split.inputs[0] swapped.inputs[0] splitSource splitSource) ∧
      ∀ script version,
        (split.resealed script).signingDigest 0
            ⟨splitSource.amount, ⟨version, splitSource.scriptPublicKey.script⟩⟩ =
          split.signingDigest 0 splitSource := by
  have hlength : split.payload.length = 300 := List.length_replicate
  have hpayload : split.payload.length < UInt64.size := by
    rw [hlength]
    decide
  have hsplit : split.Countable splitSource := ⟨by decide, hpayload, by decide⟩
  have hswapped : swapped.Countable splitSource := ⟨by decide, hpayload, by decide⟩
  have hinput : 0 < split.inputs.length := by decide
  have hinput' : 0 < swapped.inputs.length := by decide
  obtain ⟨hcommits, -, hresealed⟩ := signingDigest_commits hinput hinput' hsplit hswapped
  refine ⟨hinput, hinput', hsplit, hswapped, ?_, hresealed⟩
  intro h
  have hne : split.unsigned ≠ swapped.unsigned := by decide
  exact (hcommits h).resolve_right fun hsame => hne hsame.unsigned

end Transaction

end LedgerPost
