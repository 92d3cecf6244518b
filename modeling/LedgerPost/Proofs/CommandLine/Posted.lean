import LedgerPost.Proofs.CommandLine.Request
import LedgerPost.Proofs.CommandLine.Run
import LedgerPost.Proofs.Json.Spread
import LedgerPost.Proofs.Posting.Conservation
import LedgerPost.Proofs.Posting.Fee
import Mathlib.Algebra.Field.Rat

/-!
# Posts on the command line

The command line has nothing of a posted transaction but its documents, and does its sums again.
They come to what was found when the transaction was posted, on a draft without signatures.
-/

namespace LedgerPost

/-! ### Amounts in coins -/

namespace Amount

/-- The number of coins that digits with a decimal point spell. -/
def coins? (s : String) : Option ℚ :=
  let whole := s.toList.takeWhile Decimal.isDigit
  match s.toList.dropWhile Decimal.isDigit with
  | '.' :: places =>
    if whole ≠ [] ∧ places ≠ [] ∧ places.all Decimal.isDigit then
      some (Decimal.value whole + Decimal.value places / 10 ^ places.length)
    else none
  | _ => none

/-- Digits on both sides of a point are read. -/
lemma coins?_ofList {whole places : List Char} (hwhole : ∀ c ∈ whole, Decimal.isDigit c = true)
    (hplaces : ∀ c ∈ places, Decimal.isDigit c = true) (hne : whole ≠ []) (hne' : places ≠ []) :
    coins? (String.ofList (whole ++ '.' :: places)) =
      some (Decimal.value whole + Decimal.value places / 10 ^ places.length : ℚ) := by
  have hpoint : Text.Stops Decimal.isDigit ('.' :: places) := .cons (by decide)
  rw [coins?, String.toList_ofList, Text.takeWhile_append hwhole hpoint,
    Text.dropWhile_append hwhole hpoint]
  exact if_pos ⟨hne, hne', List.all_eq_true.mpr hplaces⟩

/-- The text of an amount spells it exactly. -/
theorem coins?_text (a : UInt64) :
    ∃ coins, coins? (text a) = some coins ∧ coins * 10 ^ 8 = a.toNat := by
  have hlength : (Decimal.padded 8 (a.toNat % perCoin)).length = 8 :=
    Decimal.length_padded (by decide) (Nat.mod_lt _ (by decide))
  refine ⟨((a.toNat / perCoin : Nat) + (a.toNat % perCoin : Nat) / 10 ^ 8 : ℚ), ?_, ?_⟩
  · rw [text, coins?_ofList, hlength, Decimal.value_digits, Decimal.value_padded]
    · exact fun _ hc => Decimal.isDigit_of_mem_digits hc
    · exact fun _ hc => Decimal.isDigit_of_mem_padded hc
    · exact Decimal.digits_ne_nil _
    · exact Decimal.padded_ne_nil _ _
  · have hsplit : (a.toNat : ℚ) =
        (a.toNat / perCoin : Nat) * 10 ^ 8 + (a.toNat % perCoin : Nat) := by
      have hnat := Nat.div_add_mod' a.toNat perCoin
      rw [perCoin] at hnat ⊢
      exact_mod_cast hnat.symm
    have hpower : (10 ^ 8 : ℚ) ≠ 0 := pow_ne_zero 8 (by decide)
    rw [hsplit, add_mul, div_mul_cancel₀ _ hpower]

end Amount

/-! ### The mass of a posted transaction -/

namespace Transaction

variable {tx : Transaction} {key : SecretKey} {spent : List UnspentOutput} {p : MassParameters}

/-- Placeholders weigh as much as the signatures that they take the place of. -/
lemma signedMass_signed (h : spent.length = tx.inputs.length) :
    (tx.signed key spent).signedMass p = (tx.signed key spent).computeMass p := by
  apply SameDimensions.computeMass_eq
  refine ⟨?_, rfl, rfl⟩
  rw [map_dimensions_withPlaceholders, map_dimensions_signed h]
  exact map_signed_inputs h fun _ _ => rfl

end Transaction

namespace Posting

variable {c : Config} {key : SecretKey} {sender : ScriptPublicKey} {payload : Bytes}
  {utxos : List UnspentOutput} {asked : Option Output} {posted : Posted}

lemma Posts.signedMass (h : Posts c key sender payload utxos asked posted) :
    posted.transaction.signedMass c.mass = .ok posted.computeMass := by
  obtain ⟨f, o, -, hassembled⟩ := h
  have hmass := hassembled.computeMass
  rw [hassembled.transaction] at hmass ⊢
  rw [Transaction.signedMass_signed (Transaction.length_draft_inputs ..), hmass]

end Posting

namespace CommandLine

/-- The document of a mass report that agrees with a posted transaction. -/
def IsMassDocument (p : MassParameters) (posted : Posted) (v : Json) : Prop :=
  ∃ (required : Nat) (fee : String) (coins : ℚ),
    v = .ofFields [
      ("computeMass", .ofNat posted.computeMass.toNat),
      ("fee", .ofText fee),
      ("requiredFee", .ofNat required),
      ("signedComputeMass", .ofNat posted.computeMass.toNat),
      ("storageMass", .ofNat posted.storageMass.toNat),
      ("withinStandardMass", .bool (posted.storageMass ≤ p.standardLimit))] ∧
    required = posted.computeMass.toNat + p.feeBuffer.toNat ∧ required ≤ posted.fee.toNat ∧
    Amount.coins? fee = some coins ∧ coins * 10 ^ 8 = posted.fee.toNat

variable {p : MassParameters} {posted : Posted} {utxos : List UnspentOutput}

lemma IsMassDocument.isSpelled {v : Json} (h : IsMassDocument p posted v) : v.IsSpelled := by
  obtain ⟨required, fee, coins, rfl, -⟩ := h
  simp

/-- What is reported about the consumed outputs is what was found when they were spent. -/
lemma StorageReport.make_eq_ok (hspends : posted.SpendsFrom utxos) (hbalanced : posted.Balanced)
    (hdescribed : posted.Described p) :
    StorageReport.make p posted.transaction (posted.spent.map UnspentOutput.spent) =
      .ok ⟨posted.storageMass, posted.storageMass ≤ p.standardLimit, some posted.fee⟩ := by
  have hlength : (posted.spent.map UnspentOutput.spent).length =
      posted.transaction.inputs.length := by
    rw [List.length_map, hspends.length_eq]
  have hamounts : (posted.spent.map UnspentOutput.spent).map (·.amount) =
      posted.spent.map (·.amount) := List.map_map
  have hsum := hbalanced.sum_eq
  have hbounded := hbalanced.bounded
  obtain ⟨inputs, hinputs⟩ := Amount.exists_ofNat_eq_ok hbounded
  obtain ⟨outputs, houtputs⟩ := Amount.exists_ofNat_eq_ok
    (n := Amount.exactSum (posted.transaction.outputs.map (·.value))) (by omega)
  have hins := Amount.ofNat_eq_ok_iff.mp hinputs
  have houts := Amount.ofNat_eq_ok_iff.mp houtputs
  have hle : outputs ≤ inputs := by
    rw [UInt64.le_iff_toNat_le]
    omega
  have hfee : inputs - outputs = posted.fee := by
    rw [← UInt64.toNat_inj, UInt64.toNat_sub_of_le _ _ hle]
    omega
  rw [make, if_neg (not_not.mpr hlength), hamounts, Amount.sum, hinputs, Amount.sum, houtputs,
    ← hdescribed.storageMass]
  change Except.ok _ = _
  rw [if_pos hle, hfee]

/-- What is reported about a posted transaction agrees with it. -/
lemma exists_massReport (hspends : posted.SpendsFrom utxos) (hbalanced : posted.Balanced)
    (hdescribed : posted.Described p)
    (hsigned : posted.transaction.signedMass p = .ok posted.computeMass)
    (henough : posted.computeMass.toNat + p.feeBuffer.toNat ≤ posted.fee.toNat) :
    ∃ report, MassReport.make p posted.transaction
        (some (posted.spent.map UnspentOutput.spent)) = .ok report ∧
      IsMassDocument p posted report.toJson := by
  have hsize := posted.fee.toNat_lt_size
  obtain ⟨required, hrequired⟩ := Amount.exists_ofNat_eq_ok
    (n := posted.computeMass.toNat + p.feeBuffer.toNat) (by omega)
  have hfee : posted.transaction.requiredFee p = .ok required := by
    rw [Transaction.requiredFee, hsigned]
    exact hrequired
  obtain ⟨coins, hcoins, hexact⟩ := Amount.coins?_text posted.fee
  refine ⟨⟨posted.computeMass, posted.computeMass, required, some ⟨posted.storageMass,
    posted.storageMass ≤ p.standardLimit, some posted.fee⟩⟩, ?_, required.toNat,
    Amount.text posted.fee, coins, rfl, ?_, ?_, hcoins, hexact⟩
  · rw [MassReport.make, hdescribed.computeMass, hsigned, hfee]
    change (StorageReport.make _ _ _ >>= _) = _
    rw [StorageReport.make_eq_ok hspends hbalanced hdescribed]
    rfl
  · exact Amount.ofNat_eq_ok_iff.mp hrequired
  · rw [Amount.ofNat_eq_ok_iff.mp hrequired]
    exact henough

/-! ### The command line -/

variable {m : Type → Type} [Monad m] [LawfulMonad m] {host : Host m} {config input spent : String}

/-- On the documents of a posted transaction and of the configuration that it was posted with, the
program prints the identifier and reports the fee and the masses that were found when it was posted.
This goes for every command line that asks for it, and for plain paths the usual ones do. -/
theorem run_posted {σ : Type} {p : Poster (Stateful σ)} {order : PostOrder} {s s' : σ}
    (h : (p.post order).run.run s = (.ok posted, s'))
    (hconfig : host.HasFile config p.config.toJson)
    (htx : host.Offers input posted.transaction.toJson)
    (hspent : host.Offers spent
      (Json.ofList SpentOutput.toJson (posted.spent.map UnspentOutput.spent))) :
    (∀ network args, Request.parse [] args = .ok ⟨network, some config, .txid input⟩ →
      run host [] args = pure ⟨0, line posted.transactionId.text, ""⟩) ∧
    (∃ output v, Json.parse? output = some v ∧ IsMassDocument p.config.mass posted v ∧
      ∀ network args, Request.parse [] args = .ok ⟨network, some config, .mass input (some spent)⟩ →
        run host [] args = pure ⟨0, output, ""⟩) ∧
    (IsPlainPath config → IsPlainPath input → IsPlainPath spent →
      Request.parse [] ["--config", config, "txid", input] =
          .ok ⟨.mainnet, some config, .txid input⟩ ∧
        Request.parse [] ["--config", config, "mass", input, "--spent", spent] =
          .ok ⟨.mainnet, some config, .mass input (some spent)⟩) := by
  obtain ⟨prepared, ciphertext, hfulfils⟩ := Poster.Fulfils.of_post h
  obtain ⟨payload, -, hposts⟩ := hfulfils.posts
  have hdescribed := hposts.described
  refine ⟨?_, ?_, ?_⟩
  · intro network args hparse
    rw [hdescribed.transactionId]
    exact run_eq p.valid hconfig hparse (output_txid htx)
  · obtain ⟨report, hreport, hdocument⟩ := exists_massReport hposts.spendsFrom
      (hposts.balanced hfulfils.asked_pos) hdescribed hposts.signedMass hfulfils.charges.enough
    refine ⟨line report.toJson.spread, report.toJson, ?_, hdocument, ?_⟩
    · exact Json.parse?_spread_line hdocument.isSpelled
    · intro network args hparse
      exact run_eq p.valid hconfig hparse (output_mass htx hspent hreport)
  · intro hconfig hinput hspent
    exact ⟨parse_txid hconfig hinput, parse_mass hconfig hinput hspent⟩

/-- The files of a posted transaction. -/
def archive (c : Config) (posted : Posted) : Host Id where
  file path :=
    if path = "config.json" then some c.toJson.compact
    else if path = "transaction.json" then some posted.transaction.toJson.compact
    else if path = "spent.json" then
      some (Json.ofList SpentOutput.toJson (posted.spent.map UnspentOutput.spent)).compact
    else none
  input := none

theorem run_coffee :
    ∃ posted, (Poster.plain.post .coffee).run.run () = (.ok posted, ()) ∧
      run (archive Poster.plain.config posted) []
          ["--config", "config.json", "txid", "transaction.json"] =
        ⟨0, line posted.transactionId.text, ""⟩ ∧
      ∃ output v, Json.parse? output = some v ∧
        IsMassDocument Poster.plain.config.mass posted v ∧
        run (archive Poster.plain.config posted) []
            ["--config", "config.json", "mass", "transaction.json", "--spent", "spent.json"] =
          ⟨0, output, ""⟩ := by
  obtain ⟨posted, h⟩ := exists_post_coffee
  have hconfig : (archive Poster.plain.config posted).HasFile "config.json"
      Poster.plain.config.toJson :=
    ⟨_, Json.parse?_compact (Config.faithful.isSpelled _), rfl⟩
  have htx : (archive Poster.plain.config posted).Offers "transaction.json"
      posted.transaction.toJson :=
    ⟨_, Json.parse?_compact (Transaction.faithful.isSpelled _), if_neg (by decide)⟩
  have hspent : (archive Poster.plain.config posted).Offers "spent.json"
      (Json.ofList SpentOutput.toJson (posted.spent.map UnspentOutput.spent)) :=
    ⟨_, Json.parse?_compact (SpentOutput.faithful.list.isSpelled _), if_neg (by decide)⟩
  obtain ⟨htxid, ⟨output, v, hparse, hdocument, hmass⟩, hrequests⟩ :=
    run_posted h hconfig htx hspent
  obtain ⟨htxid', hmass'⟩ := hrequests (by decide) (by decide) (by decide)
  exact ⟨posted, h, htxid _ _ htxid', output, v, hparse, hdocument, hmass _ _ hmass'⟩

end CommandLine

end LedgerPost
