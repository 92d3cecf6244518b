import LedgerPost.Proofs.Bytes.Text
import LedgerPost.Proofs.Ledger.Address
import Mathlib

/-!
# Spellings of an address

A text is read as an address when its payload spells the bytes of the address, in characters of five
bits each. Bits that are left over behind the last byte are not read, though the checksum covers
them. So what is written is read again, in either case, but an address has other spellings than the
one that is written: one for each choice of the bits that are left over.
-/

namespace LedgerPost

/-! ### Letter case -/

namespace Text

/-- The text with its ASCII letters in uppercase. -/
def upper (s : String) : String := String.ofList (s.toList.map Char.toUpper)

variable {s : String}

@[simp] lemma isMixedCase_upper (s : String) : isMixedCase (upper s) = false := by
  simp [isMixedCase, upper, Char.isLower_toUpper_eq_false]

@[simp] lemma lower_upper (s : String) : lower (upper s) = lower s := by
  simp [lower, upper, Function.comp_def, Char.toLower_toUpper_eq_toLower]

lemma isMixedCase_of_no_upper (h : ∀ c ∈ s.toList, c.isUpper = false) : isMixedCase s = false := by
  have hupper : s.toList.any Char.isUpper = false := by simpa using h
  rw [isMixedCase, hupper, Bool.false_and]

lemma lower_of_no_upper (h : ∀ c ∈ s.toList, c.isUpper = false) : lower s = s := by
  have hmap : s.toList.map Char.toLower = s.toList := by
    conv_rhs => rw [← List.map_id s.toList]
    apply List.map_congr_left
    intro c hc
    exact Char.toLower_eq_of_not_isUpper (by simp [h c hc])
  rw [lower, hmap, String.ofList_toList]

end Text

/-! ### Characters -/

namespace Base32

lemma getElem?_alphabet (q : Quintet) : alphabet[q.val]? = some (symbol q) := by
  have hlt : q.val < alphabet.length := q.isLt
  rw [List.getElem?_eq_getElem hlt, symbol, List.getD_eq_getElem _ _ hlt]

lemma toNat_symbol_injective : Function.Injective fun q => (symbol q).toNat := by
  have hnodup : (alphabet.map Char.toNat).Nodup := by decide
  intro q q' h
  dsimp only at h
  refine Fin.ext ((List.getElem?_inj q.isLt hnodup).mp ?_)
  rw [List.getElem?_map, List.getElem?_map, getElem?_alphabet, getElem?_alphabet, Option.map_some,
    Option.map_some, h]

lemma symbol_injective : Function.Injective symbol :=
  Function.Injective.of_comp (f := Char.toNat) toNat_symbol_injective

lemma isUpper_symbol (q : Quintet) : (symbol q).isUpper = false := by
  decide +revert

lemma symbol_lt (q : Quintet) : (symbol q).toNat < 128 := by
  decide +revert

lemma toUInt8_symbol_injective : Function.Injective fun q => (symbol q).toUInt8 := by
  have htoNat : ∀ q, (symbol q).toUInt8.toNat = (symbol q).toNat := fun q =>
    Nat.mod_eq_of_lt (Nat.lt_trans (symbol_lt q) (by decide))
  intro q q' h
  apply toNat_symbol_injective
  dsimp only at h ⊢
  rw [← htoNat, ← htoNat, h]

lemma quintet?_eq_some_iff {b : UInt8} {q : Quintet} :
    quintet? b = some q ↔ (symbol q).toUInt8 = b := by
  constructor
  · intro h
    simpa using List.find?_some h
  · rintro rfl
    cases h : quintet? (symbol q).toUInt8 with
    | none =>
      have hall := List.find?_eq_none.mp h q (List.mem_finRange q)
      simp at hall
    | some q' =>
      have hsame := List.find?_some h
      rw [decide_eq_true_eq] at hsame
      rw [toUInt8_symbol_injective hsame]

lemma filterMap_map_symbol (qs : List Quintet) :
    (qs.map symbol).filterMap (fun c => quintet? c.toUInt8) = qs := by
  have hread : (fun c => quintet? (Char.toUInt8 c)) ∘ symbol = some := by
    funext q
    exact quintet?_eq_some_iff.mpr rfl
  rw [List.filterMap_map, hread, List.filterMap_some]

lemma ofText_map_symbol (qs : List Quintet) :
    Bytes.ofText (String.ofList (qs.map symbol)) = qs.map fun q => (symbol q).toUInt8 := by
  rw [Bytes.ofText_ofList_of_lt, List.map_map]
  · rfl
  · intro c hc
    obtain ⟨q, -, rfl⟩ := List.mem_map.mp hc
    exact symbol_lt q

end Base32

@[simp] lemma Checksum.length_quintets (tag : String) (payload : List Base32.Quintet) :
    (quintets tag payload).length = 8 := by
  rw [quintets, Base32.length_ofBytes, Bytes.length_bigEndian]

/-- The characters of a payload and of its checksum. -/
def Checksum.characters (tag : String) (payload : List Base32.Quintet) : List Char :=
  (payload ++ quintets tag payload).map Base32.symbol

lemma Checksum.characters_inj {tag : String} {payload payload' : List Base32.Quintet} :
    characters tag payload = characters tag payload' ↔ payload = payload' := by
  constructor
  · intro h
    have hall := List.map_injective_iff.mpr Base32.symbol_injective h
    exact (List.append_inj' hall (by simp)).1
  · rintro rfl
    rfl

namespace Address

open Base32 (Quintet symbol bitsOfBytes bitsOfQuintets fillers)

variable {s : String} {tag : String} {rest lowered : List Char} {body payload : Bytes}
  {qs : List Quintet} {network : Network} {version : AddressVersion} {a : Address}

/-! ### What is read -/

lemma quintets_eq_ok_iff :
    quintets body = .ok qs ↔ body = qs.map fun q => (symbol q).toUInt8 := by
  induction body generalizing qs with
  | nil =>
    rw [quintets, Except.ok.injEq, List.nil_eq, List.nil_eq, List.map_eq_nil_iff]
  | cons b body ih =>
    rw [quintets]
    cases hb : Base32.quintet? b with
    | none =>
      simp only [reduceCtorEq, false_iff]
      intro h
      cases qs with
      | nil => simp at h
      | cons q qs =>
        rw [List.map_cons, List.cons.injEq] at h
        rw [Base32.quintet?_eq_some_iff.mpr h.1.symm] at hb
        cases hb
    | some q =>
      rw [Base32.quintet?_eq_some_iff] at hb
      simp only [map_eq_ok, ih]
      constructor
      · rintro ⟨qs, rfl, rfl⟩
        simp [hb]
      · intro h
        cases qs with
        | nil => simp at h
        | cons q' qs =>
          rw [List.map_cons, List.cons.injEq] at h
          have hq : q = q' := Base32.toUInt8_symbol_injective (hb.trans h.1)
          exact ⟨qs, h.2, by rw [hq]⟩

lemma contents_eq_ok_iff : contents tag (Bytes.ofText (String.ofList rest)) = .ok payload ↔
    ∃ qs, rest = Checksum.characters tag qs ∧ Base32.toBytes qs = payload := by
  constructor
  · intro h
    obtain ⟨all, hall, h⟩ := bind_eq_ok.mp h
    dsimp only at h
    split at h
    · rename_i hchecksum
      cases h
      refine ⟨all.take (all.length - 8), ?_, rfl⟩
      rw [quintets_eq_ok_iff, ← Base32.ofText_map_symbol] at hall
      rw [Checksum.characters, ← hchecksum, List.take_append_drop]
      exact String.ofList_injective (Bytes.ofText_inj hall)
    · cases h
  · rintro ⟨qs, rfl, rfl⟩
    have hall : quintets (Bytes.ofText (String.ofList (Checksum.characters tag qs))) =
        .ok (qs ++ Checksum.quintets tag qs) := by
      rw [quintets_eq_ok_iff, Checksum.characters, Base32.ofText_map_symbol]
    have hlength : (qs ++ Checksum.quintets tag qs).length - 8 = qs.length := by simp
    rw [contents, hall]
    change (if _ then _ else _) = _
    rw [hlength, List.take_left, List.drop_left, if_pos rfl]
    rfl

lemma ne_colon_of_mem_addressTag {c : Char} (h : c ∈ network.addressTag.toList) : c ≠ ':' := by
  rintro rfl
  cases network <;> simp [Network.addressTag] at h

lemma isUpper_of_mem_addressTag {c : Char} (h : c ∈ network.addressTag.toList) :
    c.isUpper = false := by
  have hall : ∀ c ∈ network.addressTag.toList, c.isUpper = false := by
    cases network <;> simp [Network.addressTag]
  exact hall c h

/-- The parts of a text in lowercase: a tag, a colon, and the characters of a payload. -/
lemma parts_eq_ok_iff : parts lowered = .ok (network, version, payload) ↔
    ∃ qs, lowered = network.addressTag.toList ++ ':' :: Checksum.characters network.addressTag qs ∧
      53 ≤ qs.length ∧ Base32.toBytes qs = version.byte :: payload := by
  constructor
  · intro h
    obtain ⟨rest, hlowered, hlength, hcontents⟩ := parts_eq_ok h
    obtain ⟨qs, rfl, hbytes⟩ := contents_eq_ok_iff.mp hcontents
    refine ⟨qs, hlowered, ?_, hbytes⟩
    rw [Checksum.characters, Base32.ofText_map_symbol] at hlength
    simpa [minLength] using hlength
  · rintro ⟨qs, rfl, hlength, hbytes⟩
    have htag : ∀ c ∈ network.addressTag.toList, decide (c ≠ ':') = true := fun c hc =>
      decide_eq_true (ne_colon_of_mem_addressTag hc)
    have hbody : ¬ (Bytes.ofText (String.ofList
        (Checksum.characters network.addressTag qs))).length < minLength := by
      rw [Checksum.characters, Base32.ofText_map_symbol]
      simp [minLength, hlength]
    have hcontents : contents network.addressTag (Bytes.ofText (String.ofList
        (Checksum.characters network.addressTag qs))) = .ok (version.byte :: payload) :=
      contents_eq_ok_iff.mpr ⟨qs, rfl, hbytes⟩
    rw [parts, List.takeWhile_append_of_pos htag, List.dropWhile_append_of_pos htag]
    simp only [ne_eq, decide_not, List.takeWhile_cons, List.dropWhile_cons, decide_true,
      Bool.not_true, Bool.false_eq_true, if_false, List.append_nil, String.ofList_toList]
    rw [if_neg hbody]
    simp only [Network.ofAddressTag?_addressTag, hcontents, bind, Except.bind,
      AddressVersion.ofByte?_byte, pure, Except.pure]

/-! ### Spellings -/

/-- The bytes that the text of an address spells. -/
def bytes (a : Address) : Bytes := a.version.byte :: a.payload.toList

@[simp] lemma length_bytes (a : Address) : a.bytes.length = a.version.size + 1 := by
  simp [bytes, a.payload.length_toList]

/-- The text of an address with the given quintets as its payload. -/
def spelledBy (a : Address) (qs : List Quintet) : String :=
  String.ofList
    (a.network.addressTag.toList ++ ':' :: Checksum.characters a.network.addressTag qs)

lemma text_eq_spelledBy (a : Address) : a.text = a.spelledBy (Base32.ofBytes a.bytes) := rfl

lemma spelledBy_inj {qs qs' : List Quintet} : a.spelledBy qs = a.spelledBy qs' ↔ qs = qs' := by
  rw [spelledBy, spelledBy, String.ofList_inj, List.append_cancel_left_eq, List.cons.injEq,
    Checksum.characters_inj]
  simp

lemma isUpper_of_mem_spelledBy {c : Char} (h : c ∈ (a.spelledBy qs).toList) :
    c.isUpper = false := by
  rw [spelledBy, String.toList_ofList, List.mem_append, List.mem_cons] at h
  rcases h with h | rfl | h
  · exact isUpper_of_mem_addressTag h
  · rfl
  · obtain ⟨q, -, rfl⟩ := List.mem_map.mp h
    exact Base32.isUpper_symbol q

/-- A text is read as an address exactly if it spells the bytes of the address. -/
theorem parse_eq_ok_iff : parse s = .ok a ↔ Text.isMixedCase s = false ∧
    ∃ qs, Text.lower s = a.spelledBy qs ∧ Base32.toBytes qs = a.bytes := by
  constructor
  · intro h
    rw [parse] at h
    split at h
    · cases h
    · rename_i hcase
      split at h
      · cases h
      · rename_i network version payload hparts
        split at h
        · rename_i block hblock
          cases h
          obtain ⟨qs, hlowered, -, hbytes⟩ := parts_eq_ok_iff.mp hparts
          refine ⟨by simpa using hcase, qs, ?_, ?_⟩
          · rw [spelledBy, ← hlowered, String.ofList_toList]
          · rw [hbytes, bytes, Block.ofList?_eq_some_iff.mp hblock]
        · cases h
  · rintro ⟨hcase, qs, hlower, hbytes⟩
    have hlength : 53 ≤ qs.length := by
      have hsize : 32 ≤ a.version.size := by cases a.version <;> decide
      have hcount := congrArg List.length hbytes
      rw [Base32.length_toBytes, length_bytes] at hcount
      omega
    have hparts : parts (Text.lower s).toList = .ok (a.network, a.version, a.payload.toList) := by
      rw [parts_eq_ok_iff, hlower, spelledBy, String.toList_ofList]
      exact ⟨qs, rfl, hlength, hbytes⟩
    rw [parse, hcase, if_neg Bool.false_ne_true, hparts]
    dsimp only
    rw [Block.ofList?_toList]

/-- Spellings are in lowercase. -/
lemma lower_spelledBy (a : Address) (qs : List Quintet) :
    Text.lower (a.spelledBy qs) = a.spelledBy qs :=
  Text.lower_of_no_upper fun _ => isUpper_of_mem_spelledBy

lemma isMixedCase_spelledBy (a : Address) (qs : List Quintet) :
    Text.isMixedCase (a.spelledBy qs) = false :=
  Text.isMixedCase_of_no_upper fun _ => isUpper_of_mem_spelledBy

/-- What is written is read again, in lowercase or in uppercase. -/
lemma parse_text (hs : s = a.text ∨ s = Text.upper a.text) : parse s = .ok a := by
  rw [text_eq_spelledBy] at hs
  rw [parse_eq_ok_iff]
  refine ⟨?_, Base32.ofBytes a.bytes, ?_, Base32.toBytes_ofBytes a.bytes⟩
  · rcases hs with rfl | rfl
    · exact isMixedCase_spelledBy a _
    · exact Text.isMixedCase_upper _
  · rcases hs with rfl | rfl
    · exact lower_spelledBy a _
    · rw [Text.lower_upper, lower_spelledBy]

/-- The resolver of a network finds the addresses of that network, and refuses all others. -/
lemma resolver_of_parse (h : parse s = .ok a) (network : Network) :
    network.resolver s = if a.network = network then .ok a.script
      else .error (.invalidAddress s (.otherNetwork a.network network)) := by
  rw [Network.resolver, parseOn, h]
  change Except.map script (if a.network = network then .ok a else .error _) = _
  split
  · rfl
  · rfl

/-- An address of the right length is made, and its text is read as that address and nothing else,
in lowercase or in uppercase. It is resolved on its network and refused on every other. -/
theorem text_roundtrip (network : Network) (version : AddressVersion) (payload : Bytes)
    (h : payload.length = version.size) :
    ∃ a, ofPayload network version payload = .ok a ∧ a.network = network ∧ a.version = version ∧
      a.payload.toList = payload ∧ ∀ s, s = a.text ∨ s = Text.upper a.text →
        parse s = .ok a ∧ network.resolver s = .ok a.script ∧ ∀ other, other ≠ network →
          other.resolver s = .error (.invalidAddress s (.otherNetwork network other)) := by
  refine ⟨⟨network, version, payload, h⟩, ?_, rfl, rfl, rfl, ?_⟩
  · rw [ofPayload, Block.ofList?, dif_pos h]
  · intro s hs
    have hparse := parse_text hs
    refine ⟨hparse, ?_, ?_⟩
    · rw [resolver_of_parse hparse, if_pos rfl]
    · intro other hother
      rw [resolver_of_parse hparse, if_neg hother.symm]

/-- The address of a script on the network for tests. -/
theorem script_text_roundtrip :
    ∃ a, ofPayload .testnet .scriptHash (List.replicate 32 0x3c) = .ok a ∧
      parse a.text = .ok a ∧ parse (Text.upper a.text) = .ok a ∧
      Network.testnet.resolver a.text = .ok a.script ∧
      Network.mainnet.resolver a.text =
        .error (.invalidAddress a.text (.otherNetwork .testnet .mainnet)) := by
  obtain ⟨a, hmade, -, -, -, hread⟩ :=
    text_roundtrip .testnet .scriptHash (List.replicate 32 0x3c) rfl
  obtain ⟨hlower, hresolved, hrefused⟩ := hread a.text (.inl rfl)
  obtain ⟨hupper, -, -⟩ := hread (Text.upper a.text) (.inr rfl)
  exact ⟨a, hmade, hlower, hupper, hresolved, hrefused .mainnet (by decide)⟩

/-! ### Bits that are left over -/

/-- The quintets of the payload of a text: those between the colon and the checksum. -/
def payloadQuintets (s : String) : List Quintet :=
  let body := ((Text.lower s).toList.dropWhile (· ≠ ':')).tail
  (body.take (body.length - 8)).filterMap fun c => Base32.quintet? c.toUInt8

/-- The bits that the payload of a text leaves over behind its last byte. -/
def strayBits (s : String) : List Bool :=
  (bitsOfQuintets (payloadQuintets s)).drop (8 * (Base32.toBytes (payloadQuintets s)).length)

lemma payloadQuintets_of_lower_eq (h : Text.lower s = a.spelledBy qs) : payloadQuintets s = qs := by
  have htag : ∀ c ∈ a.network.addressTag.toList, decide (c ≠ ':') = true := fun c hc =>
    decide_eq_true (ne_colon_of_mem_addressTag hc)
  have hbody : ((Text.lower s).toList.dropWhile (· ≠ ':')).tail =
      Checksum.characters a.network.addressTag qs := by
    rw [h, spelledBy, String.toList_ofList, List.dropWhile_append_of_pos htag]
    simp
  have hlength : (Checksum.characters a.network.addressTag qs).length - 8 = qs.length := by
    simp [Checksum.characters]
  rw [payloadQuintets, hbody, hlength, Checksum.characters, List.map_append,
    List.take_left' (List.length_map _), Base32.filterMap_map_symbol]

/-- The spelling of an address with the given bits left over. -/
def spelling (a : Address) (stray : List Bool) : String :=
  a.spelledBy (Base32.quintetsOfBits (bitsOfBytes a.bytes ++ stray))

lemma strayBits_of_lower_eq {stray : List Bool} (h : Text.lower s = a.spelledBy qs)
    (hbits : bitsOfQuintets qs = bitsOfBytes a.bytes ++ stray) (hlt : stray.length < 8) :
    strayBits s = stray := by
  rw [strayBits, payloadQuintets_of_lower_eq h, Base32.toBytes_eq_iff.mpr ⟨stray, hlt, hbits⟩,
    hbits, ← Base32.length_bitsOfBytes, List.drop_left]

/-- The payload of a text that is read as an address: the bytes of the address, and what they leave
over, which is less than a byte and fills up the last character. -/
lemma exists_payload_of_parse (h : parse s = .ok a) :
    ∃ qs, Text.lower s = a.spelledBy qs ∧ bitsOfQuintets qs = bitsOfBytes a.bytes ++ strayBits s ∧
      (strayBits s).length < 8 ∧ (8 * a.bytes.length + (strayBits s).length) % 5 = 0 := by
  obtain ⟨-, qs, hlower, hbytes⟩ := parse_eq_ok_iff.mp h
  obtain ⟨stray, hlt, hbits⟩ := Base32.toBytes_eq_iff.mp hbytes
  have hlength := congrArg List.length hbits
  rw [Base32.length_bitsOfQuintets, List.length_append, Base32.length_bitsOfBytes] at hlength
  rw [strayBits_of_lower_eq hlower hbits hlt]
  exact ⟨qs, hlower, hbits, hlt, by omega⟩

/-- Whatever bits are left over, as long as they fill up the last character, the text is read. -/
theorem parse_spelling {stray : List Bool} (hlt : stray.length < 8)
    (hfills : (8 * a.bytes.length + stray.length) % 5 = 0) :
    parse (a.spelling stray) = .ok a ∧ strayBits (a.spelling stray) = stray := by
  have hbits : bitsOfQuintets (Base32.quintetsOfBits (bitsOfBytes a.bytes ++ stray)) =
      bitsOfBytes a.bytes ++ stray := by
    apply Base32.bitsOfQuintets_quintetsOfBits
    rw [List.length_append, Base32.length_bitsOfBytes, hfills]
  constructor
  · rw [parse_eq_ok_iff]
    exact ⟨isMixedCase_spelledBy .., _, lower_spelledBy ..,
      Base32.toBytes_eq_iff.mpr ⟨stray, hlt, hbits⟩⟩
  · exact strayBits_of_lower_eq (lower_spelledBy ..) hbits hlt

/-- A text that is read as an address is the spelling of that address with the bits that it leaves
over. It is the text that is written, but for letter case, exactly if these bits are zeros and too
few for a character. Other texts with the same bits left over differ in letter case alone. -/
theorem text_eq_lower_iff (h : parse s = .ok a) :
    (strayBits s).length < 8 ∧ Text.lower s = a.spelling (strayBits s) ∧
      (a.text = Text.lower s ↔ (strayBits s).length < 5 ∧ ∀ b ∈ strayBits s, b = false) ∧
      ∀ s', parse s' = .ok a → strayBits s' = strayBits s → Text.lower s' = Text.lower s := by
  have hspelling : ∀ s', parse s' = .ok a → Text.lower s' = a.spelling (strayBits s') := by
    intro s' h'
    obtain ⟨qs, hlower, hbits, -, -⟩ := exists_payload_of_parse h'
    rw [hlower, spelling, ← hbits, Base32.quintetsOfBits_bitsOfQuintets]
  obtain ⟨qs, hlower, hbits, hlt, hfills⟩ := exists_payload_of_parse h
  refine ⟨hlt, hspelling s h, ?_, ?_⟩
  · calc
      a.text = Text.lower s ↔ Base32.ofBytes a.bytes = qs := by
        rw [hlower, text_eq_spelledBy, spelledBy_inj]
      _ ↔ fillers (8 * a.bytes.length) = strayBits s := by
        rw [← Base32.bitsOfQuintets_injective.eq_iff, Base32.bitsOfQuintets_ofBytes, hbits,
          List.append_cancel_left_eq]
      _ ↔ (strayBits s).length < 5 ∧ ∀ b ∈ strayBits s, b = false := by
        rw [eq_comm, Base32.eq_fillers_iff hfills]
  · intro s' h' hstray
    rw [hspelling s' h', hspelling s h, hstray]

/-- The address of the key of zeros, with a bit left over that is not zero. -/
def strayText : String := "kaspa:qqqqqqqqqqqqqqqqqqqqqqqqqqqqqqqqqqqqqqqqqqqqqqqqqqqqp99ukhzxc"

lemma strayText_eq : strayText = (Address.mk .mainnet .publicKey (.zero 32)).spelling [true] := by
  decide +kernel

lemma parse_strayText : parse strayText = .ok ⟨.mainnet, .publicKey, .zero 32⟩ := by
  rw [strayText_eq]
  exact (parse_spelling (by decide) (by decide)).1

theorem stray_is_not_written :
    parse strayText = .ok ⟨.mainnet, .publicKey, .zero 32⟩ ∧ strayBits strayText = [true] ∧
      Text.lower strayText = (Address.mk .mainnet .publicKey (.zero 32)).spelling [true] ∧
      (Address.mk .mainnet .publicKey (.zero 32)).text ≠ Text.lower strayText := by
  have hbits : strayBits strayText = [true] := by
    rw [strayText_eq]
    exact (parse_spelling (by decide) (by decide)).2
  obtain ⟨-, hspelling, hiff, -⟩ := text_eq_lower_iff parse_strayText
  rw [hbits] at hspelling hiff
  refine ⟨parse_strayText, hbits, hspelling, ?_⟩
  rw [ne_eq, hiff]
  simp

/-- A text that is read as an address need not be the one that is written, so an address has texts
that differ in more than letter case. -/
theorem stray_is_rewritten :
    parse strayText = .ok ⟨.mainnet, .publicKey, .zero 32⟩ ∧
      (Address.mk .mainnet .publicKey (.zero 32)).text =
        "kaspa:qqqqqqqqqqqqqqqqqqqqqqqqqqqqqqqqqqqqqqqqqqqqqqqqqqqqqkx9awp4e" ∧
      (Address.mk .mainnet .publicKey (.zero 32)).text ≠ Text.lower strayText := by
  have htext : (Address.mk .mainnet .publicKey (.zero 32)).text =
      "kaspa:qqqqqqqqqqqqqqqqqqqqqqqqqqqqqqqqqqqqqqqqqqqqqqqqqqqqqkx9awp4e" := by
    decide +kernel
  have hlower : Text.lower strayText = strayText := by
    rw [strayText_eq]
    exact lower_spelledBy ..
  refine ⟨parse_strayText, htext, ?_⟩
  rw [htext, hlower]
  simp [strayText]

end Address

end LedgerPost
