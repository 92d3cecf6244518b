import LedgerPost.Message.Frame
import LedgerPost.Proofs.Bytes.Base64
import LedgerPost.Proofs.Bytes.Hex
import Mathlib.Data.List.TakeWhile

/-!
# Frames that are read

A payload is read as a frame exactly if it is what the frame is written as, where hexadecimal
digits may be in either case. A frame is a front (a tag, and a label for two of the kinds) and the
characters of its ciphertext; the front ends where the tag and the first colon say, so the
characters can be told apart from it whatever bytes they are.
-/

namespace LedgerPost

namespace Frame

variable {b written rest ds ciphertext : Bytes} {s : String} {f g : Frame}

/-! ### Tags -/

lemma untag?_eq_some {t : Bytes} : untag? t b = some rest ↔ b = t ++ rest := by
  constructor
  · intro h
    rw [untag?] at h
    split at h
    case isTrue hprefix =>
      obtain ⟨more, rfl⟩ := List.isPrefixOf_iff_prefix.mp hprefix
      rw [List.drop_left] at h
      rw [Option.some.inj h]
    case isFalse => cases h
  · rintro rfl
    have hprefix : t.isPrefixOf (t ++ rest) = true :=
      List.isPrefixOf_iff_prefix.mpr (List.prefix_append t rest)
    rw [untag?, if_pos hprefix, List.drop_left]

/-- No tag begins another. -/
lemma eq_of_tag_start {k k' : FrameKind} (h : tag k <+: tag k') : k = k' := by
  cases k <;> cases k' <;> first | rfl | exact absurd h (by decide)

/-- What starts with the tag of a kind does not start with that of another. -/
lemma untag?_tag_append {k k' : FrameKind} (h : k ≠ k') :
    untag? (tag k) (tag k' ++ rest) = none := by
  cases huntag : untag? (tag k) (tag k' ++ rest) with
  | none => rfl
  | some more =>
    have hprefix : tag k <+: tag k' ++ rest := ⟨more, (untag?_eq_some.mp huntag).symm⟩
    obtain hkk | hkk := List.prefix_or_prefix_of_prefix hprefix (List.prefix_append _ rest)
    · exact absurd (eq_of_tag_start hkk) h
    · exact absurd (eq_of_tag_start hkk).symm h

/-! ### Labels -/

/-- A label that can stand in a frame is not empty and has no colon. -/
def IsLabel (s : String) : Prop := s.toList ≠ [] ∧ ':' ∉ s.toList

lemma labelBytes_eq_ok {role : LabelRole} :
    labelBytes role s = .ok b ↔ IsLabel s ∧ b = Bytes.ofText s ++ [separator] := by
  unfold labelBytes IsLabel
  split
  case isTrue hnil => simp [hnil]
  split
  case isTrue hcolon =>
    rw [List.contains_iff_mem] at hcolon
    simp [hcolon]
  case isFalse hne hcolon =>
    rw [List.contains_iff_mem] at hcolon
    simp [hne, hcolon, eq_comm]

/-- The separator stands among the bytes of a text exactly if a colon stands in the text. -/
lemma separator_mem_ofText : separator ∈ Bytes.ofText s ↔ ':' ∈ s.toList :=
  Bytes.mem_ofText (c := ':') (by decide)

/-- The label in front of the first colon is cut off. -/
lemma splitLabel?_eq_some :
    splitLabel? b = some (s, rest) ↔ IsLabel s ∧ b = Bytes.ofText s ++ separator :: rest := by
  constructor
  · intro h
    have hjoin : b.takeWhile (· ≠ separator) ++ b.dropWhile (· ≠ separator) = b :=
      List.takeWhile_append_dropWhile
    have hmem : separator ∉ b.takeWhile (· ≠ separator) := by
      intro hmem
      simpa using List.mem_takeWhile_imp hmem
    rw [splitLabel?] at h
    split at h
    · cases h
    case _ c more hdrop =>
      split at h
      · cases h
      case isFalse hne =>
        obtain ⟨label, hlabel, heq⟩ := Option.map_eq_some_iff.mp h
        obtain ⟨rfl, rfl⟩ := Prod.mk.inj heq
        have hc : c = separator := by
          have hhead := List.head?_dropWhile_not (· ≠ separator) b
          rw [hdrop] at hhead
          simpa using hhead
        rw [Bytes.text?_eq_some] at hlabel
        rw [hlabel] at hne hmem hjoin
        refine ⟨⟨?_, ?_⟩, ?_⟩
        · exact fun hnil => hne (Bytes.ofText_eq_nil.mpr hnil)
        · exact fun hcolon => hmem (separator_mem_ofText.mpr hcolon)
        · rw [← hjoin, hdrop, hc]
  · rintro ⟨⟨hne, hcolon⟩, rfl⟩
    have hfree : ∀ c ∈ Bytes.ofText s, decide (c ≠ separator) = true := by
      intro c hc
      have hc' : c ≠ separator := by
        rintro rfl
        exact hcolon (separator_mem_ofText.mp hc)
      exact decide_eq_true hc'
    have hne' : Bytes.ofText s ≠ [] := fun hnil => hne (Bytes.ofText_eq_nil.mp hnil)
    rw [splitLabel?, List.takeWhile_append_of_pos hfree, List.dropWhile_append_of_pos hfree]
    simp [hne']

/-! ### Ciphertexts -/

lemma nonEmpty?_eq_some : nonEmpty? b = some ciphertext ↔ ciphertext ≠ [] ∧ b = ciphertext := by
  unfold nonEmpty?
  split
  · rename_i h
    simp only [false_iff, not_and, h, reduceCtorEq]
    exact fun hne heq => hne heq.symm
  · rename_i h
    rw [Option.some.injEq]
    exact ⟨fun heq => ⟨heq ▸ h, heq⟩, fun heq => heq.2⟩

lemma unbase64_eq_some :
    (Base64.decode? b).bind nonEmpty? = some ciphertext ↔
      ciphertext ≠ [] ∧ b = Base64.encode ciphertext := by
  rw [Option.bind_eq_some_iff]
  constructor
  · rintro ⟨bs, hdecode, hne⟩
    obtain ⟨hne, rfl⟩ := nonEmpty?_eq_some.mp hne
    exact ⟨hne, Base64.decode?_eq_some.mp hdecode⟩
  · rintro ⟨hne, hb⟩
    exact ⟨ciphertext, Base64.decode?_eq_some.mpr hb, nonEmpty?_eq_some.mpr ⟨hne, rfl⟩⟩

lemma unhex?_eq_some :
    unhex? ds = some ciphertext ↔
      ciphertext ≠ [] ∧ ds.map Hex.lowered = hexBytes ciphertext := by
  rw [unhex?, Option.bind_eq_some_iff]
  constructor
  · rintro ⟨bs, hdecode, hne⟩
    obtain ⟨hne, rfl⟩ := nonEmpty?_eq_some.mp hne
    cases hok : Hex.decodeDigits ds with
    | error e =>
      rw [hok] at hdecode
      cases hdecode
    | ok bs' =>
      rw [hok] at hdecode
      obtain rfl := Option.some.inj hdecode
      exact ⟨hne, Hex.decodeDigits_eq_ok.mp hok⟩
  · rintro ⟨hne, hdigits⟩
    refine ⟨ciphertext, ?_, nonEmpty?_eq_some.mpr ⟨hne, rfl⟩⟩
    rw [Hex.decodeDigits_eq_ok.mpr hdigits]
    rfl

/-! ### Fronts and characters -/

/-- What stands in a frame in front of its ciphertext. -/
def front : Frame → Bytes
  | .handshake _ => tag .handshake
  | .contextual nickname _ => tag .contextual ++ (Bytes.ofText nickname ++ [separator])
  | .payment _ => tag .payment
  | .selfStash scope _ => tag .selfStash ++ (Bytes.ofText scope ++ [separator])

/-- The characters that the ciphertext of a frame is written in. -/
def characters : Frame → Bytes
  | .handshake ciphertext => ciphertext
  | .contextual _ ciphertext => Base64.encode ciphertext
  | .payment ciphertext => hexBytes ciphertext
  | .selfStash _ ciphertext => hexBytes ciphertext

/-- Whether the ciphertext of a frame is written in hexadecimal digits. -/
def InDigits (f : Frame) : Prop := f.kind = .payment ∨ f.kind = .selfStash

/-- A frame that can be written has a ciphertext, and a label that can stand in it. -/
def Writable (f : Frame) : Prop :=
  f.ciphertext ≠ [] ∧ ∀ role s, f.label? = some (role, s) → IsLabel s

/-- Characters are those of a frame, where hexadecimal digits may be in either case. -/
def Spells (f : Frame) (cs : Bytes) : Prop :=
  cs = f.characters ∨ f.InDigits ∧ cs.map Hex.lowered = f.characters

lemma spells_of_digits (hdigits : f.InDigits) {cs : Bytes} :
    f.Spells cs ↔ cs.map Hex.lowered = hexBytes f.ciphertext := by
  have hcharacters : f.characters = hexBytes f.ciphertext := by
    cases f <;> simp_all [InDigits, kind, characters, Frame.ciphertext]
  unfold Spells
  rw [hcharacters]
  constructor
  · rintro (rfl | ⟨-, h⟩)
    · exact Hex.map_lowered_ofText_encode f.ciphertext
    · exact h
  · intro h
    exact Or.inr ⟨hdigits, h⟩

lemma spells_of_not_digits (hdigits : ¬ f.InDigits) {cs : Bytes} :
    f.Spells cs ↔ cs = f.characters := by
  simp [Spells, hdigits]

/-- A frame is written if it can be, as its front and its characters. -/
lemma encode_eq_ok : f.encode = .ok written ↔ f.Writable ∧ written = f.front ++ f.characters := by
  unfold encode Writable
  split
  case isTrue hnil => simp [hnil]
  case isFalse hne =>
    cases f with
    | handshake c => simp [label?, front, characters, hne, eq_comm]
    | contextual nickname c =>
      simp only [map_eq_ok, labelBytes_eq_ok, label?, front, characters]
      simp [hne, eq_comm]
    | payment c => simp [label?, front, characters, hne, eq_comm]
    | selfStash scope c =>
      simp only [map_eq_ok, labelBytes_eq_ok, label?, front, characters]
      simp [hne, eq_comm]

lemma labelBytes_eq_error {role : LabelRole} {e : Error} (h : labelBytes role s = .error e) :
    ∃ fault, e = .invalidPayload fault := by
  rw [labelBytes] at h
  split at h
  · cases h
    exact ⟨.emptyLabel role, rfl⟩
  · split at h
    · cases h
      exact ⟨.separatorInLabel role, rfl⟩
    · cases h

/-- A frame that is not written is at fault. -/
lemma encode_eq_error {e : Error} (h : f.encode = .error e) :
    ∃ fault, e = .invalidPayload fault := by
  unfold encode at h
  split at h
  · cases h
    exact ⟨.emptyCiphertext, rfl⟩
  · cases f with
    | handshake c => cases h
    | contextual nickname c => exact labelBytes_eq_error (map_eq_error.mp h)
    | payment c => cases h
    | selfStash scope c => exact labelBytes_eq_error (map_eq_error.mp h)

/-! ### Reading -/

lemma decode?_handshake : decode? (tag .handshake ++ rest) = (nonEmpty? rest).map .handshake := by
  rw [decode?, untag?_eq_some.mpr rfl]

lemma decode?_contextual :
    decode? (tag .contextual ++ rest) =
      (splitLabel? rest).bind fun labelled =>
        ((Base64.decode? labelled.2).bind nonEmpty?).map (.contextual labelled.1) := by
  rw [decode?, untag?_tag_append (by decide), untag?_eq_some.mpr rfl]
  simp only [Option.map_eq_bind]
  rfl

lemma decode?_payment : decode? (tag .payment ++ rest) = (unhex? rest).map .payment := by
  rw [decode?, untag?_tag_append (by decide), untag?_tag_append (by decide),
    untag?_eq_some.mpr rfl]

lemma decode?_selfStash :
    decode? (tag .selfStash ++ rest) =
      (splitLabel? rest).bind fun labelled => (unhex? labelled.2).map (.selfStash labelled.1) := by
  rw [decode?, untag?_tag_append (by decide), untag?_tag_append (by decide),
    untag?_tag_append (by decide), untag?_eq_some.mpr rfl]
  simp only [Option.map_eq_bind]
  rfl

/-- Only a payload that starts with a tag is read. -/
lemma exists_tag_of_decode? (h : decode? b = some f) : ∃ k rest, b = tag k ++ rest := by
  by_contra! hno
  have huntag : ∀ k, untag? (tag k) b = none := by
    intro k
    cases hk : untag? (tag k) b with
    | none => rfl
    | some rest => exact absurd (untag?_eq_some.mp hk) (hno k rest)
  rw [decode?, huntag, huntag, huntag, huntag] at h
  cases h

/-- A payload is read as a frame that can be written, from its front and its characters. -/
lemma decode?_eq_some :
    decode? b = some f ↔ f.Writable ∧ ∃ cs, b = f.front ++ cs ∧ f.Spells cs := by
  constructor
  · intro h
    obtain ⟨k, rest, rfl⟩ := exists_tag_of_decode? h
    cases k with
    | handshake =>
      rw [decode?_handshake] at h
      obtain ⟨c, hc, rfl⟩ := Option.map_eq_some_iff.mp h
      obtain ⟨hne, rfl⟩ := nonEmpty?_eq_some.mp hc
      exact ⟨⟨hne, by simp [label?]⟩, rest, rfl, Or.inl rfl⟩
    | contextual =>
      rw [decode?_contextual] at h
      obtain ⟨⟨nickname, cs⟩, hsplit, h⟩ := Option.bind_eq_some_iff.mp h
      obtain ⟨c, hc, rfl⟩ := Option.map_eq_some_iff.mp h
      obtain ⟨hlabel, rfl⟩ := splitLabel?_eq_some.mp hsplit
      obtain ⟨hne, rfl⟩ := unbase64_eq_some.mp hc
      exact ⟨⟨hne, by simp [label?, hlabel]⟩, Base64.encode c, by simp [front], Or.inl rfl⟩
    | payment =>
      rw [decode?_payment] at h
      obtain ⟨c, hc, rfl⟩ := Option.map_eq_some_iff.mp h
      obtain ⟨hne, hdigits⟩ := unhex?_eq_some.mp hc
      exact ⟨⟨hne, by simp [label?]⟩, _, rfl, Or.inr ⟨Or.inl rfl, hdigits⟩⟩
    | selfStash =>
      rw [decode?_selfStash] at h
      obtain ⟨⟨scope, ds⟩, hsplit, h⟩ := Option.bind_eq_some_iff.mp h
      obtain ⟨c, hc, rfl⟩ := Option.map_eq_some_iff.mp h
      obtain ⟨hlabel, rfl⟩ := splitLabel?_eq_some.mp hsplit
      obtain ⟨hne, hdigits⟩ := unhex?_eq_some.mp hc
      exact ⟨⟨hne, by simp [label?, hlabel]⟩, ds, by simp [front], Or.inr ⟨Or.inr rfl, hdigits⟩⟩
  · rintro ⟨⟨hne, hlabel⟩, cs, rfl, hspells⟩
    cases f with
    | handshake c =>
      obtain rfl := (spells_of_not_digits (by simp [InDigits, kind])).mp hspells
      have hc := nonEmpty?_eq_some.mpr ⟨hne, rfl⟩
      rw [front, decode?_handshake]
      exact Option.map_eq_some_iff.mpr ⟨_, hc, rfl⟩
    | contextual nickname c =>
      obtain rfl := (spells_of_not_digits (by simp [InDigits, kind])).mp hspells
      have hsplit : splitLabel? (Bytes.ofText nickname ++ separator :: Base64.encode c) =
          some (nickname, Base64.encode c) :=
        splitLabel?_eq_some.mpr ⟨hlabel _ nickname rfl, rfl⟩
      have hc := unbase64_eq_some.mpr ⟨hne, rfl⟩
      rw [front, List.append_assoc, List.append_assoc, decode?_contextual]
      exact Option.bind_eq_some_iff.mpr ⟨_, hsplit, Option.map_eq_some_iff.mpr ⟨c, hc, rfl⟩⟩
    | payment c =>
      have hc := unhex?_eq_some.mpr ⟨hne, (spells_of_digits (Or.inl rfl)).mp hspells⟩
      rw [front, decode?_payment]
      exact Option.map_eq_some_iff.mpr ⟨c, hc, rfl⟩
    | selfStash scope c =>
      have hsplit : splitLabel? (Bytes.ofText scope ++ separator :: cs) = some (scope, cs) :=
        splitLabel?_eq_some.mpr ⟨hlabel _ scope rfl, rfl⟩
      have hc := unhex?_eq_some.mpr ⟨hne, (spells_of_digits (Or.inr rfl)).mp hspells⟩
      rw [front, List.append_assoc, List.append_assoc, decode?_selfStash]
      exact Option.bind_eq_some_iff.mpr ⟨_, hsplit, Option.map_eq_some_iff.mpr ⟨c, hc, rfl⟩⟩

/-- What is written is read back. -/
lemma decode?_of_encode (h : f.encode = .ok written) : decode? written = some f := by
  obtain ⟨hwritable, rfl⟩ := encode_eq_ok.mp h
  exact decode?_eq_some.mpr ⟨hwritable, f.characters, rfl, Or.inl rfl⟩

/-! ### The payloads of a frame -/

/--
A payload is the written one, except that the hexadecimal digits of a ciphertext may be in either
case.
-/
def Respells (f : Frame) (written b : Bytes) : Prop :=
  b = written ∨
    f.InDigits ∧ ∃ start digits, written = start ++ hexBytes f.ciphertext ∧ b = start ++ digits ∧
      digits.map Hex.lowered = hexBytes f.ciphertext

lemma respells_iff (h : f.encode = .ok written) :
    f.Respells written b ↔ ∃ cs, b = f.front ++ cs ∧ f.Spells cs := by
  obtain ⟨-, rfl⟩ := encode_eq_ok.mp h
  constructor
  · rintro (rfl | ⟨hdigits, start, ds, hwritten, rfl, hds⟩)
    · exact ⟨f.characters, rfl, Or.inl rfl⟩
    · have hlower := (spells_of_digits hdigits).mp (Or.inl rfl)
      -- The digits are as many as those that are written, so they start at the same place.
      have hlength : f.characters.length = (hexBytes f.ciphertext).length := by
        rw [← hlower, List.length_map]
      obtain ⟨rfl, -⟩ := List.append_inj' hwritten hlength
      exact ⟨ds, rfl, (spells_of_digits hdigits).mpr hds⟩
  · rintro ⟨cs, rfl, rfl | ⟨hdigits, hcs⟩⟩
    · exact Or.inl rfl
    · have hlower : f.characters = hexBytes f.ciphertext := by
        rw [← hcs]
        exact (spells_of_digits hdigits).mp (Or.inr ⟨hdigits, hcs⟩)
      refine Or.inr ⟨hdigits, f.front, cs, ?_, rfl, ?_⟩
      · rw [hlower]
      · rw [hcs, hlower]

/--
A payload is read as a frame exactly if the frame can be written and the payload is what is
written, up to the case of hexadecimal digits. A frame can be written exactly if its ciphertext is
not empty and its label, if it has one, is neither empty nor has a colon. So what is written is
read back, no two frames are written alike, what is read can be written again, and for the kinds
without hexadecimal digits it is written as it was.
-/
theorem decode?_accepts_encode :
    (∀ b f, decode? b = some f ↔ ∃ written, f.encode = .ok written ∧ f.Respells written b) ∧
      (∀ f : Frame, (∃ written, f.encode = .ok written) ↔ f.Writable) ∧
      (∀ f written, f.encode = .ok written → decode? written = some f) ∧
      (∀ (f g : Frame) (written : Bytes),
        f.encode = .ok written → g.encode = .ok written → f = g) ∧
      (∀ b f, decode? b = some f → ∃ written, f.encode = .ok written) ∧
      ∀ b f, decode? b = some f → f.kind = .handshake ∨ f.kind = .contextual →
        f.encode = .ok b := by
  have hread : ∀ b f, decode? b = some f ↔
      ∃ written, f.encode = .ok written ∧ f.Respells written b := by
    intro b f
    constructor
    · intro h
      obtain ⟨hwritable, hspelled⟩ := decode?_eq_some.mp h
      have hencode := encode_eq_ok.mpr ⟨hwritable, rfl⟩
      exact ⟨_, hencode, (respells_iff hencode).mpr hspelled⟩
    · rintro ⟨written, hencode, hrespells⟩
      obtain ⟨hwritable, -⟩ := encode_eq_ok.mp hencode
      exact decode?_eq_some.mpr ⟨hwritable, (respells_iff hencode).mp hrespells⟩
  refine ⟨hread, ?_, ?_, ?_, ?_, ?_⟩
  · intro f
    constructor
    · rintro ⟨written, h⟩
      exact (encode_eq_ok.mp h).1
    · intro h
      exact ⟨_, encode_eq_ok.mpr ⟨h, rfl⟩⟩
  · intro f written h
    exact decode?_of_encode h
  · intro f g written hf hg
    have hsame : some f = some g := by rw [← decode?_of_encode hf, ← decode?_of_encode hg]
    exact Option.some.inj hsame
  · intro b f h
    obtain ⟨written, hencode, -⟩ := (hread b f).mp h
    exact ⟨written, hencode⟩
  · intro b f h hkind
    obtain ⟨written, hencode, rfl | ⟨hdigits, -⟩⟩ := (hread b f).mp h
    · exact hencode
    · unfold InDigits at hdigits
      rcases hkind with hk | hk <;> rcases hdigits with hd | hd <;>
        exact absurd (hk.symm.trans hd) (by decide)

/-- A stash with digits in upper case is read, though not written so; a note is written as read. -/
theorem stash_accepts_encode :
    decode? (tag .selfStash ++ Bytes.ofText "a:CAFE") = some (.selfStash "a" [0xca, 0xfe]) ∧
      (Frame.selfStash "a" [0xca, 0xfe]).encode = .ok (tag .selfStash ++ Bytes.ofText "a:cafe") ∧
      (Frame.contextual "b" [0xff]).encode = .ok (tag .contextual ++ Bytes.ofText "b:/w==") := by
  have hstash : (Frame.selfStash "a" [0xca, 0xfe]).encode =
      .ok (tag .selfStash ++ Bytes.ofText "a:cafe") := by decide
  have hnote : decode? (tag .contextual ++ Bytes.ofText "b:/w==") =
      some (.contextual "b" [0xff]) := by decide
  refine ⟨?_, hstash, decode?_accepts_encode.2.2.2.2.2 _ _ hnote (Or.inr rfl)⟩
  refine (decode?_accepts_encode.1 _ _).mpr ⟨_, hstash, Or.inr ⟨Or.inr rfl, ?_⟩⟩
  exact ⟨tag .selfStash ++ Bytes.ofText "a:", Bytes.ofText "CAFE", by decide, by decide, by decide⟩

end Frame

end LedgerPost
