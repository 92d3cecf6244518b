import LedgerPost.Bytes.Base64
import Mathlib.Tactic.Common

/-!
# Reading Base64

Characters are read exactly if they are those that are written: every byte string has one Base64
form, because the padding must be there and the bits that a last group leaves over must be zero.
-/

namespace LedgerPost

namespace Base64

variable {a b c d : UInt8} {bs : Bytes}

/-! ### Characters -/

lemma toNat_symbol {n : Nat} (hn : n < 64) :
    (symbol n).toNat =
      if n < 26 then 65 + n
      else if n < 52 then 71 + n
      else if n < 62 then n - 4
      else if n = 62 then 43
      else 47 := by
  decide +revert

/-- A character stands for a number exactly if it is the one written for the number. -/
lemma value?_eq_some {n : Nat} : value? a = some n ↔ n < 64 ∧ a = symbol n := by
  constructor
  · intro h
    have hn : n < 64 := by
      unfold value? at h
      grind
    refine ⟨hn, UInt8.toNat_inj.mp ?_⟩
    rw [toNat_symbol hn]
    unfold value? at h
    grind
  · rintro ⟨hn, rfl⟩
    unfold value?
    rw [toNat_symbol hn]
    grind

lemma value?_symbol {n : Nat} (hn : n < 64) : value? (symbol n) = some n :=
  value?_eq_some.mpr ⟨hn, rfl⟩

lemma symbol_ne_pad {n : Nat} (hn : n < 64) : symbol n ≠ pad := by
  decide +revert

/-! ### Groups

The characters of a group are six bits each, the bytes eight. The lemmas say which bytes the
characters make up.
-/

lemma toNat_upper {x y : Nat} (hx : x < 64) (hy : y < 64) :
    (UInt8.ofNat (x * 4 + y / 16)).toNat = x * 4 + y / 16 := by
  rw [UInt8.toNat_ofNat', Nat.mod_eq_of_lt (by omega)]

lemma toNat_middle {y z : Nat} (hz : z < 64) :
    (UInt8.ofNat (y % 16 * 16 + z / 4)).toNat = y % 16 * 16 + z / 4 := by
  rw [UInt8.toNat_ofNat', Nat.mod_eq_of_lt (by omega)]

lemma toNat_lower {z w : Nat} (hw : w < 64) :
    (UInt8.ofNat (z % 4 * 64 + w)).toNat = z % 4 * 64 + w := by
  rw [UInt8.toNat_ofNat', Nat.mod_eq_of_lt (by omega)]

/-- A number that is that of a byte is this byte. -/
lemma ofNat_eq {n : Nat} {x : UInt8} (h : n = x.toNat) : UInt8.ofNat n = x := by
  rw [h, UInt8.ofNat_toNat]

/-- A group of two characters is read as the byte that it is written for. -/
lemma lastByte?_eq_some :
    lastByte? a b = some bs ↔
      ∃ x : UInt8, bs = [x] ∧ a = symbol (x.toNat / 4) ∧ b = symbol (x.toNat % 4 * 16) := by
  constructor
  · intro h
    simp only [lastByte?, Option.bind_eq_bind, Option.bind_eq_some_iff, value?_eq_some,
      Option.ite_none_right_eq_some, Option.some.injEq] at h
    obtain ⟨x, ⟨hx, rfl⟩, y, ⟨hy, rfl⟩, hzero, rfl⟩ := h
    refine ⟨_, rfl, ?_⟩
    rw [toNat_upper hx hy]
    have hfirst : (x * 4 + y / 16) / 4 = x := by omega
    have hsecond : (x * 4 + y / 16) % 4 * 16 = y := by omega
    rw [hfirst, hsecond]
    exact ⟨rfl, rfl⟩
  · rintro ⟨x, rfl, rfl, rfl⟩
    have hx := x.toNat_lt
    rw [lastByte?, value?_symbol (by omega), value?_symbol (by omega)]
    simp only [Option.bind_eq_bind, Option.bind_some]
    rw [if_pos (by omega), ofNat_eq (x := x) (by omega)]

/-- A group of three characters is read as the two bytes that it is written for. -/
lemma lastBytes?_eq_some :
    lastBytes? a b c = some bs ↔
      ∃ x y : UInt8, bs = [x, y] ∧ a = symbol (x.toNat / 4) ∧
        b = symbol (x.toNat % 4 * 16 + y.toNat / 16) ∧ c = symbol (y.toNat % 16 * 4) := by
  constructor
  · intro h
    simp only [lastBytes?, Option.bind_eq_bind, Option.bind_eq_some_iff, value?_eq_some,
      Option.ite_none_right_eq_some, Option.some.injEq] at h
    obtain ⟨x, ⟨hx, rfl⟩, y, ⟨hy, rfl⟩, z, ⟨hz, rfl⟩, hzero, rfl⟩ := h
    refine ⟨_, _, rfl, ?_⟩
    rw [toNat_upper hx hy, toNat_middle hz]
    have hfirst : (x * 4 + y / 16) / 4 = x := by omega
    have hsecond : (x * 4 + y / 16) % 4 * 16 + (y % 16 * 16 + z / 4) / 16 = y := by omega
    have hthird : (y % 16 * 16 + z / 4) % 16 * 4 = z := by omega
    rw [hfirst, hsecond, hthird]
    exact ⟨rfl, rfl, rfl⟩
  · rintro ⟨x, y, rfl, rfl, rfl, rfl⟩
    have hx := x.toNat_lt
    have hy := y.toNat_lt
    rw [lastBytes?, value?_symbol (by omega), value?_symbol (by omega), value?_symbol (by omega)]
    simp only [Option.bind_eq_bind, Option.bind_some]
    rw [if_pos (by omega), ofNat_eq (x := x) (by omega), ofNat_eq (x := y) (by omega)]

/-- A full group is read as the three bytes that it is written for. -/
lemma group?_eq_some :
    group? a b c d = some bs ↔
      ∃ x y z : UInt8, bs = [x, y, z] ∧ a = symbol (x.toNat / 4) ∧
        b = symbol (x.toNat % 4 * 16 + y.toNat / 16) ∧
        c = symbol (y.toNat % 16 * 4 + z.toNat / 64) ∧ d = symbol (z.toNat % 64) := by
  constructor
  · intro h
    simp only [group?, Option.bind_eq_bind, Option.bind_eq_some_iff, value?_eq_some,
      Option.some.injEq] at h
    obtain ⟨x, ⟨hx, rfl⟩, y, ⟨hy, rfl⟩, z, ⟨hz, rfl⟩, w, ⟨hw, rfl⟩, rfl⟩ := h
    refine ⟨_, _, _, rfl, ?_⟩
    rw [toNat_upper hx hy, toNat_middle hz, toNat_lower hw]
    have hfirst : (x * 4 + y / 16) / 4 = x := by omega
    have hsecond : (x * 4 + y / 16) % 4 * 16 + (y % 16 * 16 + z / 4) / 16 = y := by omega
    have hthird : (y % 16 * 16 + z / 4) % 16 * 4 + (z % 4 * 64 + w) / 64 = z := by omega
    have hfourth : (z % 4 * 64 + w) % 64 = w := by omega
    rw [hfirst, hsecond, hthird, hfourth]
    exact ⟨rfl, rfl, rfl, rfl⟩
  · rintro ⟨x, y, z, rfl, rfl, rfl, rfl, rfl⟩
    have hx := x.toNat_lt
    have hy := y.toNat_lt
    have hz := z.toNat_lt
    rw [group?, value?_symbol (by omega), value?_symbol (by omega), value?_symbol (by omega),
      value?_symbol (by omega)]
    simp only [Option.bind_eq_bind, Option.bind_some]
    rw [ofNat_eq (x := x) (by omega), ofNat_eq (x := y) (by omega), ofNat_eq (x := z) (by omega)]

/-! ### Byte strings -/

/-- There are four characters for every three bytes, and four for what is left over. -/
lemma length_encode (bs : Bytes) : (encode bs).length = 4 * ((bs.length + 2) / 3) := by
  induction bs using encode.induct with
  | case1 => rfl
  | case2 a => simp [encode]
  | case3 a b => simp [encode]
  | case4 a b c rest ih =>
    rw [encode]
    simp only [List.length_cons, ih]
    omega

/-- What is written is read back. -/
lemma decode?_encode (bs : Bytes) : decode? (encode bs) = some bs := by
  induction bs using encode.induct with
  | case1 => rfl
  | case2 x =>
    have hgroup := lastByte?_eq_some.mpr ⟨x, rfl, rfl, rfl⟩
    rw [encode, decode?, if_pos rfl, if_neg (by simp), if_pos rfl, hgroup]
  | case3 x y =>
    have hgroup := lastBytes?_eq_some.mpr ⟨x, y, rfl, rfl, rfl, rfl⟩
    have hpad : symbol (y.toNat % 16 * 4) ≠ pad := symbol_ne_pad (by omega)
    rw [encode, decode?, if_pos rfl, if_neg (by simp), if_neg hpad, hgroup]
  | case4 x y z rest ih =>
    have hgroup := group?_eq_some.mpr ⟨x, y, z, rfl, rfl, rfl, rfl, rfl⟩
    have hpad : symbol (z.toNat % 64) ≠ pad := symbol_ne_pad (by omega)
    rw [encode, decode?, if_neg hpad, hgroup, ih]
    rfl

/-- What is read is what is written for the outcome. -/
lemma eq_encode_of_decode? {cs : Bytes} (h : decode? cs = some bs) : cs = encode bs := by
  induction cs using decode?.induct generalizing bs with
  | case1 =>
    obtain rfl := Option.some.inj h
    rfl
  | case2 a b c rest hrest =>
    rw [decode?, if_pos rfl, if_pos hrest] at h
    cases h
  | case3 a b rest hrest =>
    rw [decode?, if_pos rfl, if_neg hrest, if_pos rfl] at h
    obtain ⟨x, rfl, rfl, rfl⟩ := lastByte?_eq_some.mp h
    rw [not_not.mp hrest]
    rfl
  | case4 a b c rest hrest hc =>
    rw [decode?, if_pos rfl, if_neg hrest, if_neg hc] at h
    obtain ⟨x, y, rfl, rfl, rfl, rfl⟩ := lastBytes?_eq_some.mp h
    rw [not_not.mp hrest]
    rfl
  | case5 a b c d rest hd ih =>
    rw [decode?, if_neg hd] at h
    obtain ⟨group, hgroup, h⟩ := Option.bind_eq_some_iff.mp h
    obtain ⟨more, hmore, h⟩ := Option.bind_eq_some_iff.mp h
    obtain rfl := Option.some.inj h
    obtain ⟨x, y, z, rfl, rfl, rfl, rfl, rfl⟩ := group?_eq_some.mp hgroup
    rw [ih hmore]
    rfl
  | case6 cs hnil hfour =>
    rw [decode?] at h
    · cases h
    · exact hnil
    · exact hfour

/-- Characters are read as some bytes exactly if they are those written for these. -/
theorem decode?_eq_some {cs : Bytes} : decode? cs = some bs ↔ cs = encode bs := by
  constructor
  · exact eq_encode_of_decode?
  · rintro rfl
    exact decode?_encode bs

end Base64

end LedgerPost
