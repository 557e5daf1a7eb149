import ColumnCipher.Decimal.Shortest
import ColumnCipher.Proofs.Numerals
import Mathlib.Algebra.Order.Field.Basic
import Mathlib.Data.Rat.Cast.Order
import Mathlib.Tactic.FieldSimp
import Mathlib.Tactic.Positivity
import Mathlib.Tactic.Ring
/-!
The texts of floats. A decimal stands for a number, and the numbers that read back as a float are an
interval around it, which no other float shares, since a common end of two intervals belongs only to
an even mantissa and one of two neighbours is odd. The printed text gives the number of the printed
decimal back, so floats with the same text are the same, bit for bit.
-/
namespace ColumnCipher.Float64

theorem zpow_mul_pow_toNat_neg {b : ℚ} (hb : b ≠ 0) (e : Int) :
    b ^ e * b ^ (-e).toNat = b ^ e.toNat := by
  have hsplit : b ^ ((e.toNat : Int) - (-e).toNat) = b ^ e.toNat / b ^ (-e).toNat := by
    rw [zpow_sub₀ hb, zpow_natCast, zpow_natCast]
  rw [Int.toNat_sub_toNat_neg] at hsplit
  rw [hsplit, div_mul_cancel₀ _ (pow_ne_zero _ hb)]

def Numeral.value (d : Numeral) : ℚ := d.digits * (10 : ℚ) ^ d.exponent

namespace Binary

/-- The number of a quarter of the last place, taken some times. -/
def quarters (x : Binary) (n : Nat) : ℚ := n * (2 : ℚ) ^ (x.exponent - 2)

variable {x y : Binary} {d e : Numeral} {m n : Nat}

theorem quarters_lt_iff : x.quarters m < x.quarters n ↔ m < n := by
  have hunit : (0 : ℚ) < 2 ^ (x.exponent - 2) := zpow_pos (by decide) _
  rw [quarters, quarters, mul_lt_mul_iff_left₀ hunit, Nat.cast_lt]

theorem quarters_le_iff : x.quarters m ≤ x.quarters n ↔ m ≤ n :=
  le_iff_le_iff_lt_iff_lt.mpr quarters_lt_iff

theorem quarters_inj : x.quarters m = x.quarters n ↔ m = n := by
  simp only [le_antisymm_iff, quarters_le_iff]

/-- Quarters of a float with a greater exponent are whole numbers of those of one with a smaller
exponent. -/
theorem quarters_eq_quarters (h : x.exponent ≤ y.exponent) (n : Nat) :
    y.quarters n = x.quarters (n * 2 ^ (y.exponent - x.exponent).toNat) := by
  have hexponent : y.exponent - 2 =
      ((y.exponent - x.exponent).toNat : Int) + (x.exponent - 2) := by omega
  rw [quarters, quarters, hexponent, zpow_add₀ (by decide), zpow_natCast]
  push_cast
  ring

/-- Decimals are compared with quarters as numbers. -/
theorem compareQuarters_eq (x : Binary) (d : Numeral) (n : Nat) :
    x.compareQuarters d n = cmp d.value (x.quarters n) := by
  have hten := zpow_mul_pow_toNat_neg (b := 10) (by decide) d.exponent
  have htwo := zpow_mul_pow_toNat_neg (b := 2) (by decide) (x.exponent - 2)
  -- Both sides are multiplied by the powers that their exponents lack.
  let factor : ℚ := 10 ^ (-d.exponent).toNat * 2 ^ (-(x.exponent - 2)).toNat
  have hfactor : 0 < factor := by positivity
  have hleft : ((d.digits * Nat.pow 10 d.exponent.toNat *
      Nat.pow 2 (-(x.exponent - 2)).toNat : Nat) : ℚ) = d.value * factor := by
    simp only [Nat.pow_eq, Nat.cast_mul, Nat.cast_pow, Nat.cast_ofNat, ← hten, Numeral.value, factor]
    ring
  have hright : ((n * Nat.pow 2 (x.exponent - 2).toNat * Nat.pow 10 (-d.exponent).toNat : Nat) : ℚ) =
      x.quarters n * factor := by
    simp only [Nat.pow_eq, Nat.cast_mul, Nat.cast_pow, Nat.cast_ofNat, ← htwo, quarters, factor]
    ring
  rw [compareQuarters, ← cmp_eq_compare, ← (Nat.strictMono_cast (α := ℚ)).cmp_map_eq, hleft, hright,
    cmp_mul_pos_right hfactor]

/-- The lower end of the numbers that read back as a float. -/
def low (x : Binary) : Nat := if x.narrowBelow then 4 * x.mantissa - 1 else 4 * x.mantissa - 2

def high (x : Binary) : Nat := 4 * x.mantissa + 2

/-- The decimals that read back as a float are those between the ends, and the ends themselves if the
mantissa is even. -/
theorem readsBack_iff : x.readsBack d ↔
    (x.quarters x.low < d.value ∨ d.value = x.quarters x.low ∧ x.mantissa % 2 = 0) ∧
      (d.value < x.quarters x.high ∨ d.value = x.quarters x.high ∧ x.mantissa % 2 = 0) := by
  have hlow : x.compareQuarters d (if x.narrowBelow then 4 * x.mantissa - 1 else
      4 * x.mantissa - 2) = cmp d.value (x.quarters x.low) := x.compareQuarters_eq d x.low
  have hhigh : x.compareQuarters d (4 * x.mantissa + 2) = cmp d.value (x.quarters x.high) :=
    x.compareQuarters_eq d x.high
  rw [readsBack, hlow, hhigh, Bool.and_eq_true]
  refine and_congr ?_ ?_
  · rcases lt_trichotomy d.value (x.quarters x.low) with h | h | h
    · rw [(cmp_eq_lt_iff _ _).mpr h]
      simp [h.ne, h.le]
    · rw [h, cmp_self_eq_eq]
      simp
    · rw [(cmp_eq_gt_iff _ _).mpr h]
      simp [h]
  · rcases lt_trichotomy d.value (x.quarters x.high) with h | h | h
    · rw [(cmp_eq_lt_iff _ _).mpr h]
      simp [h]
    · rw [h, cmp_self_eq_eq]
      simp
    · rw [(cmp_eq_gt_iff _ _).mpr h]
      simp [h.ne', h.le]

/-- The magnitude of a finite float: the mantissa has at most 53 bits, and fewer only at the least
exponent. -/
structure IsFloat (x : Binary) : Prop where
  mantissa_lt : x.mantissa < 2 ^ 53
  normal : x.exponent ≠ -1074 → 2 ^ 52 ≤ x.mantissa
  least : -1074 ≤ x.exponent

def Before (x y : Binary) : Prop :=
  x.exponent < y.exponent ∨ x.exponent = y.exponent ∧ x.mantissa < y.mantissa

/-- Above the least exponent the numbers that read back stay near the power of two below them. -/
theorem IsFloat.le_low (hx : x.IsFloat) (h : x.exponent ≠ -1074) : 2 ^ 54 - 1 ≤ x.low := by
  have hnormal := hx.normal h
  have hnarrow : x.narrowBelow = true ↔ x.mantissa = 2 ^ 52 := by simp [narrowBelow, h]
  rw [low]
  split
  · omega
  · rename_i hwide
    have hne := mt hnarrow.mpr hwide
    omega

theorem le_low (x : Binary) : 4 * x.mantissa - 2 ≤ x.low := by
  rw [low]
  split <;> omega

/-- The upper end of a float is at most the lower end of any float after it, and if the two ends are
the same, one of the mantissas is odd. -/
theorem high_le_low (hx : x.IsFloat) (hy : y.IsFloat) (h : x.Before y) :
    x.quarters x.high ≤ y.quarters y.low ∧
      (x.quarters x.high = y.quarters y.low → x.mantissa % 2 = 1 ∨ y.mantissa % 2 = 1) := by
  have hle : x.exponent ≤ y.exponent := by
    rcases h with h | ⟨h, -⟩
    · exact h.le
    · exact h.le
  have hmantissa := hx.mantissa_lt
  have hleast := hx.least
  have hlow := y.le_low
  rw [quarters_eq_quarters hle, quarters_le_iff, quarters_inj]
  rcases h with h | ⟨h, hlt⟩
  · -- The unit of the later float is at least twice as great.
    have hfar := hy.le_low (by omega)
    obtain ⟨k, hk⟩ : ∃ k, (y.exponent - x.exponent).toNat = k + 1 :=
      ⟨(y.exponent - x.exponent).toNat - 1, by omega⟩
    have hscaled : y.low * 2 ≤ y.low * 2 ^ (k + 1) :=
      Nat.mul_le_mul_left _ (Nat.le_self_pow (Nat.succ_ne_zero k) 2)
    rw [hk, high]
    omega
  · rw [h, Int.sub_self, Int.toNat_zero, pow_zero, Nat.mul_one, high]
    refine ⟨by omega, fun heq => ?_⟩
    rw [low] at heq
    split at heq <;> omega

theorem not_before_of_readsBack (hx : x.IsFloat) (hy : y.IsFloat) (hdx : x.readsBack d)
    (hdy : y.readsBack d) : ¬x.Before y := by
  intro h
  obtain ⟨hle, hodd⟩ := high_le_low hx hy h
  obtain ⟨-, hbelow⟩ := readsBack_iff.mp hdx
  obtain ⟨habove, -⟩ := readsBack_iff.mp hdy
  rcases hbelow with hbelow | ⟨hhigh, hevenx⟩ <;> rcases habove with habove | ⟨hlow, heveny⟩
  · exact (hbelow.trans_le hle).not_gt habove
  · exact (hbelow.trans_le hle).ne hlow
  · exact (habove.trans_le (hhigh.trans_le hle)).false
  · -- The decimal is the end of both intervals.
    rcases hodd (hhigh.symm.trans hlow) with h | h <;> omega

/-- A decimal reads back as one float only. -/
theorem eq_of_readsBack (hx : x.IsFloat) (hy : y.IsFloat) (hdx : x.readsBack d)
    (hdy : y.readsBack d) : x = y := by
  have hxy : ¬x.Before y := not_before_of_readsBack hx hy hdx hdy
  have hyx : ¬y.Before x := not_before_of_readsBack hy hx hdy hdx
  obtain ⟨m, e⟩ := x
  obtain ⟨n, f⟩ := y
  simp only [Before] at hxy hyx
  simp only [mk.injEq]
  omega

/-- Whether a decimal reads back depends on its number alone. -/
theorem readsBack_congr (h : d.value = e.value) : x.readsBack d ↔ x.readsBack e := by
  rw [readsBack_iff, readsBack_iff, h]

/-! The printed decimal reads back. -/

theorem readsBack_of_candidate? {k : Int} (h : x.candidate? k = some d) : x.readsBack d := by
  simp only [candidate?] at h
  split at h
  · rename_i hbelow habove
    obtain rfl := Option.some.inj h
    split
    · exact hbelow
    · exact habove
  · rename_i hbelow _
    exact Option.some.inj h ▸ hbelow
  · rename_i _ habove
    exact Option.some.inj h ▸ habove
  · simp at h

theorem value_exact (x : Binary) : x.exact.value = x.quarters (4 * x.mantissa) := by
  have hunit : (2 : ℚ) ^ x.exponent = 4 * 2 ^ (x.exponent - 2) := by
    rw [zpow_sub₀ (by decide)]
    ring
  have hvalue : x.exact.value = x.mantissa * (2 : ℚ) ^ x.exponent := by
    unfold exact
    split
    · rename_i hwhole
      have hexponent : x.exponent = (x.exponent.toNat : Int) := by omega
      rw [Numeral.value]
      conv_rhs => rw [hexponent, zpow_natCast]
      simp
    · rename_i hbroken
      have hexponent : x.exponent = -((-x.exponent).toNat : Int) := by omega
      rw [Numeral.value]
      generalize (-x.exponent).toNat = k at hexponent ⊢
      rw [hexponent, zpow_neg, zpow_neg, zpow_natCast, zpow_natCast]
      have hten : (10 : ℚ) ^ k = 5 ^ k * 2 ^ k := by rw [← mul_pow]; norm_num
      simp only [Nat.pow_eq, Nat.cast_mul, Nat.cast_pow, Nat.cast_ofNat, hten]
      field_simp
  rw [hvalue, quarters, hunit]
  push_cast
  ring

theorem readsBack_exact (h : x.mantissa ≠ 0) : x.readsBack x.exact := by
  have hlow : x.low < 4 * x.mantissa := by
    rw [low]
    split <;> omega
  have hhigh : 4 * x.mantissa < x.high := by
    rw [high]
    omega
  rw [readsBack_iff, value_exact, quarters_lt_iff, quarters_lt_iff]
  exact ⟨.inl hlow, .inl hhigh⟩

theorem readsBack_shortest (h : x.mantissa ≠ 0) : x.readsBack x.shortest := by
  rw [shortest]
  generalize hfirst : (List.range 17).findSome? _ = first
  cases first with
  | none => exact readsBack_exact h
  | some d =>
    obtain ⟨n, -, hn⟩ := List.exists_of_findSome?_eq_some hfirst
    exact readsBack_of_candidate? hn

end Binary

namespace Numeral

theorem value_trim (d : Numeral) : d.trim.value = d.value := by
  induction d using trim.induct with
  | case1 d h ih =>
    rw [trim, dif_pos h, ih, value, value]
    have hdigits : (d.digits : ℚ) = (d.digits / 10 : Nat) * 10 := by
      exact_mod_cast (Nat.div_mul_cancel (Nat.dvd_of_mod_eq_zero h.2)).symm
    rw [hdigits, zpow_add₀ (by decide), zpow_one]
    ring
  | case2 d h => rw [trim, dif_neg h]

/-- The decimal that a text of digits, with or without a point, stands for. -/
def ofText (text : List Char) : Numeral where
  digits := Nat.ofDigitChars 10 (text.filter (· != '.')) 0
  exponent := -((text.dropWhile (· != '.')).length - 1 : Nat)

theorem isDigit_zeros (k : Nat) : ∀ c ∈ List.replicate k '0', c.isDigit := by
  intro c hc
  rw [List.eq_of_mem_replicate hc]
  decide

theorem isDigit_extended (n k : Nat) : ∀ c ∈ Decimal.digits n ++ List.replicate k '0', c.isDigit :=
  List.forall_mem_append.mpr ⟨(Decimal.areDigits_digits n).isDigit, isDigit_zeros k⟩

theorem isDigit_padded (k n : Nat) : ∀ c ∈ List.replicate k '0' ++ Decimal.digits n, c.isDigit :=
  List.forall_mem_append.mpr ⟨isDigit_zeros k, (Decimal.areDigits_digits n).isDigit⟩

/-- A decimal is printed with digits, and at most a point. -/
theorem isDigit_or_point_of_mem_render {d : Numeral} {c : Char} (h : c ∈ d.render) :
    c.isDigit ∨ c = '.' := by
  unfold render at h
  split at h
  · exact .inl (isDigit_extended _ _ c h)
  · rcases List.mem_append.mp h with h | h
    · exact .inl (isDigit_padded _ _ c (List.mem_of_mem_take h))
    · rcases List.mem_cons.mp h with h | h
      · exact .inr h
      · exact .inl (isDigit_padded _ _ c (List.mem_of_mem_drop h))

theorem ne_point_of_isDigit {text : List Char} (h : ∀ c ∈ text, c.isDigit) :
    ∀ c ∈ text, (c != '.') = true := by
  intro c hc
  have hne : c ≠ '.' := by
    rintro rfl
    exact absurd (h _ hc) (by decide)
  simpa using hne

theorem ofText_whole {text : List Char} (h : ∀ c ∈ text, c.isDigit) :
    ofText text = ⟨Nat.ofDigitChars 10 text 0, 0⟩ := by
  have hne := ne_point_of_isDigit h
  have hrest : text.dropWhile (· != '.') = [] := by
    have hnil : (text ++ []).dropWhile (· != '.') = [] := List.dropWhile_append_of_pos hne
    rwa [List.append_nil] at hnil
  rw [ofText, List.filter_eq_self.mpr hne, hrest]
  rfl

theorem ofText_point {whole part : List Char} (hwhole : ∀ c ∈ whole, c.isDigit)
    (hpart : ∀ c ∈ part, c.isDigit) :
    ofText (whole ++ '.' :: part) =
      ⟨Nat.ofDigitChars 10 (whole ++ part) 0, -(part.length : Int)⟩ := by
  have hwhole := ne_point_of_isDigit hwhole
  have hpart := ne_point_of_isDigit hpart
  have hdigits : (whole ++ '.' :: part).filter (· != '.') = whole ++ part := by
    rw [List.filter_append, List.filter_cons_of_neg (by decide), List.filter_eq_self.mpr hwhole,
      List.filter_eq_self.mpr hpart]
  have hrest : (whole ++ '.' :: part).dropWhile (· != '.') = '.' :: part := by
    rw [List.dropWhile_append_of_pos hwhole, List.dropWhile_cons_of_neg (by decide)]
  rw [ofText, hdigits, hrest]
  rfl

/-- The text of a decimal is read as the same number. -/
theorem value_ofText_render (d : Numeral) : (ofText d.render).value = d.value := by
  have hdigits : Nat.ofDigitChars 10 (Decimal.digits d.digits) 0 = d.digits :=
    Nat.ofDigitChars_ten_toDigits
  unfold render
  split
  · rename_i hwhole
    rw [ofText_whole (isDigit_extended _ _), Nat.ofDigitChars_append, hdigits,
      Nat.ofDigitChars_replicate_zero, value, value]
    have hexponent : d.exponent = (d.exponent.toNat : Int) := by omega
    conv_rhs => rw [hexponent, zpow_natCast]
    push_cast
    ring
  · rename_i hbroken
    dsimp only
    generalize hplaces : (-d.exponent).toNat = places
    generalize hpadded : List.replicate (places + 1 - (Decimal.digits d.digits).length) '0' ++
      Decimal.digits d.digits = padded
    have hall : ∀ c ∈ padded, c.isDigit := hpadded ▸ isDigit_padded _ _
    have hlength : places + 1 ≤ padded.length := by
      rw [← hpadded, List.length_append, List.length_replicate]
      omega
    have hvalue : Nat.ofDigitChars 10 padded 0 = d.digits := by
      rw [← hpadded, Nat.ofDigitChars_append, Nat.ofDigitChars_replicate_zero, Nat.mul_zero, hdigits]
    rw [ofText_point (fun c hc => hall c (List.mem_of_mem_take hc))
      (fun c hc => hall c (List.mem_of_mem_drop hc)), List.take_append_drop, hvalue, value, value,
      List.length_drop]
    have hexponent : -((padded.length - (padded.length - places) : Nat) : Int) = d.exponent := by
      omega
    rw [hexponent]

end Numeral

/-! Texts of floats. -/

theorem readsBack_zero {x : Binary} (h : x.mantissa = 0) : x.readsBack ⟨0, 0⟩ := by
  have hlow : x.low = 0 := by
    rw [Binary.low, h]
    split <;> rfl
  have hvalue : Numeral.value ⟨0, 0⟩ = x.quarters 0 := by simp [Numeral.value, Binary.quarters]
  have hhigh : x.quarters 0 < x.quarters x.high := Binary.quarters_lt_iff.mpr (Nat.succ_pos _)
  rw [Binary.readsBack_iff, hvalue, hlow, h]
  exact ⟨.inr ⟨rfl, rfl⟩, .inl hhigh⟩

/-- The text of a magnitude is that of a decimal that reads back as this magnitude. -/
theorem exists_renderMagnitude (x : Binary) :
    ∃ d, renderMagnitude x = Numeral.render d ∧ x.readsBack d := by
  unfold renderMagnitude
  split
  · rename_i hzero
    exact ⟨⟨0, 0⟩, rfl, readsBack_zero hzero⟩
  · rename_i hne
    exact ⟨x.shortest.trim, rfl,
      (Binary.readsBack_congr x.shortest.value_trim).mpr (Binary.readsBack_shortest hne)⟩

/-- Magnitudes of floats with the same text are the same. -/
theorem renderMagnitude_injective {x y : Binary} (hx : x.IsFloat) (hy : y.IsFloat)
    (h : renderMagnitude x = renderMagnitude y) : x = y := by
  obtain ⟨d, hd, hdx⟩ := exists_renderMagnitude x
  obtain ⟨e, he, hey⟩ := exists_renderMagnitude y
  have hvalue : d.value = e.value := by
    rw [← d.value_ofText_render, ← e.value_ofText_render, ← hd, ← he, h]
  exact Binary.eq_of_readsBack hx hy hdx ((Binary.readsBack_congr hvalue).mpr hey)

/-! The parts of the bits. -/

section

variable {a b : UInt64}

theorem exponentBits_eq (bits : UInt64) : exponentBits bits = bits.toNat / 2 ^ 52 % 2 ^ 11 := by
  rw [exponentBits, UInt64.toNat_and, UInt64.toNat_shiftRight, ← Nat.shiftRight_eq_div_pow]
  exact Nat.and_two_pow_sub_one_eq_mod _ 11

theorem fractionBits_eq (bits : UInt64) : fractionBits bits = bits.toNat % 2 ^ 52 := by
  rw [fractionBits, UInt64.toNat_and]
  exact Nat.and_two_pow_sub_one_eq_mod _ 52

theorem isNegative_iff (bits : UInt64) : isNegative bits = true ↔ 2 ^ 63 ≤ bits.toNat := by
  have hshift : (bits >>> 63).toNat = bits.toNat / 2 ^ 63 := by
    rw [UInt64.toNat_shiftRight, ← Nat.shiftRight_eq_div_pow]
    rfl
  have hlt := bits.toNat_lt
  rw [isNegative, beq_iff_eq, ← UInt64.toNat_inj, hshift, UInt64.toNat_one]
  omega

/-- The sign, the exponent and the fraction are all that a float has. -/
theorem eq_of_bits (hsign : isNegative a = isNegative b) (hexponent : exponentBits a = exponentBits b)
    (hfraction : fractionBits a = fractionBits b) : a = b := by
  have hsign : 2 ^ 63 ≤ a.toNat ↔ 2 ^ 63 ≤ b.toNat := by
    rw [← isNegative_iff, ← isNegative_iff, hsign]
  have ha := a.toNat_lt
  have hb := b.toNat_lt
  rw [exponentBits_eq, exponentBits_eq] at hexponent
  rw [fractionBits_eq, fractionBits_eq] at hfraction
  rw [← UInt64.toNat_inj]
  omega

theorem isFloat_magnitude (bits : UInt64) : (magnitude bits).IsFloat := by
  have hfraction := fractionBits_eq bits
  unfold magnitude
  split
  · constructor <;> dsimp only <;> omega
  · constructor <;> simp only [Nat.pow_eq] <;> omega

theorem magnitude_inj (h : magnitude a = magnitude b) :
    exponentBits a = exponentBits b ∧ fractionBits a = fractionBits b := by
  have ha := fractionBits_eq a
  have hb := fractionBits_eq b
  unfold magnitude at h
  split at h <;> split at h <;> simp only [Binary.mk.injEq, Nat.pow_eq] at h <;> omega

def unsignedText (bits : UInt64) : List Char :=
  if exponentBits bits = 0x7FF then ['i', 'n', 'f'] else renderMagnitude (magnitude bits)

theorem isNaN_iff (bits : UInt64) :
    isNaN bits = true ↔ exponentBits bits = 0x7FF ∧ fractionBits bits ≠ 0 := by
  simp [isNaN]

theorem render_eq (h : isNaN a = false) : render a =
    String.ofList (if isNegative a then '-' :: unsignedText a else unsignedText a) := by
  unfold render unsignedText
  split
  · rename_i hexponent
    have hfraction : ¬fractionBits a ≠ 0 := fun hne =>
      absurd ((isNaN_iff a).mpr ⟨hexponent, hne⟩) (by simp [h])
    rw [if_neg hfraction]
    split <;> rfl
  · rfl

theorem isDigit_or_point_of_mem_renderMagnitude {x : Binary} {c : Char}
    (h : c ∈ renderMagnitude x) : c.isDigit ∨ c = '.' := by
  obtain ⟨d, hd, -⟩ := exists_renderMagnitude x
  exact Numeral.isDigit_or_point_of_mem_render (hd ▸ h)

theorem minus_not_mem_unsignedText (bits : UInt64) : '-' ∉ unsignedText bits := by
  unfold unsignedText
  split
  · decide
  · intro h
    exact absurd (isDigit_or_point_of_mem_renderMagnitude h) (by decide)

theorem unsignedText_inj (ha : isNaN a = false) (hb : isNaN b = false)
    (h : unsignedText a = unsignedText b) :
    exponentBits a = exponentBits b ∧ fractionBits a = fractionBits b := by
  -- No number has a letter in its text.
  have hletter (x : Binary) : ['i', 'n', 'f'] ≠ renderMagnitude x := by
    intro heq
    have hmem : 'i' ∈ renderMagnitude x := heq ▸ .head _
    exact absurd (isDigit_or_point_of_mem_renderMagnitude hmem) (by decide)
  have hinfinite {bits : UInt64} (hnumber : isNaN bits = false) (he : exponentBits bits = 0x7FF) :
      fractionBits bits = 0 := by
    by_contra hne
    exact absurd ((isNaN_iff bits).mpr ⟨he, hne⟩) (by simp [hnumber])
  unfold unsignedText at h
  split at h <;> split at h
  · rename_i hea heb
    exact ⟨hea.trans heb.symm, (hinfinite ha hea).trans (hinfinite hb heb).symm⟩
  · exact absurd h (hletter _)
  · exact absurd h.symm (hletter _)
  · exact magnitude_inj (renderMagnitude_injective (isFloat_magnitude a) (isFloat_magnitude b) h)

/-- Floats that are numbers and have the same text are the same, bit for bit. -/
theorem render_inj (ha : isNaN a = false) (hb : isNaN b = false) (h : render a = render b) :
    a = b := by
  rw [render_eq ha, render_eq hb] at h
  have htext := String.ofList_injective h
  have hsign : isNegative a = isNegative b ∧ unsignedText a = unsignedText b := by
    cases hsa : isNegative a <;> cases hsb : isNegative b <;>
      simp only [hsa, hsb, if_true, Bool.false_eq_true, if_false] at htext
    · exact ⟨rfl, htext⟩
    · exact absurd (htext ▸ .head _) (minus_not_mem_unsignedText a)
    · exact absurd (htext ▸ .head _) (minus_not_mem_unsignedText b)
    · exact ⟨rfl, (List.cons.inj htext).2⟩
  obtain ⟨hexponent, hfraction⟩ := unsignedText_inj ha hb hsign.2
  exact eq_of_bits hsign.1 hexponent hfraction

end

end ColumnCipher.Float64
