import ColumnCipher.Proofs.PrintedLines
import Mathlib.Algebra.Group.Int.Defs
import Mathlib.Data.List.Forall2
/-!
Arguments as values. An argument is NULL in some mixture of small letters and capitals, or a numeral
of a 64-bit integer, or else a text, and it is read as the one of these that it is. A numeral that is
out of range, by however little, is a text. What is printed for an integer is read as this integer.
-/
namespace ColumnCipher

namespace Decimal

def FitsInt64 (n : Int) : Prop := -2 ^ 63 ≤ n ∧ n ≤ 2 ^ 63 - 1

theorem fitsInt64_iff {n : Int} : FitsInt64 n ↔ ∃ w : Int64, w.toInt = n := by
  have hmin : Int64.minValue.toInt = -2 ^ 63 := by decide
  have hmax : Int64.maxValue.toInt = 2 ^ 63 - 1 := by decide
  constructor
  · rintro ⟨hlow, hhigh⟩
    exact ⟨Int64.ofInt n, Int64.toInt_ofInt_of_le (hmin ▸ hlow) (Int.lt_add_one_of_le hhigh)⟩
  · rintro ⟨w, rfl⟩
    exact ⟨hmin ▸ w.minValue_le_toInt, hmax ▸ w.toInt_le⟩

/-- The numerals in range are the numerals of the 64-bit integers. -/
theorem denotes_and_fitsInt64_iff {text : List Char} {n : Int} :
    Denotes text n ∧ FitsInt64 n ↔ ∃ w : Int64, w.toInt = n ∧ Denotes text w.toInt := by
  rw [fitsInt64_iff]
  constructor
  · rintro ⟨hn, w, rfl⟩
    exact ⟨w, rfl, hn⟩
  · rintro ⟨w, rfl, hn⟩
    exact ⟨hn, w, rfl⟩

/-- A text is no numeral of a 64-bit integer if all that it denotes is out of range. -/
theorem forall_not_denotes_iff {text : List Char} :
    (∀ w : Int64, ¬Denotes text w.toInt) ↔ ∀ n, Denotes text n → ¬FitsInt64 n := by
  constructor
  · intro h n hn hfits
    obtain ⟨w, -, hw⟩ := denotes_and_fitsInt64_iff.mp ⟨hn, hfits⟩
    exact h w hw
  · exact fun h w hw => h _ hw (fitsInt64_iff.mpr ⟨w, rfl⟩)

end Decimal

namespace CommandLine

open Decimal (Denotes FitsInt64)

/-! Letters in either case. -/

def InEitherCase (c capital : Char) : Prop := c = capital ∨ c = capital.toLower

theorem isUpper_iff_toNat {c : Char} : c.isUpper ↔ 65 ≤ c.toNat ∧ c.toNat ≤ 90 := by
  unfold Char.isUpper
  simp [UInt32.le_iff_toNat_le]

theorem toNat_toLower_of_isUpper {c : Char} (hc : c.isUpper) : c.toLower.toNat = c.toNat + 32 := by
  obtain ⟨hlow, hhigh⟩ := isUpper_iff_toNat.mp hc
  unfold Char.toLower
  rw [dif_pos ⟨UInt32.le_iff_toNat_le.mpr hlow, UInt32.le_iff_toNat_le.mpr hhigh⟩]
  change (c.val + 32).toNat = c.toNat + 32
  rw [UInt32.toNat_add]
  change (c.toNat + 32) % 4294967296 = c.toNat + 32
  omega

theorem toUpper_eq_iff {c capital : Char} (hcapital : capital.isUpper) :
    c.toUpper = capital ↔ InEitherCase c capital := by
  obtain ⟨hlow, hhigh⟩ := isUpper_iff_toNat.mp hcapital
  rw [InEitherCase, ← Char.toNat_inj, ← Char.toNat_inj, ← Char.toNat_inj, toNat_toUpper,
    toNat_toLower_of_isUpper hcapital]
  split
  · omega
  · omega

/-- A text becomes a word in capitals exactly if it is this word in some mixture of cases. -/
theorem map_toUpper_eq_iff {text word : List Char} (hword : ∀ c ∈ word, c.isUpper) :
    text.map Char.toUpper = word ↔ List.Forall₂ InEitherCase text word := by
  induction word generalizing text with
  | nil => simp
  | cons capital word ih =>
    obtain ⟨hcapital, hword⟩ := List.forall_mem_cons.mp hword
    cases text with
    | nil => simp
    | cons c text =>
      rw [List.map_cons, List.cons_eq_cons, List.forall₂_cons, toUpper_eq_iff hcapital, ih hword]

/-- The spellings of NULL: its four letters, each of them a capital or small. -/
def SpellsNull (s : String) : Prop := List.Forall₂ InEitherCase s.toList ['N', 'U', 'L', 'L']

variable {s : String} {n : Int}

theorem isNull_iff : IsNull s ↔ SpellsNull s := by
  have hletters : nullText.toList = ['N', 'U', 'L', 'L'] := by decide
  rw [IsNull, hletters]
  exact map_toUpper_eq_iff (List.all_eq_true.mp rfl)

/-! What an argument is read as. -/

/-- What an argument is, as a value. No argument is two of these, since a numeral does not spell NULL
and denotes one integer. -/
inductive StandsFor (s : String) : Option Value → Prop where
  | null : IsNull s → StandsFor s none
  | int {w : Int64} : Denotes s.toList w.toInt → StandsFor s (some (.int w))
  | text : ¬IsNull s → (∀ w : Int64, ¬Denotes s.toList w.toInt) → StandsFor s (some (.text s))

theorem standsFor_readValue (s : String) : StandsFor s (readValue s) := by
  by_cases hnull : IsNull s
  · rw [readValue_of_isNull hnull]
    exact .null hnull
  by_cases hnumeral : ∃ w : Int64, Denotes s.toList w.toInt
  · obtain ⟨w, hw⟩ := hnumeral
    rw [readValue_of_denotes hw]
    exact .int hw
  · have hnone := not_exists.mp hnumeral
    rw [readValue_of_text hnull hnone]
    exact .text hnull hnone

/-- An argument is read as what it stands for. -/
theorem readValue_eq_iff {v : Option Value} : readValue s = v ↔ StandsFor s v := by
  constructor
  · rintro rfl
    exact standsFor_readValue s
  · intro h
    cases h with
    | null hnull => exact readValue_of_isNull hnull
    | int hw => exact readValue_of_denotes hw
    | text hnull hnumeral => exact readValue_of_text hnull hnumeral

theorem standsFor_none_iff : StandsFor s none ↔ SpellsNull s := by
  rw [← isNull_iff]
  exact ⟨fun | .null hnull => hnull, .null⟩

theorem standsFor_int_iff {w : Int64} :
    StandsFor s (some (.int w)) ↔ Denotes s.toList w.toInt :=
  ⟨fun | .int hw => hw, .int⟩

theorem standsFor_text_iff {t : String} :
    StandsFor s (some (.text t)) ↔
      t = s ∧ ¬SpellsNull s ∧ ∀ n, Denotes s.toList n → ¬FitsInt64 n := by
  rw [← isNull_iff, ← Decimal.forall_not_denotes_iff]
  constructor
  · intro h
    cases h with
    | text hnull hnumeral => exact ⟨rfl, hnull, hnumeral⟩
  · rintro ⟨rfl, hnull, hnumeral⟩
    exact .text hnull hnumeral

/-- A numeral has one sign at most. -/
example : readValue "+-5" = some (.text "+-5") := by decide

/-- A numeral that is out of range is a text. -/
theorem readValue_of_not_fitsInt64 (hn : Denotes s.toList n) (hfits : ¬FitsInt64 n) :
    readValue s = some (.text s) := by
  refine readValue_of_text (not_isNull_of_denotes hn) (Decimal.forall_not_denotes_iff.mpr ?_)
  intro m hm
  rwa [hm.unique hn]

/-- The value of an argument is NULL exactly for the spellings of NULL, an integer exactly for the
numerals of it that are in range, and the argument itself as a text exactly for the others, among
them all numerals that are out of range. An integer is read from its printed form. -/
theorem arguments_are_classified (s : String) :
    (readValue s = none ↔ SpellsNull s) ∧
    (∀ n : Int, (∃ w : Int64, w.toInt = n ∧ readValue s = some (.int w)) ↔
      Denotes s.toList n ∧ FitsInt64 n) ∧
    (∀ t, readValue s = some (.text t) ↔
      t = s ∧ ¬SpellsNull s ∧ ∀ n, Denotes s.toList n → ¬FitsInt64 n) ∧
    (∀ n, Denotes s.toList n → ¬FitsInt64 n → readValue s = some (.text s)) ∧
    ∀ w : Int64, readValue (Value.int w).display = some (.int w) := by
  refine ⟨?_, fun n => ?_, fun t => ?_, fun n => readValue_of_not_fitsInt64, fun w => ?_⟩
  · rw [readValue_eq_iff, standsFor_none_iff]
  · simp only [readValue_eq_iff, standsFor_int_iff, Decimal.denotes_and_fitsInt64_iff]
  · rw [readValue_eq_iff, standsFor_text_iff]
  · exact readValue_of_denotes (Decimal.denotes_ofInt w.toInt)

/-- The least integer after zeros, the first numeral that is too large, and NULL. -/
theorem arguments_are_classified_limits :
    Denotes "9223372036854775808".toList 9223372036854775808 ∧
    ¬FitsInt64 9223372036854775808 ∧
    readValue "9223372036854775808" = some (.text "9223372036854775808") ∧
    readValue "-009223372036854775808" = some (.int Int64.minValue) ∧
    readValue "nUlL" = none := by
  have hlarge : Denotes "9223372036854775808".toList 9223372036854775808 :=
    Decimal.denotes_ofInt 9223372036854775808
  have hfits : ¬FitsInt64 9223372036854775808 := by
    rintro ⟨-, h⟩
    omega
  have hdigits : Decimal.AreDigits "009223372036854775808".toList :=
    ⟨by decide, List.all_eq_true.mp rfl⟩
  have hleast : Denotes "-009223372036854775808".toList (-9223372036854775808) := .minus hdigits
  refine ⟨hlarge, hfits, (arguments_are_classified _).2.2.2.1 _ hlarge hfits, ?_, ?_⟩
  · obtain ⟨w, hw, hread⟩ := ((arguments_are_classified _).2.1 _).mpr ⟨hleast, by decide, by decide⟩
    obtain rfl : w = Int64.minValue := Int64.toInt_inj.mp hw
    exact hread
  · exact (arguments_are_classified _).1.mpr
      (.cons (.inr rfl) (.cons (.inl rfl) (.cons (.inr rfl) (.cons (.inl rfl) .nil))))

end CommandLine

end ColumnCipher
