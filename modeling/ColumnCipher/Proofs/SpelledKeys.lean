import ColumnCipher.Proofs.AcceptedTexts
import ColumnCipher.Text.Blank
import ColumnCipher.Text.Hex
import Mathlib.Data.List.TakeWhile
/-!
Spellings of keys. A byte string has one hexadecimal text in lower case, and reading accepts its
digits in any mixture of cases, between any white space. A text that is no spelling of any byte
string has an odd number of bytes, or else a first byte that is no digit.
-/
namespace ColumnCipher

namespace Blank

/-- A text between white space, of which there may be none. -/
def Around (s : String) (text : List Char) : Prop :=
  ∃ before after, s.toList = before ++ text ++ after ∧ (∀ c ∈ before, isBlank c) ∧
    ∀ c ∈ after, isBlank c

/-- What trimming takes away is white space. -/
theorem around_trim (s : String) : Around s (trim s).toList := by
  refine ⟨s.toList.takeWhile isBlank,
    ((s.toList.dropWhile isBlank).reverse.takeWhile isBlank).reverse, ?_, ?_, ?_⟩
  · rw [trim, String.toList_ofList, List.append_assoc, ← List.reverse_append,
      List.takeWhile_append_dropWhile, List.reverse_reverse, List.takeWhile_append_dropWhile]
  · exact fun c hc => List.mem_takeWhile_imp hc
  · exact fun c hc => List.mem_takeWhile_imp (List.mem_reverse.mp hc)

theorem dropWhile_append_of_none {text rest : List Char} (hne : text ≠ [])
    (h : ∀ c ∈ text, ¬isBlank c) : (text ++ rest).dropWhile isBlank = text ++ rest := by
  obtain ⟨c, others, rfl⟩ := List.exists_cons_of_ne_nil hne
  have hc := h c (.head _)
  simp [hc]

/-- A text without white space is what is left when the white space around it is taken away. -/
theorem trim_eq_of_around {s : String} {text : List Char} (h : Around s text)
    (htext : ∀ c ∈ text, ¬isBlank c) : (trim s).toList = text := by
  obtain ⟨before, after, hs, hbefore, hafter⟩ := h
  have hback : ∀ c ∈ after.reverse, isBlank c := fun c hc => hafter c (List.mem_reverse.mp hc)
  rw [trim, String.toList_ofList, hs, List.append_assoc, List.dropWhile_append_of_pos hbefore]
  by_cases hne : text = []
  · subst hne
    have hnone : after.dropWhile isBlank = [] := List.dropWhile_eq_nil_iff.mpr hafter
    simp [hnone]
  · rw [dropWhile_append_of_none hne htext, List.reverse_append,
      List.dropWhile_append_of_pos hback]
    have hreverse : (text.reverse ++ []).dropWhile isBlank = text.reverse ++ [] :=
      dropWhile_append_of_none (by simpa using hne) (fun c hc => htext c (List.mem_reverse.mp hc))
    rw [List.append_nil] at hreverse
    rw [hreverse, List.reverse_reverse]

/-- What holds of texts without white space holds of a trimmed text exactly if it holds of a text
between white space. -/
theorem trim_iff {p : List Char → Prop} (hp : ∀ text, p text → ∀ c ∈ text, ¬isBlank c) {s : String} :
    p (trim s).toList ↔ ∃ text, Around s text ∧ p text := by
  constructor
  · exact fun h => ⟨_, around_trim s, h⟩
  · rintro ⟨text, haround, h⟩
    rwa [trim_eq_of_around haround (hp text h)]

end Blank

namespace Hex

open Base64 (byte encode_ofList_ascii)

def letter (x : UInt8) : Char := Char.ofNat x.toNat

def IsDigit (x : UInt8) : Prop := ∃ n < 16, (letter x).toLower = digit n

/-- A text that spells a byte string: its digits, in any mixture of cases, between white space. -/
def Spells (s : String) (b : Bytes) : Prop :=
  ∃ text, Blank.Around s text ∧ text.map Char.toLower = encode b

theorem toNat_letter (x : UInt8) : (letter x).toNat = x.toNat := by
  have hvalid : x.toNat.isValidChar := .inl (by have := x.toNat_lt; omega)
  rw [letter, Char.ofNat, dif_pos hvalid]
  rfl

theorem letter_byte {c : Char} (h : c.toNat < 128) : letter (byte c) = c := by
  rw [letter, byte, Bytes.toNat_ofNat_of_lt (by omega), Char.ofNat_toNat]

/-- A character is its own lower-case form, or else stands thirty-two places before it. -/
theorem toNat_toLower (c : Char) : c.toNat = c.toLower.toNat ∨
    65 ≤ c.toNat ∧ c.toNat ≤ 90 ∧ c.toNat + 32 = c.toLower.toNat := by
  unfold Char.toLower
  split
  · rename_i h
    obtain ⟨hlow, hhigh⟩ := h
    have hlow : 65 ≤ c.toNat := UInt32.le_iff_toNat_le.mp hlow
    have hhigh : c.toNat ≤ 90 := UInt32.le_iff_toNat_le.mp hhigh
    refine .inr ⟨hlow, hhigh, ?_⟩
    change c.toNat + 32 = (c.val + 32).toNat
    rw [UInt32.toNat_add]
    change c.toNat + 32 = (c.toNat + 32) % 4294967296
    omega
  · exact .inl rfl

/-- The characters of a digit are ASCII characters. -/
theorem toNat_lt_of_toLower {c : Char} {n : Nat} (hn : n < 16) (h : c.toLower = digit n) :
    c.toNat < 128 := by
  have all : ∀ n : Fin 16, (digit n).toNat < 128 := by decide
  have hdigit := all ⟨n, hn⟩
  have hc := toNat_toLower c
  rw [h] at hc
  dsimp only at hdigit
  omega

/-- A byte has the value of the digit that it is. -/
theorem value?_eq_some_iff {x : UInt8} {n : Nat} :
    value? x = some n ↔ n < 16 ∧ (letter x).toLower = digit n := by
  constructor
  · have decimal : ∀ n : Fin 10, (Char.ofNat (0x30 + n)).toLower = digit n := by decide
    have small : ∀ n : Fin 6, (Char.ofNat (0x61 + n)).toLower = digit (10 + n) := by decide
    have capital : ∀ n : Fin 6, (Char.ofNat (0x41 + n)).toLower = digit (10 + n) := by decide
    intro h
    unfold value? at h
    simp only [UInt8.le_iff_toNat_le, UInt8.reduceToNat] at h
    split at h
    · rename_i hx
      obtain rfl := Option.some.inj h
      have hdigit := decimal ⟨x.toNat - 0x30, by omega⟩
      rw [show 0x30 + (x.toNat - 0x30) = x.toNat by omega] at hdigit
      exact ⟨by omega, hdigit⟩
    · split at h
      · rename_i hx
        obtain rfl := Option.some.inj h
        have hdigit := small ⟨x.toNat - 0x61, by omega⟩
        rw [show 0x61 + (x.toNat - 0x61) = x.toNat by omega] at hdigit
        rw [show 10 + (x.toNat - 0x61) = x.toNat - 0x57 by omega] at hdigit
        exact ⟨by omega, hdigit⟩
      · split at h
        · rename_i hx
          obtain rfl := Option.some.inj h
          have hdigit := capital ⟨x.toNat - 0x41, by omega⟩
          rw [show 0x41 + (x.toNat - 0x41) = x.toNat by omega] at hdigit
          rw [show 10 + (x.toNat - 0x41) = x.toNat - 0x37 by omega] at hdigit
          exact ⟨by omega, hdigit⟩
        · simp at h
  · rintro ⟨hn, h⟩
    have own : ∀ n : Fin 16, value? (UInt8.ofNat (digit n).toNat) = some n.val := by decide
    have capital : ∀ n : Fin 16, 65 ≤ (digit n).toNat - 32 →
        value? (UInt8.ofNat ((digit n).toNat - 32)) = some n.val := by decide
    have hx := toNat_toLower (letter x)
    rw [h, toNat_letter] at hx
    rcases hx with hx | ⟨hlow, -, hx⟩
    · have hown := own ⟨n, hn⟩
      rwa [← hx, UInt8.ofNat_toNat] at hown
    · have hcapital := capital ⟨n, hn⟩
      rw [← hx, Nat.add_sub_cancel, UInt8.ofNat_toNat] at hcapital
      exact hcapital hlow

theorem value?_eq_none_iff {x : UInt8} : value? x = none ↔ ¬IsDigit x := by
  rw [Option.eq_none_iff_forall_ne_some]
  simp only [Ne, value?_eq_some_iff, IsDigit, not_exists]

theorem isDigit_of_value? {x : UInt8} {n : Nat} (h : value? x = some n) : IsDigit x :=
  ⟨n, value?_eq_some_iff.mp h⟩

theorem encode_cons (x : UInt8) (b : Bytes) :
    encode (x :: b) = digit (x.toNat / 16) :: digit (x.toNat % 16) :: encode b := rfl

@[simp] theorem length_encode (b : Bytes) : (encode b).length = 2 * b.length := by
  induction b with
  | nil => rfl
  | cons x rest ih =>
    rw [encode_cons, List.length_cons, List.length_cons, List.length_cons, ih]
    omega

/-- The byte of two digits has these digits. -/
theorem digits_of_byte {h l : Nat} (hh : h < 16) (hl : l < 16) :
    (UInt8.ofNat (16 * h + l)).toNat / 16 = h ∧ (UInt8.ofNat (16 * h + l)).toNat % 16 = l := by
  rw [Bytes.toNat_ofNat_of_lt (by omega)]
  omega

/-- Digits of either case are read as the bytes that they are the digits of. -/
theorem decodeFrom_of_digits {text b : Bytes} (position : Nat)
    (h : (text.map fun x => (letter x).toLower) = encode b) : decodeFrom position text = .ok b := by
  induction b generalizing text position with
  | nil =>
    obtain rfl := List.map_eq_nil_iff.mp h
    rfl
  | cons x rest ih =>
    rw [encode_cons] at h
    obtain ⟨high, text, rfl, hhigh, h⟩ := List.map_eq_cons_iff.mp h
    obtain ⟨low, text, rfl, hlow, h⟩ := List.map_eq_cons_iff.mp h
    have hx := x.toNat_lt
    have hh : value? high = some (x.toNat / 16) := value?_eq_some_iff.mpr ⟨by omega, hhigh⟩
    have hl : value? low = some (x.toNat % 16) := value?_eq_some_iff.mpr ⟨by omega, hlow⟩
    rw [decodeFrom, hh, hl, ih _ h]
    change Except.ok (UInt8.ofNat (16 * (x.toNat / 16) + x.toNat % 16) :: rest) = _
    rw [Nat.div_add_mod, UInt8.ofNat_toNat]

/-- What is read are the bytes that the text has the digits of. -/
theorem digits_of_decodeFrom {position : Nat} {text b : Bytes} (heven : text.length % 2 = 0)
    (h : decodeFrom position text = .ok b) :
    (text.map fun x => (letter x).toLower) = encode b := by
  fun_induction decodeFrom position text generalizing b with
  | case1 position high low rest m n hn hm ih =>
    obtain ⟨hm16, hhigh⟩ := value?_eq_some_iff.mp hm
    obtain ⟨hn16, hlow⟩ := value?_eq_some_iff.mp hn
    obtain ⟨bytes, hbytes, rfl⟩ := Except.map_eq_ok_iff.mp h
    have hrest : rest.length % 2 = 0 := by
      simp only [List.length_cons] at heven
      omega
    obtain ⟨hdiv, hmod⟩ := digits_of_byte hm16 hn16
    rw [List.map_cons, List.map_cons, hhigh, hlow, ih hrest hbytes, encode_cons, hdiv, hmod]
  | case2 => simp at h
  | case3 => simp at h
  | case4 text position hshort =>
    obtain rfl := Except.ok.inj h
    match text, hshort, heven with
    | [], _, _ => rfl
    | [_], _, heven => simp at heven
    | high :: low :: rest, hshort, _ => exact absurd rfl (hshort high low rest)

def FirstStranger (text : Bytes) (x : UInt8) (position : Nat) : Prop :=
  ∃ before after, text = before ++ x :: after ∧ before.length = position ∧
    (∀ y ∈ before, IsDigit y) ∧ ¬IsDigit x

theorem FirstStranger.here {x : UInt8} (h : ¬IsDigit x) (rest : Bytes) :
    FirstStranger (x :: rest) x 0 :=
  ⟨[], rest, rfl, rfl, by simp, h⟩

theorem FirstStranger.cons {text : Bytes} {x y : UInt8} {position : Nat} (hy : IsDigit y)
    (h : FirstStranger text x position) : FirstStranger (y :: text) x (position + 1) := by
  obtain ⟨before, after, rfl, rfl, hbefore, hx⟩ := h
  exact ⟨y :: before, after, rfl, rfl, List.forall_mem_cons.mpr ⟨hy, hbefore⟩, hx⟩

/-- What stops the reading is the first byte that is no digit. -/
theorem firstStranger_of_decodeFrom {position : Nat} {text : Bytes} {fault : Fault}
    (h : decodeFrom position text = .error fault) :
    ∃ x i, FirstStranger text x i ∧ fault = .invalidByte x (position + i) := by
  fun_induction decodeFrom position text generalizing fault with
  | case1 position high low rest m n hn hm ih =>
    obtain ⟨x, i, hfirst, rfl⟩ := ih (Except.map_eq_error_iff.mp h)
    refine ⟨x, i + 2, (hfirst.cons (isDigit_of_value? hn)).cons (isDigit_of_value? hm), ?_⟩
    rw [Nat.add_assoc, Nat.add_comm 2 i]
  | case2 position high low rest hhigh =>
    obtain rfl := Except.error.inj h
    exact ⟨high, 0, .here (value?_eq_none_iff.mp hhigh) _, rfl⟩
  | case3 position high low rest m hlow hm =>
    obtain rfl := Except.error.inj h
    exact ⟨low, 1, (FirstStranger.here (value?_eq_none_iff.mp hlow) _).cons
      (isDigit_of_value? hm), rfl⟩
  | case4 => simp at h

/-- There is only one first byte that is no digit. -/
theorem FirstStranger.unique {text : Bytes} {x y : UInt8} {i j : Nat}
    (hx : FirstStranger text x i) (hy : FirstStranger text y j) : x = y ∧ i = j := by
  obtain ⟨before, after, rfl, rfl, hbefore, hx⟩ := hx
  obtain ⟨before', after', htext, rfl, hbefore', hy⟩ := hy
  induction before generalizing before' with
  | nil =>
    cases before' with
    | nil => exact ⟨(List.cons.inj htext).1, rfl⟩
    | cons z before' =>
      obtain rfl := (List.cons.inj htext).1
      exact absurd (hbefore' x (.head _)) hx
  | cons z before ih =>
    cases before' with
    | nil =>
      obtain rfl := (List.cons.inj htext).1
      exact absurd (hbefore z (.head _)) hy
    | cons z' before' =>
      obtain ⟨hxy, hlength⟩ := ih (fun w hw => hbefore w (.tail _ hw)) before'
        (List.cons.inj htext).2 (fun w hw => hbefore' w (.tail _ hw))
      exact ⟨hxy, congrArg (· + 1) hlength⟩

theorem exists_digit_of_mem_encode {b : Bytes} {c : Char} (h : c ∈ encode b) :
    ∃ n < 16, c = digit n := by
  obtain ⟨x, -, hx⟩ := List.mem_flatMap.mp h
  have hlt := x.toNat_lt
  rcases List.mem_cons.mp hx with rfl | hx
  · exact ⟨_, by omega, rfl⟩
  · obtain rfl := List.mem_singleton.mp hx
    exact ⟨_, by omega, rfl⟩

/-- Where the lower-case forms are digits the characters are ASCII characters, and not white space. -/
theorem of_mem_of_map_toLower {text : List Char} {b : Bytes} (h : text.map Char.toLower = encode b)
    {c : Char} (hc : c ∈ text) : c.toNat < 128 ∧ ¬Blank.isBlank c := by
  obtain ⟨n, hn, hdigit⟩ := exists_digit_of_mem_encode (h ▸ List.mem_map_of_mem hc)
  refine ⟨toNat_lt_of_toLower hn hdigit, fun hblank => ?_⟩
  have all : ∀ n : Fin 16, ¬Blank.isBlank (digit n) := by decide
  rcases toNat_toLower c with hsame | ⟨hlow, hhigh, -⟩
  · have hcn : c = digit n := by
      rw [← hdigit]
      exact Char.toNat_inj.mp hsame
    exact all ⟨n, hn⟩ (hcn ▸ hblank)
  · simp only [Blank.isBlank, Bool.or_eq_true, Bool.and_eq_true, decide_eq_true_eq,
      beq_iff_eq] at hblank
    omega

/-- A text is read as the bytes whose digits it has, in either case. -/
theorem decode_eq_ok_iff {s : String} {b : Bytes} :
    decode s = .ok b ↔ s.toList.map Char.toLower = encode b := by
  constructor
  · intro h
    simp only [decode] at h
    split at h
    · simp at h
    · have hdigits := digits_of_decodeFrom (by omega) h
      -- The bytes of digits are those of their characters, so the text has just these characters.
      have hascii : ∀ c ∈ (Utf8.encode s).map letter, c.toNat < 128 := by
        have hlower : ((Utf8.encode s).map letter).map Char.toLower = encode b := by
          rw [List.map_map]
          exact hdigits
        exact fun c hc => (of_mem_of_map_toLower hlower hc).1
      have hbytes : ((Utf8.encode s).map letter).map byte = Utf8.encode s := by
        rw [List.map_map]
        refine (List.map_congr_left fun x _ => ?_).trans (List.map_id _)
        rw [Function.comp_apply, byte, toNat_letter, UInt8.ofNat_toNat, id]
      rw [← encode_ofList_ascii hascii] at hbytes
      rw [← Utf8.encode_injective hbytes, String.toList_ofList, List.map_map]
      exact hdigits
  · intro h
    have hbytes : Utf8.encode s = s.toList.map byte := by
      rw [← encode_ofList_ascii (fun c hc => (of_mem_of_map_toLower h hc).1), String.ofList_toList]
    have hdigits : ((Utf8.encode s).map fun x => (letter x).toLower) = encode b := by
      rw [hbytes, List.map_map, ← h]
      apply List.map_congr_left
      intro c hc
      rw [Function.comp_apply, letter_byte (of_mem_of_map_toLower h hc).1]
    have hlength := congrArg List.length hdigits
    rw [List.length_map, length_encode] at hlength
    simp only [decode]
    rw [if_neg (by omega)]
    exact decodeFrom_of_digits 0 hdigits

/-- An odd number of bytes is the first fault of a text. -/
theorem decode_eq_oddLength_iff {s : String} :
    decode s = .error .oddLength ↔ (Utf8.encode s).length % 2 = 1 := by
  simp only [decode]
  split
  · rename_i hodd
    simp [hodd]
  · rename_i heven
    refine ⟨fun h => ?_, fun hodd => absurd hodd heven⟩
    obtain ⟨x, i, -, hfault⟩ := firstStranger_of_decodeFrom h
    simp at hfault

/-- A text with an even number of bytes has its first byte that is no digit as its fault. -/
theorem decode_eq_invalidByte_iff {s : String} {x : UInt8} {i : Nat} :
    decode s = .error (.invalidByte x i) ↔
      (Utf8.encode s).length % 2 = 0 ∧ FirstStranger (Utf8.encode s) x i := by
  simp only [decode]
  split
  · rename_i hodd
    simp [hodd]
  · rename_i heven
    have heven : (Utf8.encode s).length % 2 = 0 := by omega
    refine ⟨fun h => ?_, fun ⟨_, hx⟩ => ?_⟩
    · obtain ⟨y, j, hy, hfault⟩ := firstStranger_of_decodeFrom h
      obtain ⟨rfl, rfl⟩ := Fault.invalidByte.inj hfault
      rw [Nat.zero_add]
      exact ⟨heven, hy⟩
    · cases h : decodeFrom 0 (Utf8.encode s) with
      | ok b =>
        obtain ⟨before, after, htext, -, -, hstrange⟩ := hx
        have hdigits := digits_of_decodeFrom heven h
        have hmem : x ∈ Utf8.encode s := by simp [htext]
        exact absurd (exists_digit_of_mem_encode (hdigits ▸ List.mem_map_of_mem hmem)) hstrange
      | error fault =>
        obtain ⟨y, j, hy, rfl⟩ := firstStranger_of_decodeFrom h
        obtain ⟨rfl, rfl⟩ := hx.unique hy
        rw [Nat.zero_add]

/-- A text that is read has an even number of bytes. -/
theorem length_of_decode {s : String} {b : Bytes} (h : decode s = .ok b) :
    (Utf8.encode s).length % 2 = 0 := by
  rcases Nat.mod_two_eq_zero_or_one (Utf8.encode s).length with heven | hodd
  · exact heven
  · simp [decode_eq_oddLength_iff.mpr hodd] at h

/-- A text that is read has only digits. -/
theorem not_firstStranger_of_decode {s : String} {b : Bytes} {x : UInt8} {i : Nat}
    (h : decode s = .ok b) : ¬FirstStranger (Utf8.encode s) x i := by
  intro hx
  simp [decode_eq_invalidByte_iff.mpr ⟨length_of_decode h, hx⟩] at h

/-- A text is read, the white space around it being taken away, as the bytes that it spells. -/
theorem decode_trim_eq_ok_iff {s : String} {b : Bytes} :
    decode (Blank.trim s) = .ok b ↔ Spells s b := by
  rw [decode_eq_ok_iff]
  exact Blank.trim_iff (p := fun text => text.map Char.toLower = encode b)
    fun text h c hc => (of_mem_of_map_toLower h hc).2

example : Spells "\taF " [0xAF] := decode_trim_eq_ok_iff.mp rfl

/-- The digits of a byte string in lower case spell it. -/
theorem spells_encode (b : Bytes) : Spells (String.ofList (encode b)) b := by
  have all : ∀ n : Fin 16, (digit n).toLower = digit n := by decide
  refine ⟨encode b, ⟨[], [], by simp, by simp, by simp⟩, ?_⟩
  refine (List.map_congr_left fun c hc => ?_).trans (List.map_id _)
  obtain ⟨n, hn, rfl⟩ := exists_digit_of_mem_encode hc
  exact all ⟨n, hn⟩

end Hex

end ColumnCipher
