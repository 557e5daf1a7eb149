import ColumnCipher.Proofs.CipherText
import ColumnCipher.Proofs.Encryptors
/-!
The texts that are accepted as cipher texts: canonical base64, of which there is one for each byte
string. A text that is refused breaks one of the rules by which it is diagnosed, so acceptance and
diagnosis, which look at a text in different pieces, agree on every text.
-/
namespace ColumnCipher

namespace Base64

/-- The canonical form of a text: symbols of the alphabet, padded to a multiple of four. Each padding
sign stands for two bits that the last symbol has too many, and these are zero. -/
structure Canonical (symbols : List Char) (padding : Nat) : Prop where
  mem : ∀ c ∈ symbols, c ∈ alphabet
  padding_le : padding ≤ 2
  whole : (symbols.length + padding) % 4 = 0
  unused : ∀ c, symbols.getLast? = some c → alphabet.idxOf c % Nat.pow 4 padding = 0

def IsCanonical (t : List Char) : Prop :=
  ∃ symbols padding, t = symbols ++ List.replicate padding '=' ∧ Canonical symbols padding

theorem symbol_mem_alphabet {n : Nat} (h : n < 64) : symbol n ∈ alphabet := by
  have all : ∀ n : Fin 64, symbol n ∈ alphabet := by decide +kernel
  exact all ⟨n, h⟩

theorem idxOf_symbol {n : Nat} (h : n < 64) : alphabet.idxOf (symbol n) = n := by
  have all : ∀ n : Fin 64, alphabet.idxOf (symbol n) = n := by decide +kernel
  exact all ⟨n, h⟩

theorem value?_of_mem {c : Char} (h : c ∈ alphabet) : value? c = some (alphabet.idxOf c) := by
  obtain ⟨n, hn⟩ := Option.isSome_iff_exists.mp (List.isSome_idxOf?.mpr h)
  obtain ⟨hlt, hc⟩ := value?_eq_some hn
  rw [value?, hn, hc, idxOf_symbol hlt]

theorem mem_of_value? {c : Char} {n : Nat} (h : value? c = some n) : c ∈ alphabet := by
  obtain ⟨hlt, rfl⟩ := value?_eq_some h
  exact symbol_mem_alphabet hlt

theorem exists_symbol_of_mem {c : Char} (h : c ∈ alphabet) : ∃ n < 64, symbol n = c :=
  ⟨alphabet.idxOf c, (value?_eq_some (value?_of_mem h)).imp_right Eq.symm⟩

theorem ne_pad_of_mem {c : Char} (h : c ∈ alphabet) : c ≠ '=' := by
  obtain ⟨n, hn, rfl⟩ := exists_symbol_of_mem h
  exact symbol_ne_pad hn

/-- Four more symbols before a canonical text leave it canonical. -/
theorem Canonical.cons {a b c d : Char} {symbols : List Char} {padding : Nat}
    (hfour : ∀ x ∈ [a, b, c, d], x ∈ alphabet) (h : Canonical symbols padding) :
    Canonical (a :: b :: c :: d :: symbols) padding where
  mem := by
    intro x hx
    rcases List.mem_append.mp (show x ∈ [a, b, c, d] ++ symbols from hx) with hx | hx
    · exact hfour x hx
    · exact h.mem x hx
  padding_le := h.padding_le
  whole := by
    have := h.whole
    simp only [List.length_cons]
    omega
  unused := by
    intro x hx
    cases symbols with
    | nil =>
      -- A canonical text without symbols has no padding, so no bits are unused.
      have hp : padding = 0 := by
        have hwhole := h.whole
        have hle := h.padding_le
        simp only [List.length_nil] at hwhole
        omega
      rw [hp]
      exact Nat.mod_one _
    | cons y rest => exact h.unused x (by simpa using hx)

/-- What is written is canonical. -/
theorem isCanonical_encodeBytes (b : Bytes) : IsCanonical (encodeBytes b) := by
  fun_induction encodeBytes b with
  | case1 a b c rest ih =>
    obtain ⟨symbols, padding, htext, hcanonical⟩ := ih
    have ha := a.toNat_lt
    have hb := b.toNat_lt
    have hc := c.toNat_lt
    rw [htext]
    refine ⟨_ :: _ :: _ :: _ :: symbols, padding, rfl, hcanonical.cons ?_⟩
    intro x hx
    simp only [List.mem_cons, List.not_mem_nil, or_false] at hx
    rcases hx with rfl | rfl | rfl | rfl <;> exact symbol_mem_alphabet (by omega)
  | case2 a b =>
    have ha := a.toNat_lt
    have hb := b.toNat_lt
    refine ⟨[_, _, _], 1, rfl, ?_, by decide, by simp, ?_⟩
    · intro x hx
      simp only [List.mem_cons, List.not_mem_nil, or_false] at hx
      rcases hx with rfl | rfl | rfl <;> exact symbol_mem_alphabet (by omega)
    · intro x hx
      obtain rfl : symbol (b.toNat % 16 * 4) = x := by simpa using hx
      rw [idxOf_symbol (by omega)]
      exact Nat.mul_mod_left _ 4
  | case3 a =>
    have ha := a.toNat_lt
    refine ⟨[_, _], 2, rfl, ?_, by decide, by simp, ?_⟩
    · intro x hx
      simp only [List.mem_cons, List.not_mem_nil, or_false] at hx
      rcases hx with rfl | rfl <;> exact symbol_mem_alphabet (by omega)
    · intro x hx
      obtain rfl : symbol (a.toNat % 4 * 16) = x := by simpa using hx
      rw [idxOf_symbol (by omega)]
      exact Nat.mul_mod_left _ 16
  | case4 => exact ⟨[], 0, rfl, by simp, by decide, rfl, by simp⟩

/-- The first four symbols of a canonical text can be taken away. -/
theorem Canonical.tail {a b c d : Char} {symbols : List Char} {padding : Nat}
    (h : Canonical (a :: b :: c :: d :: symbols) padding) : Canonical symbols padding where
  mem := by
    intro x hx
    exact h.mem x (by simp [hx])
  padding_le := h.padding_le
  whole := by
    have hwhole := h.whole
    simp only [List.length_cons] at hwhole
    omega
  unused := by
    intro x hx
    cases symbols with
    | nil => simp at hx
    | cons y rest => exact h.unused x (by simpa using hx)

/-- A canonical text is read. -/
theorem Canonical.isSome_decodeChars? {symbols : List Char} {padding : Nat}
    (h : Canonical symbols padding) :
    (decodeChars? (symbols ++ List.replicate padding '=')).isSome := by
  have hle := h.padding_le
  have hwhole := h.whole
  match symbols, h with
  | [], _ =>
    obtain rfl : padding = 0 := by
      simp only [List.length_nil] at hwhole
      omega
    rfl
  | [a], _ =>
    simp only [List.length_cons, List.length_nil] at hwhole
    omega
  | [a, b], h =>
    obtain rfl : padding = 2 := by
      simp only [List.length_cons, List.length_nil] at hwhole
      omega
    have hlow : alphabet.idxOf b % 16 = 0 := h.unused b rfl
    simp [List.replicate, decodeChars?, value?_of_mem (h.mem a (by simp)),
      value?_of_mem (h.mem b (by simp)), hlow]
  | [a, b, c], h =>
    obtain rfl : padding = 1 := by
      simp only [List.length_cons, List.length_nil] at hwhole
      omega
    have hlow : alphabet.idxOf c % 4 = 0 := h.unused c rfl
    have hc := ne_pad_of_mem (h.mem c (by simp))
    simp [decodeChars?, value?_of_mem (h.mem a (by simp)),
      value?_of_mem (h.mem b (by simp)), value?_of_mem (h.mem c (by simp)), hlow]
  | a :: b :: c :: d :: rest, h =>
    obtain ⟨bytes, hbytes⟩ := Option.isSome_iff_exists.mp h.tail.isSome_decodeChars?
    have hd := ne_pad_of_mem (h.mem d (by simp))
    simp only [List.cons_append]
    rw [decodeChars?]
    · simp [value?_of_mem (h.mem a (by simp)), value?_of_mem (h.mem b (by simp)),
        value?_of_mem (h.mem c (by simp)), value?_of_mem (h.mem d (by simp)), hbytes]
    · intro _ hpad _
      exact hd hpad
    · intro hpad _
      exact hd hpad

/-- The texts that are read are the canonical ones. -/
theorem isSome_decodeChars?_iff {t : List Char} :
    (∃ b, decodeChars? t = some b) ↔ IsCanonical t := by
  constructor
  · rintro ⟨b, hb⟩
    rw [← encodeBytes_of_decodeChars? hb]
    exact isCanonical_encodeBytes b
  · rintro ⟨symbols, padding, rfl, h⟩
    exact Option.isSome_iff_exists.mp h.isSome_decodeChars?

/-! Diagnosis. -/

/-- The fault of the length of a text: a single symbol is left over. -/
def lengthFault (text : Bytes) : Option Fault :=
  if text.length % 4 ≠ 1 then none
  else match text.getLast? with
    | some b => if b ≠ pad ∧ (byteValue? b).isNone then some (.invalidByte (text.length - 1) b)
      else some .invalidLength
    | none => none

def fault? (text : Bytes) : Option Fault :=
  let start := (text.length - 1) / 8 * 8
  let last := text.drop start
  let symbols := text.takeWhile (· ≠ pad)
  lengthFault text
    <|> firstStranger 0 (text.take start)
    <|> lastPieceFault start none 0 last
    <|> (if last.length % 4 = 0 then none else some Fault.invalidPadding)
    <|> lastSymbolFault (symbols.length - 1) symbols

theorem fault_eq_getD (text : Bytes) : fault text = (fault? text).getD .invalidPadding := rfl

theorem lengthFault_eq_none_iff {text : Bytes} :
    lengthFault text = none ↔ text.length % 4 ≠ 1 := by
  unfold lengthFault
  split
  · rename_i h
    simp [h]
  · rename_i h
    cases hlast : text.getLast? with
    | none => simp [List.getLast?_eq_none_iff.mp hlast]
    | some b =>
      dsimp only
      split <;> simpa using h

theorem byteValue?_pad : byteValue? pad = none := by decide +kernel

theorem firstStranger_eq_none_iff {offset : Nat} {l : Bytes} :
    firstStranger offset l = none ↔ ∀ b ∈ l, (byteValue? b).isSome := by
  induction l generalizing offset with
  | nil => simp [firstStranger]
  | cons b rest ih =>
    cases hb : byteValue? b <;> simp [firstStranger, hb, ih]

/-- Whether padding may stand at the places from `position` on, all in the second half of a four. -/
def Late (position padding : Nat) : Prop := ∀ i < padding, 2 ≤ (position + i) % 4

theorem late_succ_iff {position padding : Nat} :
    Late position (padding + 1) ↔ 2 ≤ position % 4 ∧ Late (position + 1) padding := by
  constructor
  · intro h
    refine ⟨h 0 (Nat.succ_pos _), fun i hi => ?_⟩
    rw [Nat.add_assoc, Nat.add_comm 1]
    exact h (i + 1) (Nat.succ_lt_succ hi)
  · rintro ⟨hfirst, hrest⟩ i hi
    cases i with
    | zero => exact hfirst
    | succ i =>
      rw [← Nat.add_assoc, Nat.add_right_comm]
      exact hrest i (Nat.lt_of_succ_lt_succ hi)

theorem lastPieceFault_pad {start position : Nat} {first : Option Nat} {rest : Bytes} :
    lastPieceFault start first position (pad :: rest) = none ↔ 2 ≤ position % 4 ∧
      lastPieceFault start (some (first.getD (start + position))) (position + 1) rest = none := by
  simp only [lastPieceFault, if_true]
  split
  · simp only [reduceCtorEq, false_iff, not_and]
    omega
  · rename_i hlate
    simp [Nat.not_lt.mp hlate]

/-- After padding nothing but padding is in order. -/
theorem lastPieceFault_some_eq_none_iff {start first position : Nat} {l : Bytes} :
    lastPieceFault start (some first) position l = none ↔
      ∃ padding, l = List.replicate padding pad ∧ Late position padding := by
  induction l generalizing position with
  | nil =>
    simp only [lastPieceFault, true_iff]
    exact ⟨0, rfl, by simp [Late]⟩
  | cons b rest ih =>
    by_cases hb : b = pad
    · subst hb
      rw [lastPieceFault_pad, Option.getD_some, ih]
      constructor
      · rintro ⟨hfirst, padding, rfl, hrest⟩
        exact ⟨padding + 1, rfl, late_succ_iff.mpr ⟨hfirst, hrest⟩⟩
      · rintro ⟨_ | padding, hl, hlate⟩
        · simp at hl
        · obtain ⟨hfirst, hrest⟩ := late_succ_iff.mp hlate
          exact ⟨hfirst, padding, (List.cons.inj hl).2, hrest⟩
    · simp only [lastPieceFault, hb, if_false, reduceCtorEq, false_iff]
      rintro ⟨_ | padding, hl, -⟩
      · simp at hl
      · exact hb (List.cons.inj hl).1

/-- The last piece is in order if it is symbols and then padding that does not begin too early. -/
theorem lastPieceFault_none_eq_none_iff {start position : Nat} {l : Bytes} :
    lastPieceFault start none position l = none ↔
      ∃ symbols padding, l = symbols ++ List.replicate padding pad ∧
        (∀ b ∈ symbols, (byteValue? b).isSome) ∧ Late (position + symbols.length) padding := by
  induction l generalizing position with
  | nil =>
    simp only [lastPieceFault, true_iff]
    exact ⟨[], 0, rfl, by simp, by simp [Late]⟩
  | cons b rest ih =>
    by_cases hb : b = pad
    · subst hb
      rw [lastPieceFault_pad, lastPieceFault_some_eq_none_iff]
      constructor
      · rintro ⟨hfirst, padding, rfl, hrest⟩
        exact ⟨[], padding + 1, rfl, by simp, late_succ_iff.mpr ⟨hfirst, hrest⟩⟩
      · rintro ⟨symbols, padding, hl, hsymbols, hlate⟩
        cases symbols with
        | nil =>
          cases padding with
          | zero => simp at hl
          | succ padding =>
            obtain ⟨hfirst, hrest⟩ := late_succ_iff.mp hlate
            exact ⟨hfirst, padding, (List.cons.inj hl).2, hrest⟩
        | cons c symbols =>
          have hc := hsymbols c (.head _)
          rw [← (List.cons.inj hl).1, byteValue?_pad] at hc
          exact absurd hc Bool.false_ne_true
    · have hstep : lastPieceFault start none position (b :: rest) = none ↔
          (byteValue? b).isSome ∧ lastPieceFault start none (position + 1) rest = none := by
        cases hvalue : byteValue? b <;> simp [lastPieceFault, hb, hvalue]
      have hplace (n : Nat) : position + 1 + n = position + (n + 1) := by omega
      simp only [hstep, ih, hplace]
      constructor
      · rintro ⟨hvalue, symbols, padding, rfl, hsymbols, hlate⟩
        exact ⟨b :: symbols, padding, rfl, List.forall_mem_cons.mpr ⟨hvalue, hsymbols⟩, hlate⟩
      · rintro ⟨symbols, padding, hl, hsymbols, hlate⟩
        cases symbols with
        | nil =>
          cases padding with
          | zero => simp at hl
          | succ padding => exact absurd (List.cons.inj hl).1 hb
        | cons c symbols =>
          obtain ⟨rfl, rfl⟩ := List.cons.inj hl
          obtain ⟨hvalue, hsymbols⟩ := List.forall_mem_cons.mp hsymbols
          exact ⟨hvalue, symbols, padding, rfl, hsymbols, hlate⟩

/-- The bits that the last symbol has too many are zero. -/
theorem lastSymbolFault_eq_none_iff {offset padding : Nat} {symbols : Bytes}
    (hle : padding ≤ 2) (hwhole : (symbols.length + padding) % 4 = 0) :
    lastSymbolFault offset symbols = none ↔
      ∀ b, symbols.getLast? = some b → (byteValue? b).getD 0 % Nat.pow 4 padding = 0 := by
  unfold lastSymbolFault
  cases symbols.getLast? with
  | none => simp
  | some b =>
    have hp : padding = 0 ∨ padding = 1 ∨ padding = 2 := by omega
    rcases hp with rfl | rfl | rfl
    · rw [show symbols.length % 4 = 0 by omega]
      simp [Nat.mod_one]
    · rw [show symbols.length % 4 = 3 by omega]
      simp
    · rw [show symbols.length % 4 = 2 by omega]
      simp

theorem takeWhile_symbols {symbols : Bytes} (h : ∀ b ∈ symbols, (byteValue? b).isSome)
    (padding : Nat) :
    (symbols ++ List.replicate padding pad).takeWhile (· ≠ pad) = symbols := by
  have hne : ∀ b ∈ symbols, decide (b ≠ pad) = true := by
    intro b hb
    rw [decide_eq_true_iff]
    rintro rfl
    have := h pad hb
    rw [byteValue?_pad] at this
    exact Bool.false_ne_true this
  rw [List.takeWhile_append_of_pos hne]
  cases padding <;> simp [List.replicate_succ]

/-- The rules in the order in which they are checked. -/
theorem fault?_eq_none_iff_rules {text : Bytes} {start : Nat}
    (hstart : start = (text.length - 1) / 8 * 8) : fault? text = none ↔
      text.length % 4 ≠ 1 ∧ (∀ b ∈ text.take start, (byteValue? b).isSome) ∧
      lastPieceFault start none 0 (text.drop start) = none ∧ (text.drop start).length % 4 = 0 ∧
      lastSymbolFault ((text.takeWhile (· ≠ pad)).length - 1) (text.takeWhile (· ≠ pad)) = none := by
  subst hstart
  simp only [fault?, Option.orElse_eq_orElse, Option.orElse_eq_or, Option.or_eq_none_iff,
    lengthFault_eq_none_iff, firstStranger_eq_none_iff, ite_eq_left_iff, reduceCtorEq, imp_false,
    Decidable.not_not]

/-- A text breaks no rule if it is symbols and then padding, is as long as it has to be, and has no
bits too many in its last symbol. -/
theorem fault?_eq_none_iff {text : Bytes} : fault? text = none ↔
    ∃ symbols padding, text = symbols ++ List.replicate padding pad ∧
      (∀ b ∈ symbols, (byteValue? b).isSome) ∧ padding ≤ 2 ∧
      (symbols.length + padding) % 4 = 0 ∧
      ∀ b, symbols.getLast? = some b → (byteValue? b).getD 0 % Nat.pow 4 padding = 0 := by
  obtain ⟨start, hstart⟩ : ∃ start, start = (text.length - 1) / 8 * 8 := ⟨_, rfl⟩
  rw [fault?_eq_none_iff_rules hstart, lastPieceFault_none_eq_none_iff]
  constructor
  · rintro ⟨-, hfront, ⟨symbols, padding, hlast, hsymbols, hlate⟩, hwhole, hunused⟩
    have htext : text = (text.take start ++ symbols) ++ List.replicate padding pad := by
      rw [List.append_assoc, ← hlast, List.take_append_drop]
    have hall : ∀ b ∈ text.take start ++ symbols, (byteValue? b).isSome := by
      intro b hb
      rcases List.mem_append.mp hb with hb | hb
      · exact hfront b hb
      · exact hsymbols b hb
    rw [hlast, List.length_append, List.length_replicate] at hwhole
    -- Three padding signs in a row would reach into the first half of a four.
    have hle : padding ≤ 2 := by
      refine Nat.le_of_not_lt fun hthree => ?_
      have h0 := hlate 0 (by omega)
      have h1 := hlate 1 (by omega)
      have h2 := hlate 2 (by omega)
      omega
    have hlength : ((text.take start ++ symbols).length + padding) % 4 = 0 := by
      rw [List.length_append, List.length_take]
      omega
    rw [htext, takeWhile_symbols hall, lastSymbolFault_eq_none_iff hle hlength] at hunused
    exact ⟨_, padding, htext, hall, hle, hlength, hunused⟩
  · rintro ⟨symbols, padding, rfl, hsymbols, hle, hwhole, hunused⟩
    simp only [List.length_append, List.length_replicate] at hstart
    have hfront : start ≤ symbols.length := by omega
    refine ⟨?_, ?_, ⟨symbols.drop start, padding, ?_, ?_, ?_⟩, ?_, ?_⟩
    · rw [List.length_append, List.length_replicate]
      omega
    · rw [List.take_append_of_le_length hfront]
      exact fun b hb => hsymbols b (List.mem_of_mem_take hb)
    · exact List.drop_append_of_le_length hfront
    · exact fun b hb => hsymbols b (List.mem_of_mem_drop hb)
    · intro i hi
      rw [List.length_drop]
      omega
    · rw [List.length_drop, List.length_append, List.length_replicate]
      omega
    · rw [takeWhile_symbols hsymbols, lastSymbolFault_eq_none_iff hle hwhole]
      exact hunused

/-! From bytes to characters. -/

def byte (c : Char) : UInt8 := UInt8.ofNat c.toNat

theorem encode_ofList_ascii {t : List Char} (h : ∀ c ∈ t, c.toNat < 128) :
    Utf8.encode (String.ofList t) = t.map byte := by
  induction t with
  | nil => rfl
  | cons c t ih =>
    obtain ⟨hc, ht⟩ := List.forall_mem_cons.mp h
    have hsize : c.utf8Size = 1 := by
      rw [Char.utf8Size_eq_one_iff]
      exact UInt32.le_iff_toNat_le.mpr (Nat.le_of_lt_succ hc)
    have hchar : String.utf8EncodeChar c = [byte c] := String.utf8EncodeChar_eq_singleton hsize
    have ih := ih ht
    simp only [Utf8.encode, String.toByteArray_ofList] at ih ⊢
    rw [List.utf8Encode_cons, List.utf8Encode_singleton, ByteArray.data_append, Array.toList_append,
      ih, hchar]
    simp

theorem toNat_lt_of_mem {c : Char} (h : c ∈ alphabet) : c.toNat < 128 := by
  have all : ∀ n : Fin 64, (symbol n).toNat < 128 := by decide +kernel
  obtain ⟨n, hn, rfl⟩ := exists_symbol_of_mem h
  exact all ⟨n, hn⟩

theorem byteValue?_byte {c : Char} (h : c ∈ alphabet) :
    byteValue? (byte c) = some (alphabet.idxOf c) := by
  have all : ∀ n : Fin 64, byteValue? (byte (symbol n)) = some n.val := by decide +kernel
  obtain ⟨n, hn, rfl⟩ := exists_symbol_of_mem h
  rw [idxOf_symbol hn]
  exact all ⟨n, hn⟩

/-- A byte that has a value is the byte of a symbol. -/
theorem exists_mem_of_byteValue? {b : UInt8} (h : (byteValue? b).isSome) :
    ∃ c ∈ alphabet, byte c = b := by
  obtain ⟨n, hn⟩ := Option.isSome_iff_exists.mp h
  refine ⟨Char.ofNat b.toNat, mem_of_value? hn, ?_⟩
  have all : ∀ n : Fin 256, byte (Char.ofNat n.val) = UInt8.ofNat n.val := by decide +kernel
  have hb := all ⟨b.toNat, b.toNat_lt⟩
  rwa [UInt8.ofNat_toNat] at hb

theorem exists_map_byte {l : Bytes} (h : ∀ b ∈ l, (byteValue? b).isSome) :
    ∃ symbols : List Char, (∀ c ∈ symbols, c ∈ alphabet) ∧ symbols.map byte = l := by
  induction l with
  | nil => exact ⟨[], by simp, rfl⟩
  | cons b rest ih =>
    obtain ⟨hb, hrest⟩ := List.forall_mem_cons.mp h
    obtain ⟨c, hc, rfl⟩ := exists_mem_of_byteValue? hb
    obtain ⟨symbols, hsymbols, rfl⟩ := ih hrest
    exact ⟨c :: symbols, List.forall_mem_cons.mpr ⟨hc, hsymbols⟩, rfl⟩

/-- The bytes of symbols and padding. -/
theorem encode_padded {symbols : List Char} (h : ∀ c ∈ symbols, c ∈ alphabet) (padding : Nat) :
    Utf8.encode (String.ofList (symbols ++ List.replicate padding '=')) =
      symbols.map byte ++ List.replicate padding pad := by
  rw [encode_ofList_ascii, List.map_append, List.map_replicate]
  · rfl
  · intro c hc
    rcases List.mem_append.mp hc with hc | hc
    · exact toNat_lt_of_mem (h c hc)
    · rw [(List.mem_replicate.mp hc).2]
      decide

/-- The unused bits of symbols are those of their bytes. -/
theorem unused_map_byte_iff {symbols : List Char} (h : ∀ c ∈ symbols, c ∈ alphabet) (m : Nat) :
    (∀ b, (symbols.map byte).getLast? = some b → (byteValue? b).getD 0 % m = 0) ↔
      ∀ c, symbols.getLast? = some c → alphabet.idxOf c % m = 0 := by
  rw [List.getLast?_map]
  cases hlast : symbols.getLast? with
  | none => simp
  | some c => simp [byteValue?_byte (h c (List.mem_of_getLast? hlast))]

/-- A text breaks no rule exactly if it is canonical. -/
theorem fault?_encode_eq_none_iff (s : String) :
    fault? (Utf8.encode s) = none ↔ IsCanonical s.toList := by
  rw [fault?_eq_none_iff]
  constructor
  · rintro ⟨bytes, padding, hs, hbytes, hle, hwhole, hunused⟩
    obtain ⟨symbols, hsymbols, rfl⟩ := exists_map_byte hbytes
    rw [← encode_padded hsymbols] at hs
    rw [Utf8.encode_injective hs, String.toList_ofList]
    exact ⟨symbols, padding, rfl, hsymbols, hle, by simpa using hwhole,
      (unused_map_byte_iff hsymbols _).mp hunused⟩
  · rintro ⟨symbols, padding, hs, h⟩
    refine ⟨symbols.map byte, padding, ?_, ?_, h.padding_le, by simpa using h.whole,
      (unused_map_byte_iff h.mem _).mpr h.unused⟩
    · rw [← encode_padded h.mem, ← hs, String.ofList_toList]
    · intro b hb
      obtain ⟨c, hc, rfl⟩ := List.mem_map.mp hb
      rw [byteValue?_byte (h.mem c hc)]
      rfl

/-- A text that is not canonical is refused by the first rule that it breaks. -/
theorem decode_of_not_isCanonical {s : String} (h : ¬IsCanonical s.toList) :
    ∃ fault, fault? (Utf8.encode s) = some fault ∧ decode s = .error fault := by
  obtain ⟨fault, hfault⟩ := Option.ne_none_iff_exists'.mp (mt (fault?_encode_eq_none_iff s).mp h)
  refine ⟨fault, hfault, ?_⟩
  unfold decode
  cases hread : decodeChars? s.toList with
  | some b => exact absurd (isSome_decodeChars?_iff.mp ⟨b, hread⟩) h
  | none => rw [fault_eq_getD, hfault, Option.getD_some]

theorem exists_decode_iff {s : String} : (∃ b, decode s = .ok b) ↔ IsCanonical s.toList := by
  constructor
  · intro ⟨b, hb⟩
    rw [← encode_of_decode hb, encode, String.toList_ofList]
    exact isCanonical_encodeBytes b
  · intro h
    obtain ⟨b, hb⟩ := isSome_decodeChars?_iff.mpr h
    exact ⟨b, by rw [decode, hb]⟩

end Base64

/-- The text form of bytes is a bijection between the byte strings and the accepted texts. Bytes are
read back from their text, and an accepted text is written again. Accepted are the canonical texts
and no other values, and of two values that read as the same bytes both are one text. Every other
value is a failed decryption, which for a text names the first rule that the text breaks. -/
theorem cipher_text_is_bijective :
    (∀ b : Bytes, decodeCipher (encodeCipher b) = .ok b) ∧
    (∀ (t : String) (b : Bytes), decodeCipher (.text t) = .ok b → encodeCipher b = .text t) ∧
    (∀ v : Value, (∃ b, decodeCipher v = .ok b) ↔
      ∃ t, v = .text t ∧ Base64.IsCanonical t.toList) ∧
    (∀ (v w : Value) (b : Bytes), decodeCipher v = .ok b → decodeCipher w = .ok b → v = w) ∧
    (∀ v : Value, (¬∃ b, decodeCipher v = .ok b) →
      ∃ fault, decodeCipher v = .error (.decryption fault)) ∧
    (∀ t : String, ¬Base64.IsCanonical t.toList → ∃ fault,
      Base64.fault? (Utf8.encode t) = some fault ∧
      decodeCipher (.text t) = .error (.decryption (.notBase64 fault))) := by
  refine ⟨decodeCipher_encodeCipher, fun t b h => (decodeCipher_eq_ok_iff.mp h).symm, ?_, ?_, ?_, ?_⟩
  · intro v
    cases v with
    | text s =>
      simp only [decodeCipher, Except.mapError_eq_ok_iff, Base64.exists_decode_iff,
        Value.text.injEq, exists_eq_left']
    | _ => simp [decodeCipher]
  · intro v w b hv hw
    rw [decodeCipher_eq_ok_iff.mp hv, decodeCipher_eq_ok_iff.mp hw]
  · intro v hv
    cases hresult : decodeCipher v with
    | ok b => exact absurd ⟨b, hresult⟩ hv
    | error e =>
      obtain ⟨fault, rfl⟩ := Algorithm.decodeCipher_error hresult
      exact ⟨fault, rfl⟩
  · intro t ht
    obtain ⟨fault, hfault, hdecode⟩ := Base64.decode_of_not_isCanonical ht
    refine ⟨fault, hfault, ?_⟩
    rw [decodeCipher, hdecode]
    rfl

end ColumnCipher
