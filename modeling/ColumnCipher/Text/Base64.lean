import ColumnCipher.Decimal.Integer
import ColumnCipher.Text.Utf8
/-!
Base64 text with the standard alphabet and padding. Reading accepts exactly what writing produces:
the padding is complete and the unused low bits of the last symbol are zero. A text that is not
accepted is diagnosed separately, by the first rule that it breaks.
-/
namespace ColumnCipher.Base64

def alphabet : List Char :=
  "ABCDEFGHIJKLMNOPQRSTUVWXYZabcdefghijklmnopqrstuvwxyz0123456789+/".toList

def symbol (n : Nat) : Char := alphabet.getD n 'A'

def value? (c : Char) : Option Nat := alphabet.idxOf? c

theorem value?_symbol {n : Nat} (h : n < 64) : value? (symbol n) = some n := by
  have all : ∀ n : Fin 64, value? (symbol n) = some n.val := by decide +kernel
  exact all ⟨n, h⟩

theorem symbol_ne_pad {n : Nat} (h : n < 64) : symbol n ≠ '=' := by
  have all : ∀ n : Fin 64, symbol n ≠ '=' := by decide +kernel
  exact all ⟨n, h⟩

theorem value?_eq_some {c : Char} {n : Nat} (h : value? c = some n) : n < 64 ∧ c = symbol n := by
  obtain ⟨hn, hc, _⟩ := List.idxOf?_eq_some_iff.mp h
  have hlen : alphabet.length = 64 := by decide +kernel
  refine ⟨hlen ▸ hn, ?_⟩
  simp [symbol, ← hc, List.getD, hn]

/-- Three bytes become four symbols; a shorter end is padded. -/
def encodeBytes : Bytes → List Char
  | a :: b :: c :: rest =>
    symbol (a.toNat / 4) :: symbol (a.toNat % 4 * 16 + b.toNat / 16) ::
      symbol (b.toNat % 16 * 4 + c.toNat / 64) :: symbol (c.toNat % 64) :: encodeBytes rest
  | [a, b] =>
    [symbol (a.toNat / 4), symbol (a.toNat % 4 * 16 + b.toNat / 16), symbol (b.toNat % 16 * 4), '=']
  | [a] => [symbol (a.toNat / 4), symbol (a.toNat % 4 * 16), '=', '=']
  | [] => []

def encode (b : Bytes) : String := String.ofList (encodeBytes b)

/-- Four symbols become three bytes; only the last four may be padded. -/
def decodeChars? : List Char → Option Bytes
  | [] => some []
  | [a, b, '=', '='] =>
    match value? a, value? b with
    | some x, some y => if y % 16 = 0 then some [UInt8.ofNat (x * 4 + y / 16)] else none
    | _, _ => none
  | [a, b, c, '='] =>
    match value? a, value? b, value? c with
    | some x, some y, some z =>
      if z % 4 = 0 then
        some [UInt8.ofNat (x * 4 + y / 16), UInt8.ofNat (y % 16 * 16 + z / 4)]
      else none
    | _, _, _ => none
  | a :: b :: c :: d :: rest =>
    match value? a, value? b, value? c, value? d, decodeChars? rest with
    | some x, some y, some z, some w, some bytes =>
      some (UInt8.ofNat (x * 4 + y / 16) :: UInt8.ofNat (y % 16 * 16 + z / 4) ::
        UInt8.ofNat (z % 4 * 64 + w) :: bytes)
    | _, _, _, _, _ => none
  | _ => none

/-- Reading gives back what was written. -/
theorem decodeChars?_encodeBytes (b : Bytes) : decodeChars? (encodeBytes b) = some b := by
  fun_induction encodeBytes b with
  | case1 a b c rest ih =>
    have ha := a.toNat_lt
    have hb := b.toNat_lt
    have hc := c.toNat_lt
    have hw : c.toNat % 64 < 64 := by omega
    rw [decodeChars?]
    · simp only [value?_symbol (show a.toNat / 4 < 64 by omega),
        value?_symbol (show a.toNat % 4 * 16 + b.toNat / 16 < 64 by omega),
        value?_symbol (show b.toNat % 16 * 4 + c.toNat / 64 < 64 by omega), value?_symbol hw, ih]
      have h1 : a.toNat / 4 * 4 + (a.toNat % 4 * 16 + b.toNat / 16) / 16 = a.toNat := by omega
      have h2 : (a.toNat % 4 * 16 + b.toNat / 16) % 16 * 16 +
          (b.toNat % 16 * 4 + c.toNat / 64) / 4 = b.toNat := by omega
      have h3 : (b.toNat % 16 * 4 + c.toNat / 64) % 4 * 64 + c.toNat % 64 = c.toNat := by omega
      simp only [h1, h2, h3, UInt8.ofNat_toNat]
    · intro _ h _; exact absurd h (symbol_ne_pad hw)
    · intro h _; exact absurd h (symbol_ne_pad hw)
  | case2 a b =>
    have ha := a.toNat_lt
    have hb := b.toNat_lt
    have hz : b.toNat % 16 * 4 < 64 := by omega
    rw [decodeChars?]
    · simp only [value?_symbol (show a.toNat / 4 < 64 by omega),
        value?_symbol (show a.toNat % 4 * 16 + b.toNat / 16 < 64 by omega), value?_symbol hz]
      have h0 : b.toNat % 16 * 4 % 4 = 0 := by omega
      have h1 : a.toNat / 4 * 4 + (a.toNat % 4 * 16 + b.toNat / 16) / 16 = a.toNat := by omega
      have h2 : (a.toNat % 4 * 16 + b.toNat / 16) % 16 * 16 + b.toNat % 16 * 4 / 4 = b.toNat := by
        omega
      simp only [h0, h1, h2, UInt8.ofNat_toNat, if_true]
    · intro h; exact absurd h (symbol_ne_pad hz)
  | case3 a =>
    have ha := a.toNat_lt
    simp only [decodeChars?, value?_symbol (show a.toNat / 4 < 64 by omega),
      value?_symbol (show a.toNat % 4 * 16 < 64 by omega)]
    have h0 : a.toNat % 4 * 16 % 16 = 0 := by omega
    have h1 : a.toNat / 4 * 4 + a.toNat % 4 * 16 / 16 = a.toNat := by omega
    simp only [h0, h1, UInt8.ofNat_toNat, if_true]
  | case4 => rfl

/-- What is read is the written form of the bytes that it gives. -/
theorem encodeBytes_of_decodeChars? {t : List Char} {b : Bytes} (h : decodeChars? t = some b) :
    encodeBytes b = t := by
  fun_induction decodeChars? t generalizing b with
  | case1 => simp_all [encodeBytes]
  | case2 a c x y hy hx hlow =>
    obtain ⟨hx64, rfl⟩ := value?_eq_some hx
    obtain ⟨hy64, rfl⟩ := value?_eq_some hy
    obtain rfl := Option.some.inj h
    rw [encodeBytes, Bytes.toNat_ofNat_of_lt (by omega)]
    congr <;> omega
  | case3 => simp at h
  | case4 => simp at h
  | case5 a c d _ x y z hz hy hx hlow =>
    obtain ⟨hx64, rfl⟩ := value?_eq_some hx
    obtain ⟨hy64, rfl⟩ := value?_eq_some hy
    obtain ⟨hz64, rfl⟩ := value?_eq_some hz
    obtain rfl := Option.some.inj h
    rw [encodeBytes, Bytes.toNat_ofNat_of_lt (by omega), Bytes.toNat_ofNat_of_lt (by omega)]
    congr <;> omega
  | case6 => simp at h
  | case7 => simp at h
  | case8 a c d e rest _ _ x y z w bytes hrest hw hz hy hx ih =>
    obtain ⟨hx64, rfl⟩ := value?_eq_some hx
    obtain ⟨hy64, rfl⟩ := value?_eq_some hy
    obtain ⟨hz64, rfl⟩ := value?_eq_some hz
    obtain ⟨hw64, rfl⟩ := value?_eq_some hw
    obtain rfl := Option.some.inj h
    rw [encodeBytes, Bytes.toNat_ofNat_of_lt (by omega), Bytes.toNat_ofNat_of_lt (by omega),
      Bytes.toNat_ofNat_of_lt (by omega), ih hrest]
    congr <;> omega
  | case9 => simp at h
  | case10 => simp at h

/-- Why a text is not base64; offsets count the bytes of the text. -/
inductive Fault where
  | invalidByte (offset : Nat) (byte : UInt8)
  | invalidLastSymbol (offset : Nat) (byte : UInt8)
  | invalidLength
  | invalidPadding
  deriving DecidableEq, Repr

namespace Fault

def message : Fault → String
  | invalidByte offset byte =>
    "Invalid byte " ++ Decimal.ofNat byte.toNat ++ ", offset " ++ Decimal.ofNat offset ++ "."
  | invalidLastSymbol offset byte =>
    "Invalid last symbol " ++ Decimal.ofNat byte.toNat ++ ", offset " ++ Decimal.ofNat offset ++ "."
  | invalidLength => "Encoded text cannot have a 6-bit remainder."
  | invalidPadding => "Invalid padding"

end Fault

def pad : UInt8 := 0x3D

def byteValue? (b : UInt8) : Option Nat := value? (Char.ofNat b.toNat)

def firstStranger (offset : Nat) : Bytes → Option Fault
  | [] => none
  | b :: rest => if (byteValue? b).isNone then some (.invalidByte offset b)
    else firstStranger (offset + 1) rest

/-- The fault that the bytes of the last eight-byte piece show one by one: padding too early in its
four, a symbol after padding, or a byte that is no symbol. `first` is the padding seen so far. -/
def lastPieceFault (start : Nat) (first : Option Nat) (position : Nat) : Bytes → Option Fault
  | [] => none
  | b :: rest =>
    let offset := start + position
    if b = pad then
      if position % 4 < 2 then some (.invalidByte (first.getD offset) pad)
      else lastPieceFault start (some (first.getD offset)) (position + 1) rest
    else match first with
      | some padded => some (.invalidByte padded pad)
      | none =>
        if (byteValue? b).isNone then some (.invalidByte offset b)
        else lastPieceFault start none (position + 1) rest

/-- The fault of the last symbol before the padding: its unused bits are not zero. -/
def lastSymbolFault (offset : Nat) (symbols : Bytes) : Option Fault :=
  match symbols.getLast?, symbols.length % 4 with
  | some b, 2 => if (byteValue? b).getD 0 % 16 = 0 then none else some (.invalidLastSymbol offset b)
  | some b, 3 => if (byteValue? b).getD 0 % 4 = 0 then none else some (.invalidLastSymbol offset b)
  | _, _ => none

/-- The first rule that a text breaks: its length, the bytes before its last eight-byte piece, the
bytes of that piece, its padding, its last symbol. -/
def fault (text : Bytes) : Fault :=
  let size := text.length
  let start := (size - 1) / 8 * 8
  let last := text.drop start
  let symbols := text.takeWhile (· ≠ pad)
  let lengthFault : Option Fault :=
    if size % 4 ≠ 1 then none
    else match text.getLast? with
      | some b => if b ≠ pad ∧ (byteValue? b).isNone then some (.invalidByte (size - 1) b)
        else some .invalidLength
      | none => none
  (lengthFault
    <|> firstStranger 0 (text.take start)
    <|> lastPieceFault start none 0 last
    <|> (if last.length % 4 = 0 then none else some Fault.invalidPadding)
    <|> lastSymbolFault (symbols.length - 1) symbols).getD .invalidPadding

def decode (s : String) : Except Fault Bytes :=
  match decodeChars? s.toList with
  | some b => .ok b
  | none => .error (fault (Utf8.encode s))

@[simp] theorem decode_encode (b : Bytes) : decode (encode b) = .ok b := by
  simp [decode, encode, decodeChars?_encodeBytes]

/-- Each accepted text is the one written form of its bytes. -/
theorem encode_of_decode {s : String} {b : Bytes} (h : decode s = .ok b) : encode b = s := by
  unfold decode at h
  split at h
  · rename_i hb
    obtain rfl := Except.ok.inj h
    rw [encode, encodeBytes_of_decodeChars? hb, String.ofList_toList]
  · simp at h

/-- Reading is the inverse of writing, on all texts. -/
theorem decode_eq_ok_iff {s : String} {b : Bytes} : decode s = .ok b ↔ encode b = s := by
  constructor
  · exact encode_of_decode
  · rintro rfl
    exact decode_encode b

end ColumnCipher.Base64
