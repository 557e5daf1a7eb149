import ColumnCipher.Text.Utf8
/-!
Hexadecimal text. Byte strings are written with two lower-case digits a byte; reading takes digits
of either case and says what is wrong with a text that is not hexadecimal.
-/
namespace ColumnCipher.Hex

def digit (n : Nat) : Char := Nat.digitChar n

/-- Two digits a byte, the high half first. -/
def encode (b : Bytes) : List Char :=
  b.flatMap fun x => [digit (x.toNat / 16), digit (x.toNat % 16)]

inductive Fault where
  | oddLength
  | invalidByte (byte : UInt8) (position : Nat)
  deriving DecidableEq, Repr

def value? (b : UInt8) : Option Nat :=
  if 0x30 ≤ b ∧ b ≤ 0x39 then some (b.toNat - 0x30)
  else if 0x61 ≤ b ∧ b ≤ 0x66 then some (b.toNat - 0x57)
  else if 0x41 ≤ b ∧ b ≤ 0x46 then some (b.toNat - 0x37)
  else none

/-- Reads pairs of digits from a position on; the first byte that is no digit is the fault. -/
def decodeFrom (position : Nat) : Bytes → Except Fault Bytes
  | high :: low :: rest =>
    match value? high, value? low with
    | some h, some l => (decodeFrom (position + 2) rest).map (UInt8.ofNat (16 * h + l) :: ·)
    | none, _ => .error (.invalidByte high position)
    | some _, none => .error (.invalidByte low (position + 1))
  | _ => .ok []

/-- An odd length is found before any byte that is no digit. -/
def decode (s : String) : Except Fault Bytes :=
  let bytes := Utf8.encode s
  if bytes.length % 2 = 1 then .error .oddLength else decodeFrom 0 bytes

end ColumnCipher.Hex
