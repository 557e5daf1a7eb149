/-!
Decimal integers. Signed words are printed with a minus sign and no leading zeros; reading takes an
optional sign and any number of digits, and stops at the first character that is no digit or that
carries the number out of range.
-/
namespace ColumnCipher.Decimal

/-- The digits of a natural number, highest first. -/
def digits (n : Nat) : List Char := Nat.toDigits 10 n

def ofNat (n : Nat) : String := String.ofList (digits n)

def ofInt (n : Int) : String :=
  if n < 0 then String.ofList ('-' :: digits n.natAbs) else ofNat n.natAbs

def digit? (c : Char) : Option Nat :=
  if '0' ≤ c ∧ c ≤ '9' then some (c.toNat - '0'.toNat) else none

inductive Fault where
  | empty
  | invalidDigit
  | outOfRange
  deriving DecidableEq, Repr

namespace Fault

def message : Fault → String
  | empty => "cannot parse integer from empty string"
  | invalidDigit => "invalid digit found in string"
  | outOfRange => "number too large to fit in target type"

end Fault

/-- Reads digits onto a number, which may not pass the limit. -/
def readDigits (limit : Nat) : Nat → List Char → Except Fault Nat
  | n, [] => .ok n
  | n, c :: rest =>
    match digit? c with
    | none => .error .invalidDigit
    | some d =>
      if limit < 10 * n + d then .error .outOfRange else readDigits limit (10 * n + d) rest

def readNat (limit : Nat) : List Char → Except Fault Nat
  | [] => .error .invalidDigit
  | c :: rest => readDigits limit 0 (c :: rest)

/-- Reads a number up to the limit; a plus sign may stand before it. -/
def readUnsigned (limit : Nat) : List Char → Except Fault Nat
  | [] => .error .empty
  | '+' :: rest => readNat limit rest
  | text => readNat limit text

def readInt64? (text : List Char) : Option Int64 :=
  match text with
  | '-' :: rest => (readNat (Nat.pow 2 63) rest).toOption.map fun n => Int64.ofInt (-n)
  | '+' :: rest => (readNat (Nat.pow 2 63 - 1) rest).toOption.map fun n => Int64.ofInt n
  | rest => (readNat (Nat.pow 2 63 - 1) rest).toOption.map fun n => Int64.ofInt n

end ColumnCipher.Decimal
