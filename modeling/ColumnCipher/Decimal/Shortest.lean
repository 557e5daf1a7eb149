import ColumnCipher.Decimal.Integer
/-!
The text of a 64-bit float: the fewest decimal digits that read back as the same float, of those the
digits nearest to it, written without an exponent. A float is given by its bits; the finite ones are
`mantissa * 2 ^ exponent`, and the reals that read back as one form an interval around it, whose
ends belong to it exactly when the mantissa is even.
-/
namespace ColumnCipher.Float64

def isNegative (bits : UInt64) : Bool := bits >>> 63 == 1

def exponentBits (bits : UInt64) : Nat := ((bits >>> 52) &&& 0x7FF).toNat

def fractionBits (bits : UInt64) : Nat := (bits &&& 0xFFFFFFFFFFFFF).toNat

def isNaN (bits : UInt64) : Bool := exponentBits bits == 0x7FF && fractionBits bits != 0

def isZero (bits : UInt64) : Bool := bits <<< 1 == 0

/-- Numeric equality: no float that is not a number equals any, and the two zeros are equal. -/
def equal (a b : UInt64) : Bool :=
  !isNaN a && !isNaN b && (a == b || (isZero a && isZero b))

/-- The magnitude of a finite float is `mantissa * 2 ^ exponent`. -/
structure Binary where
  mantissa : Nat
  exponent : Int
  deriving DecidableEq, Repr

/-- A decimal number is `digits * 10 ^ exponent`. -/
structure Numeral where
  digits : Nat
  exponent : Int
  deriving DecidableEq, Repr

def magnitude (bits : UInt64) : Binary :=
  match exponentBits bits with
  | 0 => ⟨fractionBits bits, -1074⟩
  | e + 1 => ⟨fractionBits bits + Nat.pow 2 52, (e : Int) - 1074⟩

namespace Binary

/-- Whether the next smaller float is only half as far away as the next larger one. -/
def narrowBelow (x : Binary) : Bool := x.mantissa == Nat.pow 2 52 && x.exponent != -1074

/-- Compares `d * 10 ^ e` with `n * 2 ^ (x.exponent - 2)`, in whole numbers. -/
def compareQuarters (x : Binary) (d : Numeral) (n : Nat) : Ordering :=
  let shift := x.exponent - 2
  compare (d.digits * Nat.pow 10 d.exponent.toNat * Nat.pow 2 (-shift).toNat)
    (n * Nat.pow 2 shift.toNat * Nat.pow 10 (-d.exponent).toNat)

def readsBack (x : Binary) (d : Numeral) : Bool :=
  let even := x.mantissa % 2 == 0
  let low := if x.narrowBelow then 4 * x.mantissa - 1 else 4 * x.mantissa - 2
  let aboveLow := match x.compareQuarters d low with
    | .gt => true
    | .eq => even
    | .lt => false
  let belowHigh := match x.compareQuarters d (4 * x.mantissa + 2) with
    | .lt => true
    | .eq => even
    | .gt => false
  aboveLow && belowHigh

/-- The number of decimal digits; zero has none. -/
def digitCount (n : Nat) : Nat := if n = 0 then 0 else (Nat.toDigits 10 n).length

def leadingExponent (x : Binary) : Int :=
  let whole := x.mantissa * Nat.pow 2 x.exponent.toNat
  let scale := Nat.pow 2 (-x.exponent).toNat
  if scale ≤ whole then (digitCount (whole / scale) : Int) - 1
  else -(digitCount ((scale + whole - 1) / whole - 1) : Int)

def floorAt (x : Binary) (e : Int) : Numeral :=
  ⟨x.mantissa * Nat.pow 2 x.exponent.toNat * Nat.pow 10 (-e).toNat
    / (Nat.pow 2 (-x.exponent).toNat * Nat.pow 10 e.toNat), e⟩

/-- The decimal with the given exponent that reads back; of two the nearer, and in a tie the
larger. -/
def candidate? (x : Binary) (e : Int) : Option Numeral :=
  let below := x.floorAt e
  let above : Numeral := ⟨below.digits + 1, e⟩
  match x.readsBack below, x.readsBack above with
  | true, true =>
    some (match x.compareQuarters ⟨below.digits + above.digits, e⟩ (8 * x.mantissa) with
      | .gt => below
      | _ => above)
  | true, false => some below
  | false, true => some above
  | false, false => none

def exact (x : Binary) : Numeral :=
  if 0 ≤ x.exponent then ⟨x.mantissa * Nat.pow 2 x.exponent.toNat, 0⟩
  else ⟨x.mantissa * Nat.pow 5 (-x.exponent).toNat, x.exponent⟩

/-- The decimal of fewest digits that reads back, tried from one digit to seventeen. -/
def shortest (x : Binary) : Numeral :=
  let lead := x.leadingExponent
  ((List.range 17).findSome? fun n : Nat => x.candidate? (lead - n)).getD x.exact

end Binary

namespace Numeral

def trim (d : Numeral) : Numeral :=
  if h : d.digits ≠ 0 ∧ d.digits % 10 = 0 then trim ⟨d.digits / 10, d.exponent + 1⟩ else d
termination_by d.digits
decreasing_by exact Nat.div_lt_self (Nat.pos_of_ne_zero h.1) (by decide)

/-- Digits without an exponent: zeros are added on the right, or a point is set. -/
def render (d : Numeral) : List Char :=
  let digits := Decimal.digits d.digits
  if 0 ≤ d.exponent then digits ++ List.replicate d.exponent.toNat '0'
  else
    let places := (-d.exponent).toNat
    let padded := List.replicate (places + 1 - digits.length) '0' ++ digits
    padded.take (padded.length - places) ++ '.' :: padded.drop (padded.length - places)

end Numeral

def renderMagnitude (x : Binary) : List Char :=
  if x.mantissa = 0 then ['0'] else x.shortest.trim.render

def render (bits : UInt64) : String :=
  if exponentBits bits = 0x7FF then
    if fractionBits bits ≠ 0 then "NaN" else if isNegative bits then "-inf" else "inf"
  else
    let text := renderMagnitude (magnitude bits)
    String.ofList (if isNegative bits then '-' :: text else text)

end ColumnCipher.Float64
