import ColumnCipher.Document.Basic
import ColumnCipher.Decimal.Integer
/-!
Numbers, dates, times and truth values in TOML. A value of this kind is a longest run of letters,
digits and a few signs; a space may stand between a date and its time. Only its validity is of
interest, but a date counts as a record of its text where a map is expected.
-/
namespace ColumnCipher.Toml

def isScalarChar (c : Char) : Bool :=
  c.isAlphanum || c == '+' || c == '-' || c == '_' || c == '.' || c == ':'

/-- The digits among underscores, each of which stands between two digits. -/
def ungroup (isDigit : Char → Bool) : List Char → Option (List Char)
  | [] => none
  | [c] => if isDigit c then some [c] else none
  | c :: '_' :: rest => if isDigit c then (ungroup isDigit rest).map (c :: ·) else none
  | c :: rest => if isDigit c then (ungroup isDigit rest).map (c :: ·) else none

def digitValue (c : Char) : Nat :=
  if c.isDigit then c.toNat - '0'.toNat else c.toLower.toNat - 'a'.toNat + 10

def numberIn (base : Nat) (digits : List Char) : Nat :=
  digits.foldl (fun n c => base * n + digitValue c) 0

def isHexDigit (c : Char) : Bool :=
  c.isDigit || ('a' ≤ c && c ≤ 'f') || ('A' ≤ c && c ≤ 'F')

/-- Digits of a whole number in base ten, without leading zeros. -/
def wholeDigits? (s : List Char) : Option (List Char) :=
  match ungroup Char.isDigit s with
  | some ('0' :: _ :: _) => none
  | digits => digits

def sign : List Char → Bool × List Char
  | '-' :: rest => (true, rest)
  | '+' :: rest => (false, rest)
  | rest => (false, rest)

def isInteger (s : List Char) : Bool :=
  let fits (base : Nat) (isDigit : Char → Bool) (digits : List Char) : Bool :=
    match ungroup isDigit digits with
    | some digits => numberIn base digits < Nat.pow 2 63
    | none => false
  match s with
  | '0' :: 'x' :: digits => fits 16 isHexDigit digits
  | '0' :: 'o' :: digits => fits 8 (fun c => '0' ≤ c && c ≤ '7') digits
  | '0' :: 'b' :: digits => fits 2 (fun c => c == '0' || c == '1') digits
  | s =>
    let (negative, digits) := sign s
    match wholeDigits? digits with
    | some digits => numberIn 10 digits < (if negative then Nat.pow 2 63 + 1 else Nat.pow 2 63)
    | none => false

def exponent? (s : List Char) : Option Int :=
  let (negative, digits) := sign s
  (ungroup Char.isDigit digits).map fun digits =>
    if negative then -(numberIn 10 digits : Int) else numberIn 10 digits

/-- Whether `digits * 10 ^ exponent` rounds to a finite 64-bit float. -/
def isFinite (digits : Nat) (exponent : Int) : Bool :=
  let size : Int := (Decimal.digits digits).length + exponent
  if digits = 0 || size < 300 then true
  else if 320 < size then false
  else digits * Nat.pow 10 exponent.toNat <
    (Nat.pow 2 1024 - Nat.pow 2 970) * Nat.pow 10 (-exponent).toNat

/-- Whether a text is a float; one that is too large is refused, but not one that is too small. -/
def isFloat (s : List Char) : Bool :=
  let (negative, body) := sign s
  if body = ['i', 'n', 'f'] || body = ['n', 'a', 'n'] then true
  else
    let beforeExponent (c : Char) : Bool := c != 'e' && c != 'E'
    let mantissa := body.takeWhile beforeExponent
    let whole := mantissa.takeWhile (· != '.')
    let fraction? : Option (List Char) :=
      match mantissa.dropWhile (· != '.') with
      | [] => some []
      | _ :: digits => ungroup Char.isDigit digits
    let exponent? : Option Int :=
      match body.dropWhile beforeExponent with
      | [] => some 0
      | _ :: digits => exponent? digits
    match wholeDigits? whole, fraction?, exponent? with
    | some digits, some fraction, some exponent =>
      whole.length < body.length &&
        (negative || isFinite (numberIn 10 (digits ++ fraction)) (exponent - fraction.length))
    | _, _, _ => false

/-- The number that the first `n` characters write, if all are digits, and what follows. -/
def fixedDigits? (n : Nat) (s : List Char) : Option (Nat × List Char) :=
  let digits := s.take n
  if digits.length = n && digits.all Char.isDigit then some (numberIn 10 digits, s.drop n) else none

/-- A date and time of which parts may be missing. Fractions are the digits written. -/
structure Moment where
  date : Option (Nat × Nat × Nat)
  time : Option (Nat × Nat × Nat × List Char)
  offset : Option (List Char)

def isLeapYear (year : Nat) : Bool := year % 4 == 0 && (year % 100 != 0 || year % 400 == 0)

def daysIn (year month : Nat) : Nat :=
  if month = 2 then (if isLeapYear year then 29 else 28)
  else if month = 4 || month = 6 || month = 9 || month = 11 then 30
  else 31

def date? (s : List Char) : Option ((Nat × Nat × Nat) × List Char) := do
  let (year, s) ← fixedDigits? 4 s
  let '-' :: s := s | none
  let (month, s) ← fixedDigits? 2 s
  let '-' :: s := s | none
  let (day, s) ← fixedDigits? 2 s
  if 1 ≤ month && month ≤ 12 && 1 ≤ day && day ≤ daysIn year month then
    some ((year, month, day), s)
  else none

/-- Reads a time of day, which may be a leap second. -/
def time? (s : List Char) : Option ((Nat × Nat × Nat × List Char) × List Char) := do
  let (hour, s) ← fixedDigits? 2 s
  let ':' :: s := s | none
  let (minute, s) ← fixedDigits? 2 s
  let ':' :: s := s | none
  let (second, s) ← fixedDigits? 2 s
  if hour ≤ 23 && minute ≤ 59 && second ≤ 60 then
    match s with
    | '.' :: rest =>
      let fraction := rest.takeWhile Char.isDigit
      if fraction.isEmpty then none
      else some ((hour, minute, second, fraction), rest.dropWhile Char.isDigit)
    | s => some ((hour, minute, second, []), s)
  else none

/-- Reads the offset of a time zone and gives its text, or nothing if no offset is left. -/
def offset? : List Char → Option (Option (List Char))
  | [] => some none
  | ['Z'] | ['z'] => some (some ['Z'])
  | s => do
    let (negative, rest) := sign s
    if rest.length = s.length then none
    let (hour, rest) ← fixedDigits? 2 rest
    let ':' :: rest := rest | none
    let (minute, rest) ← fixedDigits? 2 rest
    if rest.isEmpty && hour ≤ 23 && minute ≤ 59 then
      let minus := negative && hour + minute != 0
      some (some ((if minus then '-' else '+') :: s.drop 1))
    else none

/-- Reads a date, a time, or both, of which only both have an offset. -/
def moment? (s : List Char) : Option Moment :=
  match time? s with
  | some (time, rest) => if rest.isEmpty then some ⟨none, some time, none⟩ else none
  | none =>
    match date? s with
    | none => none
    | some (date, []) => some ⟨some date, none, none⟩
    | some (date, c :: rest) =>
      if c = 'T' || c = 't' || c = ' ' then
        match time? rest with
        | some (time, rest) => (offset? rest).map fun offset => ⟨some date, some time, offset⟩
        | none => none
      else none

namespace Moment

def padded (width n : Nat) : List Char :=
  let digits := Decimal.digits n
  List.replicate (width - digits.length) '0' ++ digits

/-- The first nine digits of a fraction, without the zeros at their end. -/
def fractionText (digits : List Char) : List Char :=
  match ((digits.take 9).reverse.dropWhile (· == '0')).reverse with
  | [] => []
  | kept => '.' :: kept

def render (m : Moment) : List Char :=
  let date := match m.date with
    | some (year, month, day) => padded 4 year ++ '-' :: padded 2 month ++ '-' :: padded 2 day
    | none => []
  let time := match m.time with
    | some (hour, minute, second, fraction) =>
      padded 2 hour ++ ':' :: padded 2 minute ++ ':' :: padded 2 second ++ fractionText fraction
    | none => []
  let between := if m.date.isSome && m.time.isSome then ['T'] else []
  date ++ between ++ time ++ m.offset.getD []

/-- A date or time as a document: a record with the one member that stands for its text. -/
def document (m : Moment) : Document :=
  .record [(some "$__toml_private_datetime", .text (some (String.ofList m.render)))]

end Moment

/-- The run of characters of a scalar at the beginning, a time after a date and a space included,
and what follows it. -/
def scalarRun (s : List Char) : List Char × List Char :=
  let run := s.takeWhile isScalarChar
  match date? run, s.dropWhile isScalarChar with
  | some (_, []), ' ' :: rest =>
    match fixedDigits? 2 rest with
    | some (_, ':' :: _) => (run ++ ' ' :: rest.takeWhile isScalarChar, rest.dropWhile isScalarChar)
    | _ => (run, ' ' :: rest)
  | _, rest => (run, rest)

def readScalar (s : List Char) : Option (Document × List Char) :=
  let (run, rest) := scalarRun s
  if run = ['t', 'r', 'u', 'e'] then some (.bool true, rest)
  else if run = ['f', 'a', 'l', 's', 'e'] then some (.bool false, rest)
  else match moment? run with
    | some m => some (m.document, rest)
    | none => if isInteger run || isFloat run then some (.number, rest) else none

end ColumnCipher.Toml
