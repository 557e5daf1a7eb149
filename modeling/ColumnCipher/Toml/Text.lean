/-!
Texts in TOML: the four quotations of a text, the choice among them when one is written, and the
reading of each. Readers take the characters after the opening quotes and give the text and what
follows the closing ones.
-/
namespace ColumnCipher.Toml

/-- How a text is quoted: between double quotes with escapes or between single quotes as it is, and
on one line or on several. -/
inductive Quotation where
  | basic
  | literal
  | basicLines
  | literalLines
  deriving DecidableEq, Repr

/-- Control characters other than the tab. -/
def isControl (c : Char) : Bool := (c.toNat < 0x20 && c != '\t') || c.toNat == 0x7F

/-- The length of the longest run of a character; `run` is the length of the run that a text begins
in. -/
def longestRun (quote : Char) (run : Nat) : List Char → Nat
  | [] => run
  | c :: rest =>
    if c = quote then longestRun quote (run + 1) rest else max run (longestRun quote 0 rest)

def quotation (s : List Char) : Quotation :=
  let control := s.any fun c => isControl c && c != '\n'
  let backslash := s.contains '\\'
  let newline := s.contains '\n'
  let double := longestRun '"' 0 s
  let single := longestRun '\'' 0 s
  if !control && !backslash && !newline && double == 0 then .basic
  else if !control && !newline && single == 0 then .literal
  else if !control && !backslash && double ≤ 2 then .basicLines
  else if !control && single ≤ 2 then .literalLines
  else if newline then .basicLines
  else .basic

def hexDigit (n : Nat) : Char := (Nat.digitChar n).toUpper

def escape (c : Char) : List Char :=
  match c with
  | '\x08' => ['\\', 'b']
  | '\t' => ['\\', 't']
  | '\n' => ['\\', 'n']
  | '\x0c' => ['\\', 'f']
  | '\r' => ['\\', 'r']
  | '"' => ['\\', '"']
  | '\\' => ['\\', '\\']
  | c =>
    if isControl c then
      ['\\', 'u', '0', '0', hexDigit (c.toNat / 16), hexDigit (c.toNat % 16)]
    else [c]

/-- Text on several lines: newlines stand for themselves, and of double quotes in a row each third
is escaped. `run` counts the unescaped double quotes just before. -/
def escapeLines (run : Nat) : List Char → List Char
  | [] => []
  | '\n' :: rest => '\n' :: escapeLines 0 rest
  | '"' :: rest =>
    if run = 2 then '\\' :: '"' :: escapeLines 0 rest else '"' :: escapeLines (run + 1) rest
  | c :: rest => escape c ++ escapeLines 0 rest

/-- A newline after the opening quotes, which readers drop, before a text that has lines. -/
def firstLine (s : List Char) : List Char := if s.contains '\n' then ['\n'] else []

def quoteAs (s : List Char) : Quotation → List Char
  | .basic => '"' :: s.flatMap escape ++ ['"']
  | .literal => '\'' :: s ++ ['\'']
  | .basicLines => ['"', '"', '"'] ++ firstLine s ++ escapeLines 0 s ++ ['"', '"', '"']
  | .literalLines => ['\'', '\'', '\''] ++ firstLine s ++ s ++ ['\'', '\'', '\'']

def quote (s : List Char) : List Char := quoteAs s (quotation s)

def isBare (c : Char) : Bool := c.isAlphanum || c == '_' || c == '-'

/-- The quotation of a key, which stays on one line. -/
def keyQuotation (s : List Char) : Quotation :=
  let control := s.any isControl
  if !control && !s.contains '\\' && !s.contains '"' then .basic
  else if !control && !s.contains '\'' then .literal
  else .basic

def quoteKey (s : List Char) : List Char :=
  if !s.isEmpty && s.all isBare then s else quoteAs s (keyQuotation s)

/-! Reading. -/

def hexValue? (c : Char) : Option Nat :=
  if '0' ≤ c ∧ c ≤ '9' then some (c.toNat - '0'.toNat)
  else if 'a' ≤ c ∧ c ≤ 'f' then some (c.toNat - 'a'.toNat + 10)
  else if 'A' ≤ c ∧ c ≤ 'F' then some (c.toNat - 'A'.toNat + 10)
  else none

def hexNumber? (n : Nat) : List Char → Option Nat
  | [] => some n
  | c :: rest => (hexValue? c).bind fun d => hexNumber? (16 * n + d) rest

/-- The character with a number, which has to be one: no surrogate, and not too large. -/
def scalar? (n : Nat) : Option Char := if n.isValidChar then some (Char.ofNat n) else none

def numbered? (digits : List Char) : Option Char := (hexNumber? 0 digits).bind scalar?

def escaped? : Char → Option Char
  | 'b' => some '\x08'
  | 't' => some '\t'
  | 'n' => some '\n'
  | 'f' => some '\x0c'
  | 'r' => some '\r'
  | '"' => some '"'
  | '\\' => some '\\'
  | _ => none

/-- The characters that may stand in quotes, and in comments, for themselves. -/
def isPlain (c : Char) : Bool := !isControl c

def isSpace (c : Char) : Bool := c == ' ' || c == '\t'

def skipNewline : List Char → List Char
  | '\n' :: rest => rest
  | '\r' :: '\n' :: rest => rest
  | rest => rest

def newline? : List Char → Option (List Char)
  | '\n' :: rest => some rest
  | '\r' :: '\n' :: rest => some rest
  | _ => none

/-- Reads text on one line up to a double quote; `before` holds what was read, last first. -/
def readBasic (before : List Char) : List Char → Option (List Char × List Char)
  | [] => none
  | '"' :: rest => some (before.reverse, rest)
  | '\\' :: 'u' :: a :: b :: c :: d :: rest =>
    match numbered? [a, b, c, d] with
    | some e => readBasic (e :: before) rest
    | none => none
  | '\\' :: 'U' :: a :: b :: c :: d :: e :: f :: g :: h :: rest =>
    match numbered? [a, b, c, d, e, f, g, h] with
    | some e => readBasic (e :: before) rest
    | none => none
  | '\\' :: c :: rest =>
    match escaped? c with
    | some e => readBasic (e :: before) rest
    | none => none
  | c :: rest => if isPlain c then readBasic (c :: before) rest else none

def readLiteral (before : List Char) : List Char → Option (List Char × List Char)
  | [] => none
  | '\'' :: rest => some (before.reverse, rest)
  | c :: rest => if isPlain c then readLiteral (c :: before) rest else none

/-- Closes a text on several lines after a run of at least three quotes: up to two before the last
three belong to the text. -/
def closeLines (quote : Char) (before : List Char) (run : Nat) (rest : List Char) :
    Option (List Char × List Char) :=
  if run ≤ 5 then some (before.reverse ++ List.replicate (run - 3) quote, rest) else none

/-- Where a reader of text on several lines stands: in the text, after a backslash that ends a line,
or in the white space that such a backslash drops. -/
inductive Place where
  | text
  | lineEnd
  | dropped
  deriving DecidableEq, Repr

/-- Reads text on several lines up to three double quotes; `run` counts the double quotes just
before. A backslash at the end of a line drops the white space up to the next text. -/
def readBasicLines (before : List Char) (run : Nat) (place : Place) :
    List Char → Option (List Char × List Char)
  | [] => if 3 ≤ run then closeLines '"' before run [] else none
  | c :: rest =>
    match place with
    | .lineEnd =>
      if isSpace c then readBasicLines before 0 .lineEnd rest
      else match c, rest with
        | '\n', rest => readBasicLines before 0 .dropped rest
        | '\r', '\n' :: rest => readBasicLines before 0 .dropped rest
        | _, _ => none
    | place =>
      if c = '"' then readBasicLines before (run + 1) .text rest
      else if 3 ≤ run then closeLines '"' before run (c :: rest)
      else
        let before := List.replicate run '"' ++ before
        if place = .dropped ∧ (isSpace c ∨ c = '\n') then readBasicLines before 0 .dropped rest
        else match c, rest with
          | '\r', '\n' :: rest =>
            if place = .dropped then readBasicLines before 0 .dropped rest
            else readBasicLines ('\n' :: before) 0 .text rest
          | '\n', rest => readBasicLines ('\n' :: before) 0 .text rest
          | '\\', 'u' :: a :: b :: c :: d :: rest =>
            match numbered? [a, b, c, d] with
            | some e => readBasicLines (e :: before) 0 .text rest
            | none => none
          | '\\', 'U' :: a :: b :: c :: d :: e :: f :: g :: h :: rest =>
            match numbered? [a, b, c, d, e, f, g, h] with
            | some e => readBasicLines (e :: before) 0 .text rest
            | none => none
          | '\\', e :: rest =>
            if isSpace e ∨ e = '\n' ∨ e = '\r' then readBasicLines before 0 .lineEnd (e :: rest)
            else match escaped? e with
              | some e => readBasicLines (e :: before) 0 .text rest
              | none => none
          | c, rest => if isPlain c then readBasicLines (c :: before) 0 .text rest else none

def readLiteralLines (before : List Char) (run : Nat) :
    List Char → Option (List Char × List Char)
  | [] => if 3 ≤ run then closeLines '\'' before run [] else none
  | c :: rest =>
    if c = '\'' then readLiteralLines before (run + 1) rest
    else if 3 ≤ run then closeLines '\'' before run (c :: rest)
    else
      let before := List.replicate run '\'' ++ before
      match c, rest with
      | '\r', '\n' :: rest => readLiteralLines ('\n' :: before) 0 rest
      | '\n', rest => readLiteralLines ('\n' :: before) 0 rest
      | c, rest => if isPlain c then readLiteralLines (c :: before) 0 rest else none

def readQuoted : List Char → Option (List Char × List Char)
  | '"' :: rest => readBasic [] rest
  | '\'' :: rest => readLiteral [] rest
  | _ => none

def readText : List Char → Option (List Char × List Char)
  | '"' :: '"' :: '"' :: rest => readBasicLines [] 0 .text (skipNewline rest)
  | '\'' :: '\'' :: '\'' :: rest => readLiteralLines [] 0 (skipNewline rest)
  | rest => readQuoted rest

def readKey (s : List Char) : Option (List Char × List Char) :=
  match s.takeWhile isBare with
  | [] => readQuoted s
  | bare => some (bare, s.dropWhile isBare)

end ColumnCipher.Toml
