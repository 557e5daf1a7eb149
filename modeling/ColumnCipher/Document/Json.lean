import ColumnCipher.Document.Basic
/-!
Reading JSON texts. A text is cut into tokens, and the tokens are folded into a document with a
stack of the lists and records that are still open, so documents nest to any depth.
-/
namespace ColumnCipher.Json

inductive Token where
  | openRecord
  | closeRecord
  | openList
  | closeList
  | colon
  | comma
  | null
  | bool (b : Bool)
  | number
  | text (s : Option String)
  deriving DecidableEq, Repr

/-- A part of a string: a character, or an escaped UTF-16 unit. -/
inductive Piece where
  | char (c : Char)
  | unit (n : Nat)
  deriving DecidableEq, Repr

def isHigh (n : Nat) : Bool := 0xD800 ≤ n && n < 0xDC00

def isLow (n : Nat) : Bool := 0xDC00 ≤ n && n < 0xE000

/-- The characters of a string, unless a surrogate stands without its other half. -/
def joinPieces : List Piece → Option (List Char)
  | [] => some []
  | .char c :: rest => (joinPieces rest).map (c :: ·)
  | .unit high :: .unit low :: rest =>
    if isHigh high then
      if isLow low then
        let code := 0x10000 + (high - 0xD800) * 0x400 + (low - 0xDC00)
        (joinPieces rest).map (Char.ofNat code :: ·)
      else none
    else if isLow high then none
    else (joinPieces (.unit low :: rest)).map (Char.ofNat high :: ·)
  | .unit n :: rest =>
    if isHigh n || isLow n then none else (joinPieces rest).map (Char.ofNat n :: ·)

def hexDigit? (c : Char) : Option Nat :=
  if '0' ≤ c ∧ c ≤ '9' then some (c.toNat - '0'.toNat)
  else if 'a' ≤ c ∧ c ≤ 'f' then some (c.toNat - 'a'.toNat + 10)
  else if 'A' ≤ c ∧ c ≤ 'F' then some (c.toNat - 'A'.toNat + 10)
  else none

def escaped? : Char → Option Char
  | '"' => some '"'
  | '\\' => some '\\'
  | '/' => some '/'
  | 'b' => some '\x08'
  | 'f' => some '\x0c'
  | 'n' => some '\n'
  | 'r' => some '\r'
  | 't' => some '\t'
  | _ => none

/-- Reads a string after its opening quote; `before` holds the pieces read so far, last first. -/
def readString (before : List Piece) : List Char → Option (List Piece × List Char)
  | [] => none
  | '"' :: rest => some (before.reverse, rest)
  | '\\' :: 'u' :: a :: b :: c :: d :: rest =>
    match hexDigit? a, hexDigit? b, hexDigit? c, hexDigit? d with
    | some a, some b, some c, some d =>
      readString (.unit (((a * 16 + b) * 16 + c) * 16 + d) :: before) rest
    | _, _, _, _ => none
  | '\\' :: c :: rest =>
    match escaped? c with
    | some e => readString (.char e :: before) rest
    | none => none
  | c :: rest => if c.toNat < 0x20 then none else readString (.char c :: before) rest

def skipDigits : List Char → Option (List Char)
  | c :: rest => if c.isDigit then some (rest.dropWhile Char.isDigit) else none
  | [] => none

def skipExponent : List Char → Option (List Char)
  | 'e' :: '+' :: rest | 'e' :: '-' :: rest | 'E' :: '+' :: rest | 'E' :: '-' :: rest =>
    skipDigits rest
  | 'e' :: rest | 'E' :: rest => skipDigits rest
  | rest => some rest

def skipFraction : List Char → Option (List Char)
  | '.' :: rest => (skipDigits rest).bind skipExponent
  | rest => skipExponent rest

/-- Skips a number without its sign; a zero is not followed by more digits of the whole part. -/
def skipMagnitude : List Char → Option (List Char)
  | '0' :: rest => skipFraction rest
  | rest => (skipDigits rest).bind skipFraction

def skipNumber : List Char → Option (List Char)
  | '-' :: rest => skipMagnitude rest
  | rest => skipMagnitude rest

def isBlank (c : Char) : Bool := c == ' ' || c == '\t' || c == '\n' || c == '\r'

def readToken : List Char → Option (Token × List Char)
  | '\x7b' :: rest => some (.openRecord, rest)
  | '\x7d' :: rest => some (.closeRecord, rest)
  | '[' :: rest => some (.openList, rest)
  | ']' :: rest => some (.closeList, rest)
  | ':' :: rest => some (.colon, rest)
  | ',' :: rest => some (.comma, rest)
  | 'n' :: 'u' :: 'l' :: 'l' :: rest => some (.null, rest)
  | 't' :: 'r' :: 'u' :: 'e' :: rest => some (.bool true, rest)
  | 'f' :: 'a' :: 'l' :: 's' :: 'e' :: rest => some (.bool false, rest)
  | '"' :: rest =>
    (readString [] rest).map fun (pieces, rest) =>
      (.text ((joinPieces pieces).map String.ofList), rest)
  | rest => (skipNumber rest).map fun rest => (.number, rest)

/-- Reads the tokens of a text, at most `fuel` of them; `before` holds those read so far, last
first. -/
def readTokens (before : List Token) : Nat → List Char → Option (List Token)
  | fuel, text =>
    match text.dropWhile isBlank with
    | [] => some before.reverse
    | c :: rest =>
      match fuel with
      | 0 => none
      | fuel + 1 =>
        match readToken (c :: rest) with
        | some (token, rest) => readTokens (token :: before) fuel rest
        | none => none

/-- The tokens of a text; each takes at least one character. -/
def tokens (text : List Char) : Option (List Token) := readTokens [] text.length text

/-- A list or record that is still open, its last part first, and a member that waits for its
value. -/
inductive Open where
  | list (items : List Document)
  | record (members : List (Option String × Document))
  | member (name : Option String) (members : List (Option String × Document))

inductive Expected where
  | item
  | itemOrClose
  | name
  | nameOrClose
  | colon (name : Option String)
  | separator
  | nothing (d : Document)

structure State where
  stack : List Open
  expected : Expected

namespace State

/-- A document is complete and goes to the innermost open list or record. -/
def complete (d : Document) : List Open → Option State
  | [] => some ⟨[], .nothing d⟩
  | .list items :: rest => some ⟨.list (d :: items) :: rest, .separator⟩
  | .member name members :: rest => some ⟨.record ((name, d) :: members) :: rest, .separator⟩
  | .record _ :: _ => none

def item (stack : List Open) : Token → Option State
  | .openRecord => some ⟨.record [] :: stack, .nameOrClose⟩
  | .openList => some ⟨.list [] :: stack, .itemOrClose⟩
  | .null => complete .null stack
  | .bool b => complete (.bool b) stack
  | .number => complete .number stack
  | .text s => complete (.text s) stack
  | _ => none

def close : Token → List Open → Option State
  | .closeList, .list items :: rest => complete (.list items.reverse) rest
  | .closeRecord, .record members :: rest => complete (.record members.reverse) rest
  | _, _ => none

def step (s : State) (token : Token) : Option State :=
  match s.expected, token, s.stack with
  | .item, token, stack => item stack token
  | .itemOrClose, .closeList, stack => close .closeList stack
  | .itemOrClose, token, stack => item stack token
  | .nameOrClose, .closeRecord, stack => close .closeRecord stack
  | .nameOrClose, .text name, stack => some ⟨stack, .colon name⟩
  | .name, .text name, stack => some ⟨stack, .colon name⟩
  | .colon name, .colon, .record members :: rest => some ⟨.member name members :: rest, .item⟩
  | .separator, .comma, .list items :: rest => some ⟨.list items :: rest, .item⟩
  | .separator, .comma, .record members :: rest => some ⟨.record members :: rest, .name⟩
  | .separator, token, stack => close token stack
  | _, _, _ => none

end State

def ofTokens (tokens : List Token) : Option Document :=
  match tokens.foldlM State.step ⟨[], .item⟩ with
  | some ⟨_, .nothing d⟩ => some d
  | _ => none

def read (s : String) : Option Document := (tokens s.toList).bind ofTokens

end ColumnCipher.Json
