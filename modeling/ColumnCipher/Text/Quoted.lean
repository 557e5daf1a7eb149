import ColumnCipher.Text.QuotedData
/-!
Quoted texts and characters, as reports show them: the delimiter, the backslash and the common
control characters are escaped by a letter, and what would not be seen is spelled by its number.
-/
namespace ColumnCipher.Quoted

/-- Whether a character is spelled by its number. -/
def isSpelled (c : Char) : Bool :=
  spelledRanges.any fun range => range.1 ≤ c.toNat && c.toNat ≤ range.2

/-- One character between the given delimiters. -/
def escape (delimiter c : Char) : List Char :=
  if c = delimiter ∨ c = '\\' then ['\\', c]
  else match c with
    | '\n' => ['\\', 'n']
    | '\r' => ['\\', 'r']
    | '\t' => ['\\', 't']
    | '\x00' => ['\\', '0']
    | _ => if isSpelled c then "\\u\x7b".toList ++ Nat.toDigits 16 c.toNat ++ ['}'] else [c]

def text (s : String) : String :=
  String.ofList ('"' :: s.toList.flatMap (escape '"') ++ ['"'])

def character (c : Char) : String := String.ofList ('\'' :: escape '\'' c ++ ['\''])

end ColumnCipher.Quoted
