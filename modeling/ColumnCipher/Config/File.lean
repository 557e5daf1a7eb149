import ColumnCipher.Config.Reader
import ColumnCipher.Error
/-!
Configurations in files. The name of a file tells its format, and what the file turns out to be
decides the error if it holds no configuration.
-/
namespace ColumnCipher

inductive FileView where
  | missing
  | directory
  | content (b : Bytes)
  | unreadable (text : String)
  deriving DecidableEq, Repr

namespace FileView

def text : FileView → Except Error String
  | missing => .error (.file .notFound)
  | directory => .error (.file .isDirectory)
  | unreadable text => .error (.file (.other text))
  | content b =>
    match Utf8.decode? b with
    | some s => .ok s
    | none => .error (.file .notUtf8)

end FileView

namespace RuleConfig

/-- The last part of a path; empty parts and single dots name nothing. -/
def fileName (path : List Char) : List Char :=
  let parts := path.splitOn '/'
  (parts.filter fun part => part ≠ [] ∧ part ≠ ['.']).getLastD []

/-- What follows the last dot of a file name; a dot at its beginning is no such dot. -/
def extension (name : List Char) : List Char :=
  let after := (name.reverse.takeWhile (· != '.')).reverse
  if after.length + 1 < name.length ∧ name ≠ ['.', '.'] then after else []

/-- Whether a file is read as JSON; the letter case of its extension does not count. -/
def isJsonPath (path : String) : Bool :=
  (extension (fileName path.toList)).map Char.toLower = ['j', 's', 'o', 'n']

def ofFile (path : String) (view : FileView) : Except Error RuleConfig :=
  match view.text with
  | .error e => .error e
  | .ok s =>
    match if isJsonPath path then ofJson s else ofToml s with
    | some c => .ok c
    | none => .error .malformedConfiguration

end RuleConfig

end ColumnCipher
