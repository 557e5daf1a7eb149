import ColumnCipher.Toml.Statement
/-!
The lines of a written TOML text. A written text needs only headers and assignments of a text, a
truth value or an empty list to a single key; each line is one statement of the text.
-/
namespace ColumnCipher.Toml

inductive Literal where
  | text (s : String)
  | bool (b : Bool)
  | emptyList
  deriving DecidableEq, Repr

namespace Literal

def render : Literal → List Char
  | text s => quote s.toList
  | bool true => ['t', 'r', 'u', 'e']
  | bool false => ['f', 'a', 'l', 's', 'e']
  | emptyList => ['[', ']']

def document : Literal → Document
  | text s => .text (some s)
  | bool b => .bool b
  | emptyList => .list []

end Literal

inductive Line where
  | assign (key : String) (value : Literal)
  | header (h : Header)
  deriving DecidableEq, Repr

def renderPath (path : List String) (key : String) : List Char :=
  path.flatMap (fun part => quoteKey part.toList ++ ['.']) ++ quoteKey key.toList

namespace Header

def render (h : Header) : List Char :=
  let name := renderPath h.path h.key
  if h.isElement then ['[', '['] ++ name ++ [']', ']'] else '[' :: name ++ [']']

end Header

namespace Line

def statement : Line → Statement
  | assign key v => .assign ⟨[], key, v.document⟩
  | header h => .header h

/-- An empty line stands before each header. -/
def render : Line → List Char
  | assign key v => quoteKey key.toList ++ [' ', '=', ' '] ++ v.render ++ ['\n']
  | header h => '\n' :: h.render ++ ['\n']

end Line

def render (lines : List Line) : String := String.ofList (lines.flatMap Line.render)

end ColumnCipher.Toml
