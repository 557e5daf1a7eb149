import ColumnCipher.Toml.Value
/-!
The statements of a TOML text: assignments to keys, headers of tables, and headers that begin the
next table of an array. Each stands on a line of its own. The statements of a text make one record.
-/
namespace ColumnCipher.Toml

inductive Statement where
  | assign (a : Assignment)
  | header (h : Header)

/-- Drops the end of a line: spaces, a comment and the newline, or the end of the text. -/
def readLineEnd (s : List Char) : Option (List Char) :=
  match skipComment (skipSpaces s) with
  | none => none
  | some [] => some []
  | some rest => newline? rest

def readHeader : Reader Header
  | '[' :: rest =>
    match readPath rest with
    | some ((path, key), ']' :: ']' :: rest) => some (⟨path, key, true⟩, rest)
    | _ => none
  | rest =>
    match readPath rest with
    | some ((path, key), ']' :: rest) => some (⟨path, key, false⟩, rest)
    | _ => none

def readStatement : Reader Statement
  | '[' :: rest => (readHeader rest).map fun (h, rest) => (.header h, rest)
  | s => (readAssignment (readValue (depthLimit - 1)) s).map fun (a, rest) => (.assign a, rest)

/-- Reads lines, at most `fuel` of them, some of which hold a statement. -/
def readLines : Nat → List Char → Option (List Statement)
  | fuel, s =>
    match skipSpaces s with
    | [] => some []
    | c :: rest =>
      match fuel with
      | 0 => none
      | fuel + 1 =>
        if c = '#' || c = '\n' || c = '\r' then (readLineEnd (c :: rest)).bind (readLines fuel)
        else
          match readStatement (c :: rest) with
          | none => none
          | some (statement, rest) =>
            match readLineEnd rest with
            | none => none
            | some rest => (readLines fuel rest).map (statement :: ·)

/-- The statements of a text, which may begin with a byte order mark. -/
def statements (s : List Char) : Option (List Statement) :=
  let s := match s with
    | '\ufeff' :: rest => rest
    | s => s
  readLines s.length s

/-- The assignments before the first header, and each header with the assignments after it. -/
def sections : List Statement → List Assignment × List (Header × List Assignment)
  | [] => ([], [])
  | .assign a :: rest => (a :: (sections rest).1, (sections rest).2)
  | .header h :: rest => ([], (h, (sections rest).1) :: (sections rest).2)

def ofStatements (l : List Statement) : Option Document := recordOf (sections l).1 (sections l).2

def read (s : String) : Option Document := (statements s.toList).bind ofStatements

end ColumnCipher.Toml
