import ColumnCipher.Toml.Scalar
import ColumnCipher.Toml.Text
import ColumnCipher.Toml.Tree
/-!
Values in TOML: texts, scalars, lists between brackets and records between braces. Lists and records
nest to a limited depth, and so do keys with dots.
-/
namespace ColumnCipher.Toml

/-- Lists and records nest less deep than this, and a key has fewer parts. -/
def depthLimit : Nat := 80

abbrev Reader (α : Type) := List Char → Option (α × List Char)

def skipSpaces (s : List Char) : List Char := s.dropWhile isSpace

def skipComment : List Char → Option (List Char)
  | '#' :: rest =>
    let rest := rest.dropWhile isPlain
    if rest.isEmpty || (newline? rest).isSome then some rest else none
  | rest => some rest

def skipBlanks : Nat → List Char → List Char
  | 0, s => s
  | fuel + 1, s =>
    match skipSpaces s with
    | '#' :: rest =>
      match newline? (rest.dropWhile isPlain) with
      | some rest => skipBlanks fuel rest
      | none => '#' :: rest
    | rest =>
      match newline? rest with
      | some rest => skipBlanks fuel rest
      | none => rest

/-- Reads the parts of a key with dots, at most `fuel` of them. -/
def readKeyParts : Nat → Reader (List String)
  | 0, _ => none
  | fuel + 1, s =>
    match readKey (skipSpaces s) with
    | none => none
    | some (part, rest) =>
      match skipSpaces rest with
      | '.' :: rest =>
        (readKeyParts fuel rest).map fun (parts, rest) => (String.ofList part :: parts, rest)
      | rest => some ([String.ofList part], rest)

def readPath : Reader (List String × String) := fun s =>
  match readKeyParts (depthLimit - 1) s with
  | some (parts, rest) => parts.getLast?.map fun key => ((parts.dropLast, key), rest)
  | none => none

def readAssignment (value : Reader Document) : Reader Assignment := fun s =>
  match readPath s with
  | some ((path, key), '=' :: rest) =>
    (value (skipSpaces rest)).map fun (d, rest) => (⟨path, key, d⟩, rest)
  | _ => none

/-- Reads the items of a list up to its closing bracket; a comma may follow the last one. -/
def readItems (value : Reader Document) : Nat → Reader (List Document)
  | 0, _ => none
  | fuel + 1, s =>
    match skipBlanks s.length s with
    | ']' :: rest => some ([], rest)
    | s =>
      match value s with
      | none => none
      | some (d, rest) =>
        match skipBlanks rest.length rest with
        | ',' :: rest => (readItems value fuel rest).map fun (ds, rest) => (d :: ds, rest)
        | ']' :: rest => some ([d], rest)
        | _ => none

/-- Reads the assignments of a record up to its closing brace; they stand on one line, and no comma
follows the last one. -/
def readAssignments (value : Reader Document) : Nat → Reader (List Assignment)
  | 0, _ => none
  | fuel + 1, s =>
    match readAssignment value s with
    | none => none
    | some (a, rest) =>
      match skipSpaces rest with
      | ',' :: rest => (readAssignments value fuel rest).map fun (as, rest) => (a :: as, rest)
      | '\x7d' :: rest => some ([a], rest)
      | _ => none

def readRecord (value : Reader Document) : Reader Document := fun s =>
  match skipSpaces s with
  | '\x7d' :: rest => some (.record [], rest)
  | s =>
    match readAssignments value s.length s with
    | none => none
    | some (assignments, rest) => (recordOf assignments []).map fun d => (d, rest)

/-- Reads a value in which lists and records nest at most `depth` deep. -/
def readValue : Nat → Reader Document
  | depth, s =>
    match s with
    | '"' :: _ | '\'' :: _ =>
      (readText s).map fun (text, rest) => (.text (some (String.ofList text)), rest)
    | '[' :: rest =>
      match depth with
      | 0 => none
      | depth + 1 =>
        (readItems (readValue depth) rest.length rest).map fun (items, rest) => (.list items, rest)
    | '\x7b' :: rest =>
      match depth with
      | 0 => none
      | depth + 1 => readRecord (readValue depth) rest
    | s => readScalar s

end ColumnCipher.Toml
