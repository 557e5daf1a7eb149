import ColumnCipher.Document.Basic
/-!
Tables as they grow statement by statement. What headers and dotted keys made is told apart from
what was written as a value, because only the former may grow later; a finished table is a record.
-/
namespace ColumnCipher.Toml

/-- How a table came about: by its own header, by the header of a table inside it, or by a dotted
key. -/
inductive Origin where
  | header
  | inner
  | dotted
  deriving DecidableEq, Repr

inductive Node where
  | value (d : Document)
  | table (origin : Origin) (entries : List (String × Node))
  | array (elements : List (List (String × Node)))

abbrev Entries := List (String × Node)

structure Assignment where
  path : List String
  key : String
  value : Document

structure Header where
  path : List String
  key : String
  isElement : Bool
  deriving DecidableEq, Repr

namespace Entries

def find? (key : String) : Entries → Option Node
  | [] => none
  | (k, node) :: rest => if k = key then some node else find? key rest

def replace (key : String) (node : Node) : Entries → Entries
  | [] => []
  | (k, n) :: rest => if k = key then (k, node) :: rest else (k, n) :: replace key node rest

def remove (key : String) (entries : Entries) : Entries := entries.filter fun e => e.1 != key

/-- Changes the table at the end of a path, for an array its last table. Tables that are missing are
made; a dotted path does not enter a table with a header of its own. -/
def modify (dotted : Bool) (change : Origin → Entries → Option Entries) (origin : Origin) :
    List String → Entries → Option Entries
  | [], entries => change origin entries
  | key :: path, entries =>
    let made : Origin := if dotted then .dotted else .inner
    match find? key entries with
    | none =>
      (modify dotted change made path []).map fun inside => entries ++ [(key, .table made inside)]
    | some (.value _) => none
    | some (.array elements) =>
      match elements.getLast? with
      | none => none
      | some last =>
        (modify dotted change .header path last).map fun last =>
          replace key (.array (elements.dropLast ++ [last])) entries
    | some (.table o inside) =>
      if dotted && o = .header then none
      else (modify dotted change o path inside).map fun inside =>
        replace key (.table o inside) entries

/-- Sets a key that is not yet set. A dotted path has to end in a table that dotted keys made. -/
def assign (entries : Entries) (a : Assignment) : Option Entries :=
  modify true
    (fun origin inside =>
      if decide (origin = .dotted) = a.path.isEmpty then none
      else if (find? a.key inside).isSome then none
      else some (inside ++ [(a.key, .value a.value)]))
    .header a.path entries

def assignAll (entries : Entries) (assignments : List Assignment) : Option Entries :=
  assignments.foldlM assign entries

/-- The table that a header opens: a new one, or one that exists only as the place of inner
tables. -/
def opened? (key : String) (parent : Entries) : Option Entries :=
  match find? key parent with
  | none => some []
  | some (.table .inner inside) => some inside
  | some _ => none

def addTable (key : String) (assignments : List Assignment) (parent : Entries) : Option Entries :=
  match opened? key parent with
  | none => none
  | some inside =>
    (assignAll inside assignments).map fun inside =>
      remove key parent ++ [(key, .table .header inside)]

def addElement (key : String) (assignments : List Assignment) (parent : Entries) :
    Option Entries :=
  match assignAll [] assignments with
  | none => none
  | some inside =>
    match find? key parent with
    | none => some (parent ++ [(key, .array [inside])])
    | some (.array elements) => some (replace key (.array (elements ++ [inside])) parent)
    | some _ => none

def addSection (entries : Entries) (s : Header × List Assignment) : Option Entries :=
  let (header, assignments) := s
  modify false
    (fun _ parent =>
      if header.isElement then addElement header.key assignments parent
      else addTable header.key assignments parent)
    .header header.path entries

end Entries

mutual

def Node.document : Node → Document
  | .value d => d
  | .table _ entries => .record (Entries.members entries)
  | .array elements => .list (Entries.records elements)

def Entries.members : Entries → List (Option String × Document)
  | [] => []
  | (key, node) :: rest => (some key, node.document) :: Entries.members rest

def Entries.records : List Entries → List Document
  | [] => []
  | entries :: rest => .record (Entries.members entries) :: Entries.records rest

end

/-- The record that assignments make, and the headers after them with their own assignments. -/
def recordOf (assignments : List Assignment) (sections : List (Header × List Assignment)) :
    Option Document := do
  let top ← Entries.assignAll [] assignments
  let entries ← sections.foldlM Entries.addSection top
  return .record (Entries.members entries)

end ColumnCipher.Toml
