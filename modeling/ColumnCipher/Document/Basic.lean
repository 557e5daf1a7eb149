import ColumnCipher.Dict
/-!
Configuration documents, free of the format that they were written in, and the reading of records
from them. A record is written as named members in any order, or as a list of its fields in their
declared order; a map is written as members only.
-/
namespace ColumnCipher

/-- A document. A text that holds half of a surrogate pair has no characters to give, and numbers
are never used, so neither is kept. -/
inductive Document where
  | null
  | bool (b : Bool)
  | number
  | text (s : Option String)
  | list (items : List Document)
  | record (members : List (Option String × Document))

/-- What becomes of list items beyond the fields of a record. -/
inductive Surplus where
  | refused
  | ignored
  deriving DecidableEq, Repr

namespace Document

abbrev Fields := String → Option Document

def member? (name : String) : List (Option String × Document) → Option Document
  | [] => none
  | (key, d) :: rest => if key = some name then some d else member? name rest

def distinctOn (names : List String) (members : List (Option String × Document)) : Bool :=
  names.all fun name => (members.filter fun m => m.1 == some name).length ≤ 1

/-- The field of a list of items that stands at the place of the given name. -/
def itemAt? (name : String) : List String → List Document → Option Document
  | n :: names, d :: items => if n = name then some d else itemAt? name names items
  | _, _ => none

/-- The fields of a record with the given names. Unknown members are ignored; a repeated one is
refused if it is known, and so is a name that is no text. -/
def fields? (surplus : Surplus) (names : List String) : Document → Option Fields
  | record members =>
    if members.all (fun m => m.1.isSome) && distinctOn names members then
      some fun name => member? name members
    else none
  | list items =>
    if surplus = .refused ∧ names.length < items.length then none
    else some fun name => itemAt? name names items
  | _ => none

def required {α : Type} (read : Document → Option α) (f : Fields) (name : String) : Option α :=
  (f name).bind read

def defaulted {α : Type} (read : Document → Option α) (default : α) (f : Fields) (name : String) :
    Option α :=
  match f name with
  | some d => read d
  | none => some default

def optional {α : Type} (read : Document → Option α) (f : Fields) (name : String) :
    Option (Option α) :=
  match f name with
  | none => some none
  | some .null => some none
  | some d => (read d).map some

def text? : Document → Option String
  | text s => s
  | _ => none

def bool? : Document → Option Bool
  | bool b => some b
  | _ => none

def each? {α : Type} (read : Document → Option α) : List Document → Option (List α)
  | [] => some []
  | d :: rest =>
    match read d, each? read rest with
    | some a, some as => some (a :: as)
    | _, _ => none

def list? {α : Type} (read : Document → Option α) : Document → Option (List α)
  | list items => each? read items
  | _ => none

def eachMember? {α : Type} (read : Document → Option α) :
    List (Option String × Document) → Option (List (String × α))
  | [] => some []
  | (key, d) :: rest =>
    match key, read d, eachMember? read rest with
    | some key, some a, some as => some ((key, a) :: as)
    | _, _, _ => none

/-- Reads a map; of two members with one name the later counts. -/
def map? {α : Type} (read : Document → Option α) : Document → Option (Dict α)
  | record members => (eachMember? read members).map Dict.ofList
  | _ => none

end Document

end ColumnCipher
