import ColumnCipher.Document.Json
import ColumnCipher.Text.Case
/-!
Descriptions of the tables of a database, which are given to encryptors that ask for them. Tables
are found by the lower-case forms of their names.
-/
namespace ColumnCipher

structure ColumnMeta where
  name : String
  dataType : String
  primaryKey : Bool
  deriving DecidableEq, Repr

structure TableMeta where
  name : String
  columns : List ColumnMeta
  deriving DecidableEq, Repr

/-- The tables of one schema, by the lower-case forms of their keys. -/
structure Schema where
  tables : Dict TableMeta
  deriving DecidableEq

abbrev Schemas := Dict Schema

namespace ColumnMeta

def fieldNames : List String := ["name", "data_type", "primary_key"]

def ofDocument (d : Document) : Option ColumnMeta := do
  let f ← d.fields? .refused fieldNames
  let name ← Document.required Document.text? f "name"
  let dataType ← Document.required Document.text? f "data_type"
  let primaryKey ← Document.defaulted Document.bool? false f "primary_key"
  return ⟨name, dataType, primaryKey⟩

end ColumnMeta

namespace TableMeta

def fieldNames : List String := ["name", "columns"]

def ofDocument (d : Document) : Option TableMeta := do
  let f ← d.fields? .refused fieldNames
  let name ← Document.required Document.text? f "name"
  let columns ← Document.defaulted (Document.list? ColumnMeta.ofDocument) [] f "columns"
  return ⟨name, columns⟩

def findColumn? (t : TableMeta) (name : String) : Option ColumnMeta :=
  t.columns.find? fun c => Case.lower c.name == Case.lower name

end TableMeta

namespace Schema

/-- Tables under the lower-case forms of given keys; the last of those with one form counts. -/
def ofKeyed (tables : List (String × TableMeta)) : Schema :=
  ⟨.ofList (tables.map fun t => (Case.lower t.1, t.2))⟩

def ofTables (tables : List TableMeta) : Schema := ofKeyed (tables.map fun t => (t.name, t))

def fieldNames : List String := ["tables"]

def ofDocumentIn (walk : Dict.Walk TableMeta) (d : Document) : Option Schema := do
  let f ← d.fields? .refused fieldNames
  let tables ← Document.defaulted (Document.map? TableMeta.ofDocument) .empty f "tables"
  return ofKeyed (walk.entries tables)

def ofDocument (d : Document) : Option Schema := ofDocumentIn .byKey d

def ofJson (s : String) : Option Schema := (Json.read s).bind ofDocument

def findTable? (s : Schema) (name : String) : Option TableMeta := s.tables.find? (Case.lower name)

def size (s : Schema) : Nat := s.tables.size

def isEmpty (s : Schema) : Bool := s.tables.isEmpty

end Schema

end ColumnCipher
