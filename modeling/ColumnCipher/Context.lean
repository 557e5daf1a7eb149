import ColumnCipher.Text.Utf8
/-!
The place of a column: its database, schema, table and column name. The place is authenticated with
every value, so a cipher text moved to another column is refused.
-/
namespace ColumnCipher

structure Context where
  database : String
  schema : String
  table : String
  column : String
  deriving DecidableEq, Repr

namespace Context

/-- The four names with bars between them; a bar inside a name is not marked. -/
def display (c : Context) : String :=
  c.database ++ "|" ++ c.schema ++ "|" ++ c.table ++ "|" ++ c.column

/-- The bytes that algorithms authenticate. -/
def associatedData (c : Context) : Bytes := Utf8.encode c.display

end Context

end ColumnCipher
