import ColumnCipher.Config.Basic
import ColumnCipher.Toml.Line
/-!
Configurations as TOML texts. Plain fields come before tables, and tables before encryptors;
optional fields that are absent are left out.
-/
namespace ColumnCipher

open Toml

def optionalLine {α : Type} (key : String) (literal : α → Literal) : Option α → List Line
  | some a => [.assign key (literal a)]
  | none => []

namespace ColumnConfig

def lines (c : ColumnConfig) : List Line :=
  [.header ⟨["tables"], "columns", true⟩,
   .assign "logic_column" (.text c.logicColumn),
   .assign "cipher_column" (.text c.cipherColumn)] ++
  optionalLine "assisted_query_column" .text c.assistedQueryColumn ++
  optionalLine "plain_column" .text c.plainColumn ++
  [.assign "encryptor_name" (.text c.encryptorName)] ++
  optionalLine "assisted_query_encryptor_name" .text c.assistedQueryEncryptorName ++
  optionalLine "query_with_cipher_column" .bool c.queryWithCipherColumn

end ColumnConfig

namespace TableConfig

def lines (t : TableConfig) : List Line :=
  [.header ⟨[], "tables", true⟩, .assign "name" (.text t.name)] ++
  (if t.columns.isEmpty then [.assign "columns" .emptyList] else []) ++
  optionalLine "query_with_cipher_column" .bool t.queryWithCipherColumn ++
  t.columns.flatMap ColumnConfig.lines

end TableConfig

/-- An encryptor with its properties listed in some order. -/
structure ListedEncryptor where
  name : String
  type : String
  props : List (String × String)

namespace ListedEncryptor

def lines (e : ListedEncryptor) : List Line :=
  [.header ⟨["encryptors"], e.name, false⟩,
   .assign "type" (.text e.type),
   .header ⟨["encryptors", e.name], "props", false⟩] ++
  e.props.map fun p => .assign p.1 (.text p.2)

def entry (e : ListedEncryptor) : String × AlgorithmConfig :=
  (e.name, ⟨e.type, Dict.ofList e.props⟩)

end ListedEncryptor

namespace RuleConfig

/-- The encryptors and their properties in the order of their names. -/
def listing (c : RuleConfig) : List ListedEncryptor :=
  c.encryptors.entries.map fun e => ⟨e.1, e.2.type, e.2.props.entries⟩

/-- The lines of a configuration whose encryptors are listed in some order. -/
def linesWith (c : RuleConfig) (encryptors : List ListedEncryptor) : List Line :=
  (if c.tables.isEmpty then [.assign "tables" .emptyList] else []) ++
  [.assign "query_with_cipher_column" (.bool c.queryWithCipherColumn)] ++
  c.tables.flatMap TableConfig.lines ++
  (if encryptors.isEmpty then [.header ⟨[], "encryptors", false⟩]
   else encryptors.flatMap ListedEncryptor.lines)

def toToml (c : RuleConfig) : String := Toml.render (c.linesWith c.listing)

end RuleConfig

end ColumnCipher
