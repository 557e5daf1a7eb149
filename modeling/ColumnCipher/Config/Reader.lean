import ColumnCipher.Config.Basic
import ColumnCipher.Document.Json
import ColumnCipher.Toml.Statement
/-!
Configurations from documents. Each record knows its fields by name and by place, and each field is
required, has a default, or is optional.
-/
namespace ColumnCipher

open Document

namespace AlgorithmConfig

def fieldNames : List String := ["type", "props"]

def ofDocument (surplus : Surplus) (d : Document) : Option AlgorithmConfig := do
  let f ← fields? surplus fieldNames d
  let type ← required text? f "type"
  let props ← defaulted (map? text?) .empty f "props"
  return ⟨type, props⟩

end AlgorithmConfig

namespace ColumnConfig

def fieldNames : List String :=
  ["logic_column", "cipher_column", "assisted_query_column", "plain_column", "encryptor_name",
   "assisted_query_encryptor_name", "query_with_cipher_column"]

def ofDocument (surplus : Surplus) (d : Document) : Option ColumnConfig := do
  let f ← fields? surplus fieldNames d
  let logicColumn ← required text? f "logic_column"
  let cipherColumn ← defaulted text? "" f "cipher_column"
  let assistedQueryColumn ← optional text? f "assisted_query_column"
  let plainColumn ← optional text? f "plain_column"
  let encryptorName ← defaulted text? "" f "encryptor_name"
  let assistedQueryEncryptorName ← optional text? f "assisted_query_encryptor_name"
  let queryWithCipherColumn ← optional bool? f "query_with_cipher_column"
  return ⟨logicColumn, cipherColumn, assistedQueryColumn, plainColumn, encryptorName,
    assistedQueryEncryptorName, queryWithCipherColumn⟩

end ColumnConfig

namespace TableConfig

def fieldNames : List String := ["name", "columns", "query_with_cipher_column"]

def ofDocument (surplus : Surplus) (d : Document) : Option TableConfig := do
  let f ← fields? surplus fieldNames d
  let name ← required text? f "name"
  let columns ← defaulted (list? (ColumnConfig.ofDocument surplus)) [] f "columns"
  let queryWithCipherColumn ← optional bool? f "query_with_cipher_column"
  return ⟨name, columns, queryWithCipherColumn⟩

end TableConfig

namespace RuleConfig

def fieldNames : List String := ["tables", "encryptors", "query_with_cipher_column"]

def ofDocument (surplus : Surplus) (d : Document) : Option RuleConfig := do
  let f ← fields? surplus fieldNames d
  let tables ← defaulted (list? (TableConfig.ofDocument surplus)) [] f "tables"
  let encryptors ← defaulted (map? (AlgorithmConfig.ofDocument surplus)) .empty f "encryptors"
  let queryWithCipherColumn ← defaulted bool? true f "query_with_cipher_column"
  return ⟨tables, encryptors, queryWithCipherColumn⟩

def ofJson (s : String) : Option RuleConfig :=
  (Json.read s).bind (ofDocument .refused)

def ofToml (s : String) : Option RuleConfig :=
  (Toml.read s).bind (ofDocument .ignored)

end RuleConfig

end ColumnCipher
