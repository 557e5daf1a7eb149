import ColumnCipher.Dict
/-!
Declarative configurations: which columns are encrypted, where their encrypted forms are stored, and
by which named encryptors. They are plain data, and nothing in them is checked.
-/
namespace ColumnCipher

structure AlgorithmConfig where
  type : String
  props : Dict String
  deriving DecidableEq

/-- The physical layout of one logical column. -/
structure ColumnConfig where
  logicColumn : String
  cipherColumn : String
  assistedQueryColumn : Option String
  plainColumn : Option String
  encryptorName : String
  assistedQueryEncryptorName : Option String
  queryWithCipherColumn : Option Bool
  deriving DecidableEq, Repr

structure TableConfig where
  name : String
  columns : List ColumnConfig
  queryWithCipherColumn : Option Bool
  deriving DecidableEq, Repr

structure RuleConfig where
  tables : List TableConfig
  encryptors : Dict AlgorithmConfig
  queryWithCipherColumn : Bool
  deriving DecidableEq

namespace RuleConfig

/-- No tables and no encryptors; queries read the cipher column. -/
def default : RuleConfig := ⟨[], .empty, true⟩

end RuleConfig

end ColumnCipher
