import ColumnCipher.Config.Basic
import ColumnCipher.Error
/-!
The check that a configuration passes before a rule is built from it. Every column of every table is
checked, in order, also those that a later one replaces.
-/
namespace ColumnCipher

namespace ColumnConfig

def cipherFault? (registered : String → Bool) (c : ColumnConfig) : Option ColumnFault :=
  if c.cipherColumn = "" then some .cipherColumnRequired
  else if c.encryptorName = "" then some .encryptorNameRequired
  else if registered c.encryptorName then none
  else some (.encryptorNotRegistered c.encryptorName)

def assistedFault? (registered : String → Bool) (c : ColumnConfig) : Option ColumnFault :=
  match c.assistedQueryColumn.getD "", c.assistedQueryEncryptorName.getD "" with
  | "", "" => none
  | _, "" => some .assistedEncryptorNameRequired
  | "", _ => some .assistedColumnRequired
  | _, name => if registered name then none else some (.assistedEncryptorNotRegistered name)

def fault? (registered : String → Bool) (c : ColumnConfig) : Option ColumnFault :=
  (c.cipherFault? registered).or (c.assistedFault? registered)

end ColumnConfig

namespace RuleConfig

/-- The fault of the first column that has one, when the given names are registered. -/
def fault? (registered : String → Bool) (c : RuleConfig) : Option Error :=
  c.tables.findSome? fun t =>
    t.columns.findSome? fun column =>
      (column.fault? registered).map (.invalidConfiguration t.name column.logicColumn)

/-- The error with which a configuration is refused; one with neither tables nor encryptors is
accepted at once. -/
def refusal? (registered : String → Bool) (noEncryptors : Bool) (c : RuleConfig) : Option Error :=
  if c.tables.isEmpty && noEncryptors then none else c.fault? registered

/-- Where there is no table there is no fault, so accepting at once changes no answer. -/
theorem refusal?_eq_fault? (registered : String → Bool) (noEncryptors : Bool) (c : RuleConfig) :
    c.refusal? registered noEncryptors = c.fault? registered := by
  unfold refusal?
  split
  · rename_i h
    have hnil : c.tables = [] := by simp_all
    simp [fault?, hnil]
  · rfl

end RuleConfig

end ColumnCipher
