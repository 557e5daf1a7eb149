import ColumnCipher.Registry
import ColumnCipher.Rule.Table
import ColumnCipher.Rule.Validation
/-!
Rules: which columns are encrypted, where, and by which encryptors. A rule is built from a
configuration that passes the check, and does not change afterwards. Tables and columns are found in
any letter case.
-/
namespace ColumnCipher

structure Rule (σ : Type) where
  registry : Registry σ
  tables : Dict Table
  queryWithCipherColumn : Bool

namespace Rule

variable {σ : Type}

def ruleType : String := "EncryptRule"

/-- The tables by the lower-case forms of their names; the last with one form counts. -/
def build (c : RuleConfig) (registry : Registry σ) : Rule σ where
  registry := registry
  tables := .ofList (c.tables.map fun t => (Case.lower t.name, Table.ofConfig t))
  queryWithCipherColumn := c.queryWithCipherColumn

/-- The rule of a configuration with its own encryptors. They are numbered from `id` on, and are
built in the order of `entries` once the check is passed. -/
def ofConfigIn [NonceSource σ] (id : Nat) (c : RuleConfig)
    (entries : List (String × AlgorithmConfig)) : Except Error (Rule σ) :=
  match c.refusal? c.encryptors.contains c.encryptors.isEmpty with
  | some e => .error e
  | none => (Registry.ofEntries id entries).map (build c)

def ofConfig [NonceSource σ] (id : Nat) (c : RuleConfig) : Except Error (Rule σ) :=
  ofConfigIn id c c.encryptors.entries

/-- The rule of a configuration with given encryptors in the place of its own. -/
def withRegistry (c : RuleConfig) (registry : Registry σ) : Except Error (Rule σ) :=
  match c.refusal? registry.contains registry.isEmpty with
  | some e => .error e
  | none => .ok (build c registry)

def findTable? (r : Rule σ) (table : String) : Option Table := r.tables.find? (Case.lower table)

def findColumn? (r : Rule σ) (table column : String) : Option Column :=
  (r.findTable? table).bind fun t => t.findColumn? column

/-- Spellings of one table and of one column lead to one column. -/
theorem findColumn?_congr (r : Rule σ) {table table' column column' : String}
    (htable : Case.lower table = Case.lower table')
    (hcolumn : Case.lower column = Case.lower column') :
    r.findColumn? table column = r.findColumn? table' column' := by
  simp only [findColumn?, findTable?, Table.findColumn?, Columns.find?, htable, hcolumn]

def findEncryptor? (r : Rule σ) (table column : String) : Option (Encryptor σ) :=
  ((r.findTable? table).bind fun t => t.encryptorName? column).bind r.registry.find?

def findAssistedQueryEncryptor? (r : Rule σ) (table column : String) : Option (Encryptor σ) :=
  ((r.findTable? table).bind fun t => t.assistedQueryEncryptorName? column).bind r.registry.find?

theorem findEncryptor?_eq (r : Rule σ) (table column : String) :
    r.findEncryptor? table column =
      (r.findColumn? table column).bind fun c => r.registry.find? c.encryptorName := by
  simp only [findEncryptor?, findColumn?]
  cases r.findTable? table with
  | none => rfl
  | some t =>
    simp only [Table.encryptorName?, Option.bind_some, Option.bind_map]
    rfl

theorem findAssistedQueryEncryptor?_eq (r : Rule σ) (table column : String) :
    r.findAssistedQueryEncryptor? table column =
      (r.findColumn? table column).bind fun c =>
        c.assistedQueryEncryptorName.bind r.registry.find? := by
  simp only [findAssistedQueryEncryptor?, findColumn?]
  cases r.findTable? table with
  | none => rfl
  | some t => simp [Table.assistedQueryEncryptorName?, Option.bind_assoc]

def cipherColumn (r : Rule σ) (table column : String) : Except Error String :=
  match r.findColumn? table column with
  | some c => .ok c.cipherColumn
  | none => .error (.columnNotFound table column)

def logicAndCipherColumns (r : Rule σ) (table : String) : Dict String :=
  match r.findTable? table with
  | some t => t.logicAndCipherColumns
  | none => .empty

def assistedQueryColumn? (r : Rule σ) (table column : String) : Option String :=
  (r.findTable? table).bind fun t => t.assistedQueryColumn? column

theorem assistedQueryColumn?_eq (r : Rule σ) (table column : String) :
    r.assistedQueryColumn? table column =
      (r.findColumn? table column).bind Column.assistedQueryColumn := by
  simp only [assistedQueryColumn?, findColumn?]
  cases r.findTable? table with
  | none => rfl
  | some t => rfl

def assistedQueryColumns (r : Rule σ) (table : String) : List String :=
  match r.findTable? table with
  | some t => t.assistedQueryColumns
  | none => []

/-- The physical column with the plain values of a column, found by its configured name. -/
def plainColumn? (r : Rule σ) (table column : String) : Option String :=
  (r.findTable? table).bind fun t => (t.configuredName? column).bind t.plainColumn?

/-- Whether queries read the cipher column: as the column says, or else the table, or else the
rule. -/
def isQueryWithCipherColumn (r : Rule σ) (table column : String) : Bool :=
  ((r.findTable? table).bind fun t => t.queryMode? column).getD r.queryWithCipherColumn

def tableNames (r : Rule σ) : List String := r.tables.keys

def deliveriesIn (walk : Dict.Walk (Encryptor σ)) (r : Rule σ) (database : String)
    (schemas : Schemas) : List Delivery :=
  r.registry.deliveriesIn walk database schemas

def deliveries (r : Rule σ) (database : String) (schemas : Schemas) : List Delivery :=
  r.deliveriesIn .byKey database schemas

end Rule

end ColumnCipher
