import ColumnCipher.Config.Basic
import ColumnCipher.Text.Case
/-!
Encrypted columns and tables as rules keep them. Logical columns are found by the lower-case forms
of their names; of several with one form the last defines the column, at the place of the first.
-/
namespace ColumnCipher

/-- Where a logical column is stored and which encryptors it uses. -/
structure Column where
  logicColumn : String
  cipherColumn : String
  encryptorName : String
  assistedQueryColumn : Option String
  assistedQueryEncryptorName : Option String
  plainColumn : Option String
  queryWithCipherColumn : Option Bool
  deriving DecidableEq, Repr

/-- An empty text in an optional field counts as absent. -/
def nonEmpty? (s : Option String) : Option String := s.filter fun s => s ≠ ""

theorem nonEmpty?_eq_some_iff {s : Option String} {text : String} :
    nonEmpty? s = some text ↔ s = some text ∧ text ≠ "" := by
  simp [nonEmpty?, Option.filter_eq_some_iff]

namespace Column

def ofConfig (c : ColumnConfig) : Column where
  logicColumn := c.logicColumn
  cipherColumn := c.cipherColumn
  encryptorName := c.encryptorName
  assistedQueryColumn := nonEmpty? c.assistedQueryColumn
  assistedQueryEncryptorName := nonEmpty? c.assistedQueryEncryptorName
  plainColumn := nonEmpty? c.plainColumn
  queryWithCipherColumn := c.queryWithCipherColumn

end Column

/-- Columns in the order of the configuration, and the place of each lower-case name. -/
structure Columns where
  list : List Column
  index : Dict Nat
  deriving DecidableEq

namespace Columns

def empty : Columns := ⟨[], .empty⟩

/-- Puts a column at the place of the one with the same lower-case name, or else at the end. -/
def add (cs : Columns) (c : Column) : Columns :=
  let key := Case.lower c.logicColumn
  match cs.index.find? key with
  | some place => ⟨cs.list.set place c, cs.index⟩
  | none => ⟨cs.list ++ [c], cs.index.insert key cs.list.length⟩

def ofList (l : List Column) : Columns := l.foldl add empty

def find? (cs : Columns) (logicColumn : String) : Option Column :=
  (cs.index.find? (Case.lower logicColumn)).bind fun place => cs.list[place]?

theorem mem_add {cs : Columns} {c x : Column} (h : x ∈ (cs.add c).list) : x ∈ cs.list ∨ x = c := by
  unfold add at h
  dsimp only at h
  split at h
  · exact List.mem_or_eq_of_mem_set h
  · simpa using h

/-- Nothing but the given columns is kept. -/
theorem mem_ofList {l : List Column} {x : Column} (h : x ∈ (ofList l).list) : x ∈ l := by
  have kept : ∀ cs : Columns, x ∈ (l.foldl add cs).list → x ∈ cs.list ∨ x ∈ l := by
    clear h
    induction l with
    | nil => exact fun cs h => .inl h
    | cons c rest ih =>
      intro cs h
      rcases ih (cs.add c) h with h | h
      · rcases mem_add h with h | rfl
        · exact .inl h
        · exact .inr (.head _)
      · exact .inr (.tail _ h)
  rcases kept empty h with h | h
  · simp [empty] at h
  · exact h

theorem mem_of_find? {cs : Columns} {logicColumn : String} {x : Column}
    (h : cs.find? logicColumn = some x) : x ∈ cs.list := by
  obtain ⟨place, -, hplace⟩ := Option.bind_eq_some_iff.mp h
  exact List.mem_of_getElem? hplace

end Columns

structure Table where
  name : String
  columns : Columns
  queryWithCipherColumn : Option Bool
  deriving DecidableEq

namespace Table

def ofConfig (t : TableConfig) : Table where
  name := t.name
  columns := .ofList (t.columns.map Column.ofConfig)
  queryWithCipherColumn := t.queryWithCipherColumn

def findColumn? (t : Table) (logicColumn : String) : Option Column := t.columns.find? logicColumn

def encryptorName? (t : Table) (logicColumn : String) : Option String :=
  (t.findColumn? logicColumn).map Column.encryptorName

def assistedQueryEncryptorName? (t : Table) (logicColumn : String) : Option String :=
  (t.findColumn? logicColumn).bind Column.assistedQueryEncryptorName

def cipherColumn? (t : Table) (logicColumn : String) : Option String :=
  (t.findColumn? logicColumn).map Column.cipherColumn

def assistedQueryColumn? (t : Table) (logicColumn : String) : Option String :=
  (t.findColumn? logicColumn).bind Column.assistedQueryColumn

def plainColumn? (t : Table) (logicColumn : String) : Option String :=
  (t.findColumn? logicColumn).bind Column.plainColumn

def logicColumns (t : Table) : List String := t.columns.list.map Column.logicColumn

def cipherColumns (t : Table) : List String := t.columns.list.map Column.cipherColumn

def assistedQueryColumns (t : Table) : List String :=
  t.columns.list.filterMap Column.assistedQueryColumn

def plainColumns (t : Table) : List String := t.columns.list.filterMap Column.plainColumn

def logicAndCipherColumns (t : Table) : Dict String :=
  .ofList (t.columns.list.map fun c => (c.logicColumn, c.cipherColumn))

def isCipherColumn (t : Table) (column : String) : Bool :=
  t.columns.list.any fun c => Case.lower c.cipherColumn == Case.lower column

def logicColumnByCipher? (t : Table) (column : String) : Option String :=
  (t.columns.list.find? fun c => Case.lower c.cipherColumn == Case.lower column).map
    Column.logicColumn

def logicColumnByAssistedQuery? (t : Table) (column : String) : Option String :=
  (t.columns.list.find? fun c =>
    c.assistedQueryColumn.any fun a => Case.lower a == Case.lower column).map Column.logicColumn

/-- Whether queries read the cipher column: as the column says, or else the table. -/
def queryMode? (t : Table) (logicColumn : String) : Option Bool :=
  ((t.findColumn? logicColumn).bind Column.queryWithCipherColumn).or t.queryWithCipherColumn

def configuredName? (t : Table) (logicColumn : String) : Option String :=
  t.logicColumns.find? fun name => Case.lower name == Case.lower logicColumn

end Table

end ColumnCipher
