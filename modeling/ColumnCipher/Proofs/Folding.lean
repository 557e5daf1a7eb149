import ColumnCipher.Proofs.Acceptance
/-!
Folded forms. A configuration is folded by putting its table names and logical column names in lower
case, and so are the parts of a rule. Building keeps folded forms: what is built from two
configurations with one folded form has one folded form itself, and a table answers the same where
the folded forms are the same.
-/
namespace ColumnCipher

/-! Lists and options whose elements have the same images. -/

theorem map_eq_map_of_map_eq {α β γ : Type} {f : α → β} {g : α → γ}
    (hg : ∀ a b, f a = f b → g a = g b) {l m : List α} (h : l.map f = m.map f) :
    l.map g = m.map g := by
  induction l generalizing m with
  | nil =>
    obtain rfl : m = [] := List.map_eq_nil_iff.mp h.symm
    rfl
  | cons a rest ih =>
    obtain ⟨b, others, rfl, hb, hothers⟩ := List.map_eq_cons_iff.mp h.symm
    rw [List.map_cons, List.map_cons, hg a b hb.symm, ih hothers.symm]

theorem eq_none_or_eq_some_of_map_eq {α β : Type} {f : α → β} {a b : Option α}
    (h : a.map f = b.map f) :
    a = none ∧ b = none ∨ ∃ x y, a = some x ∧ b = some y ∧ f x = f y := by
  cases a with
  | none => exact .inl ⟨rfl, Option.map_eq_none_iff.mp h.symm⟩
  | some x =>
    obtain ⟨y, hy, hxy⟩ := Option.map_eq_some_iff.mp h.symm
    exact .inr ⟨x, y, rfl, hy, hxy.symm⟩

theorem bind_eq_bind_of_map_eq {α β γ : Type} {f : α → β} {a b : Option α}
    (h : a.map f = b.map f) {g k : α → Option γ} (hgk : ∀ x y, f x = f y → g x = k y) :
    a.bind g = b.bind k := by
  obtain ⟨rfl, rfl⟩ | ⟨x, y, rfl, rfl, hxy⟩ := eq_none_or_eq_some_of_map_eq h
  · rfl
  · exact hgk x y hxy

/-! Folded forms of configurations. -/

def ColumnConfig.folded (c : ColumnConfig) : ColumnConfig :=
  { c with logicColumn := Case.lower c.logicColumn }

def TableConfig.folded (t : TableConfig) : TableConfig :=
  { t with name := Case.lower t.name, columns := t.columns.map ColumnConfig.folded }

/-- Table names and logical column names in lower case, and all else as it is. -/
def RuleConfig.folded (c : RuleConfig) : RuleConfig :=
  { c with tables := c.tables.map TableConfig.folded }

theorem ColumnConfig.folded_passes {registered : String → Bool} {c : ColumnConfig} :
    c.folded.Passes registered ↔ c.Passes registered := by
  rw [← fault?_eq_none_iff, ← fault?_eq_none_iff]
  rfl

/-- The check reads names only to report them. -/
theorem RuleConfig.folded_passes {registered : String → Bool} {c : RuleConfig} :
    c.folded.Passes registered ↔ c.Passes registered := by
  simp only [Passes, folded, TableConfig.folded, List.forall_mem_map, ColumnConfig.folded_passes]

/-! Folded forms of what rules keep. -/

def Column.folded (c : Column) : Column := { c with logicColumn := Case.lower c.logicColumn }

def Columns.folded (cs : Columns) : Columns := { cs with list := cs.list.map Column.folded }

def Table.folded (t : Table) : Table :=
  { t with name := Case.lower t.name, columns := t.columns.folded }

namespace Columns

/-- A column goes to the same place in either spelling. -/
theorem add_folded {cs ds : Columns} {c d : Column} (hcs : cs.folded = ds.folded)
    (hc : c.folded = d.folded) : (cs.add c).folded = (ds.add d).folded := by
  obtain ⟨hlist, hindex⟩ := Columns.mk.inj hcs
  have hkey : Case.lower c.logicColumn = Case.lower d.logicColumn :=
    congrArg Column.logicColumn hc
  have hlength : cs.list.length = ds.list.length := by
    simpa using congrArg List.length hlist
  -- A new column gets the length as its place, which is why it has to be the same on both sides.
  simp only [add, hkey, hindex]
  cases ds.index.find? (Case.lower d.logicColumn) with
  | some place => simp [folded, List.map_set, hlist, hc]
  | none => simp [folded, hlist, hc, hlength]

theorem ofList_folded {l m : List Column} (h : l.map Column.folded = m.map Column.folded) :
    (ofList l).folded = (ofList m).folded := by
  -- The columns kept so far are free, since each step of the fold changes them.
  have added : ∀ {cs ds : Columns}, cs.folded = ds.folded →
      (l.foldl add cs).folded = (m.foldl add ds).folded := by
    induction l generalizing m with
    | nil =>
      obtain rfl : m = [] := List.map_eq_nil_iff.mp h.symm
      exact id
    | cons c rest ih =>
      obtain ⟨d, others, rfl, hd, hothers⟩ := List.map_eq_cons_iff.mp h.symm
      intro cs ds hcs
      exact ih hothers.symm (add_folded hcs hd.symm)
  exact added rfl

theorem find?_folded {cs ds : Columns} (h : cs.folded = ds.folded) {x y : String}
    (hxy : Case.lower x = Case.lower y) :
    (cs.find? x).map Column.folded = (ds.find? y).map Column.folded := by
  obtain ⟨hlist, hindex⟩ := Columns.mk.inj h
  simp only [find?, Option.map_bind, Function.comp_def, ← List.getElem?_map, hlist, hindex, hxy]

end Columns

namespace Table

theorem ofConfig_folded {t u : TableConfig} (h : t.folded = u.folded) :
    (ofConfig t).folded = (ofConfig u).folded := by
  obtain ⟨hname, hcolumns, hquery⟩ := TableConfig.mk.inj h
  have hbuilt := congrArg (List.map Column.ofConfig) hcolumns
  rw [List.map_map, List.map_map] at hbuilt
  have hlist : (Columns.ofList (t.columns.map Column.ofConfig)).folded =
      (Columns.ofList (u.columns.map Column.ofConfig)).folded := by
    apply Columns.ofList_folded
    rw [List.map_map, List.map_map]
    exact hbuilt
  simp only [folded, ofConfig, hname, hlist, hquery]

variable {t u : Table} {x y : String}

theorem findColumn?_folded (h : t.folded = u.folded) (hxy : Case.lower x = Case.lower y) :
    (t.findColumn? x).map Column.folded = (u.findColumn? y).map Column.folded :=
  Columns.find?_folded (Table.mk.inj h).2.1 hxy

/-- All that is read off a column is the same, unless it is the logical name. -/
theorem bind_findColumn?_folded {α : Type} (h : t.folded = u.folded)
    (hxy : Case.lower x = Case.lower y) {g : Column → Option α}
    (hg : ∀ c, g (Column.folded c) = g c) :
    (t.findColumn? x).bind g = (u.findColumn? y).bind g := by
  apply bind_eq_bind_of_map_eq (findColumn?_folded h hxy)
  intro c d hcd
  rw [← hg c, hcd, hg]

theorem encryptorName?_folded (h : t.folded = u.folded) (hxy : Case.lower x = Case.lower y) :
    t.encryptorName? x = u.encryptorName? y := by
  rw [encryptorName?, encryptorName?, Option.map_eq_bind, Option.map_eq_bind]
  exact bind_findColumn?_folded h hxy fun _ => rfl

theorem queryMode?_folded (h : t.folded = u.folded) (hxy : Case.lower x = Case.lower y) :
    t.queryMode? x = u.queryMode? y := by
  rw [queryMode?, queryMode?, bind_findColumn?_folded h hxy fun _ => rfl, (Table.mk.inj h).2.2]

theorem list_folded (h : t.folded = u.folded) :
    t.columns.list.map Column.folded = u.columns.list.map Column.folded :=
  (Columns.mk.inj (Table.mk.inj h).2.1).1

theorem assistedQueryColumns_folded (h : t.folded = u.folded) :
    t.assistedQueryColumns = u.assistedQueryColumns := by
  have hread := congrArg (List.filterMap Column.assistedQueryColumn) (list_folded h)
  rw [List.filterMap_map, List.filterMap_map] at hread
  exact hread

/-- The configured name is sought among the folded names. -/
theorem map_configuredName? (t : Table) (x : String) :
    (t.configuredName? x).map Case.lower =
      ((t.columns.list.map Column.folded).map Column.logicColumn).find? (· == Case.lower x) := by
  have hnames : (t.columns.list.map Column.folded).map Column.logicColumn =
      t.logicColumns.map Case.lower := by
    rw [logicColumns, List.map_map, List.map_map]
    rfl
  rw [hnames, List.find?_map]
  rfl

/-- A plain column is found by the configured name, which is one more spelling of the name that was
asked for. -/
theorem bind_configuredName?_folded (h : t.folded = u.folded)
    (hxy : Case.lower x = Case.lower y) :
    (t.configuredName? x).bind t.plainColumn? = (u.configuredName? y).bind u.plainColumn? := by
  have hname : (t.configuredName? x).map Case.lower = (u.configuredName? y).map Case.lower := by
    rw [map_configuredName?, map_configuredName?, list_folded h, hxy]
  apply bind_eq_bind_of_map_eq hname
  intro n m hnm
  exact bind_findColumn?_folded h hnm fun _ => rfl

end Table

end ColumnCipher
