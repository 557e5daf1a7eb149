import ColumnCipher.Proofs.LastDefinitions
import Mathlib.Data.List.Nodup
/-!
Columns by list and by index. A built table has a list of its columns and an index of their places;
some answers scan the list and others go through the index. No two columns have one name in lower
case, so both ways lead to the same columns: the scan for a configured name ends where the index
points, and a collection has one entry for each column, which is the answer of its look-up.
-/
namespace ColumnCipher

namespace Table

variable {t : TableConfig}

/-- A column of a built table is found under every spelling of its name. -/
theorem findColumn?_of_mem {name : String} {x : Column} (hx : x ∈ (ofConfig t).columns.list)
    (hname : Case.lower name = Case.lower x.logicColumn) :
    (ofConfig t).findColumn? name = some x :=
  findColumn?_ofConfig_eq_some_iff.mpr ⟨hx, hname.symm⟩

/-- The first column with a name is the one that the index finds. -/
theorem find?_key_ofConfig (t : TableConfig) (name : String) :
    ((ofConfig t).columns.list.find? fun x => x.key == Case.lower name) =
      (ofConfig t).findColumn? name := by
  apply Option.ext
  intro x
  rw [find?_eq_some_iff_of_nodup_keys Column.key (nodup_key_ofConfig t),
    findColumn?_ofConfig_eq_some_iff, Column.key]

/-- The scan for a configured name finds the name of the column that the index finds. -/
theorem configuredName?_ofConfig (t : TableConfig) (name : String) :
    (ofConfig t).configuredName? name =
      ((ofConfig t).findColumn? name).map Column.logicColumn := by
  rw [configuredName?, logicColumns, List.find?_map, ← find?_key_ofConfig]
  rfl

/-- No two columns have one configured name, since no two have one name in lower case. -/
theorem nodup_logicColumns_ofConfig (t : TableConfig) : (ofConfig t).logicColumns.Nodup := by
  have hlower : ((ofConfig t).logicColumns.map Case.lower).Nodup := by
    rw [logicColumns, List.map_map]
    exact nodup_key_ofConfig t
  exact hlower.of_map Case.lower

/-- The map of a built table has an entry for each column. -/
theorem entries_logicAndCipherColumns (t : TableConfig) :
    (ofConfig t).logicAndCipherColumns.entries.Perm
      ((ofConfig t).columns.list.map fun x => (x.logicColumn, x.cipherColumn)) := by
  apply Dict.entries_ofList_of_nodup
  rw [List.map_map]
  exact nodup_logicColumns_ofConfig t

/-- The index columns of a built table are those of its logical columns, in order. -/
theorem assistedQueryColumns_ofConfig (t : TableConfig) :
    (ofConfig t).assistedQueryColumns =
      (ofConfig t).logicColumns.filterMap (ofConfig t).assistedQueryColumn? := by
  rw [assistedQueryColumns, logicColumns, List.filterMap_map]
  apply List.filterMap_congr
  intro x hx
  rw [Function.comp_apply, assistedQueryColumn?, findColumn?_of_mem hx rfl, Option.bind_some]

end Table

namespace Rule

variable {σ : Type} {c : RuleConfig} {r : Rule σ} {table : String}

theorem BuiltFrom.findTable?_eq [NonceSource σ] (h : BuiltFrom c r) (table : String) :
    r.findTable? table = (lastNamed? TableConfig.name table c.tables).map Table.ofConfig := by
  obtain ⟨g, rfl⟩ := h.exists_build
  exact findTable?_build c g table

/-- Every table of a rule is built from a record. -/
theorem BuiltFrom.exists_ofConfig [NonceSource σ] (h : BuiltFrom c r) {t : Table}
    (ht : r.findTable? table = some t) : ∃ record, t = .ofConfig record := by
  rw [h.findTable?_eq] at ht
  obtain ⟨record, -, hrecord⟩ := Option.map_eq_some_iff.mp ht
  exact ⟨record, hrecord.symm⟩

/-- A column that is found under a name has this name, in some spelling. -/
theorem BuiltFrom.lower_logicColumn [NonceSource σ] (h : BuiltFrom c r) {column : String}
    {x : Column} (hx : r.findColumn? table column = some x) :
    Case.lower x.logicColumn = Case.lower column := by
  obtain ⟨t, ht, hcolumn⟩ := Option.bind_eq_some_iff.mp hx
  obtain ⟨record, rfl⟩ := h.exists_ofConfig ht
  exact (Table.findColumn?_ofConfig_eq_some_iff.mp hcolumn).2

/-! The scan for a name. -/

/-- The configured name of a column, found by a scan of its table. -/
def configuredName? (r : Rule σ) (table column : String) : Option String :=
  (r.findTable? table).bind fun t => t.configuredName? column

/-- A plain column is looked up under the name that the scan gives. -/
theorem plainColumn?_eq_scan (r : Rule σ) (table column : String) :
    r.plainColumn? table column = (r.configuredName? table column).bind fun name =>
      (r.findColumn? table name).bind Column.plainColumn := by
  simp only [plainColumn?, configuredName?, findColumn?]
  cases r.findTable? table with
  | none => rfl
  | some t => rfl

theorem BuiltFrom.configuredName?_eq [NonceSource σ] (h : BuiltFrom c r) (table column : String) :
    r.configuredName? table column = (r.findColumn? table column).map Column.logicColumn := by
  rw [configuredName?, findColumn?]
  cases ht : r.findTable? table with
  | none => rfl
  | some t =>
    obtain ⟨record, rfl⟩ := h.exists_ofConfig ht
    exact Table.configuredName?_ofConfig record column

/-- A plain column is found in two steps, by a scan for the configured name of the column and by a
look-up of this name, and it is the one that a single look-up finds. The scan succeeds exactly where
the look-up does, and the name that it gives leads to the same column, also where the configuration
has several records of this name. -/
theorem plain_column_by_scan [NonceSource σ] (h : BuiltFrom c r) (table column : String) :
    r.plainColumn? table column = (r.findColumn? table column).bind Column.plainColumn ∧
    r.configuredName? table column = (r.findColumn? table column).map Column.logicColumn ∧
    ∀ name, r.configuredName? table column = some name →
      r.findColumn? table name = r.findColumn? table column := by
  have hscan := h.configuredName?_eq table column
  have hsame : ∀ name, r.configuredName? table column = some name →
      r.findColumn? table name = r.findColumn? table column := by
    intro name hname
    obtain ⟨x, hx, rfl⟩ := Option.map_eq_some_iff.mp (hscan.symm.trans hname)
    exact r.findColumn?_congr rfl (h.lower_logicColumn hx)
  refine ⟨?_, hscan, hsame⟩
  rw [plainColumn?_eq_scan]
  cases hname : r.configuredName? table column with
  | none =>
    have hnone : r.findColumn? table column = none :=
      Option.map_eq_none_iff.mp (hscan.symm.trans hname)
    rw [hnone, Option.bind_none, Option.bind_none]
  | some name => rw [Option.bind_some, hsame name hname]

/-- A column that is defined twice, in two spellings, in the second of two definitions of its table:
under a third spelling the scan finds the second spelling, and the plain column is that of the second
definition. -/
theorem plain_column_by_scan_respelled :
    let street : ColumnConfig := ⟨"Straße", "c1", none, some "p1", "aes", none, none⟩
    let phone : ColumnConfig := ⟨"tel", "c2", none, none, "aes", none, none⟩
    let again : ColumnConfig := ⟨"STRAßE", "c3", none, some "p3", "aes", none, none⟩
    let c : RuleConfig :=
      ⟨[⟨"Kunde", [street], none⟩, ⟨"KUNDE", [street, phone, again], none⟩], .empty, true⟩
    let aes := Algorithm.aesSiv (.replicate 64 0x42)
    ∃ r : Rule NonceStream,
      withRegistry c (Registry.empty.insert "aes" (aes.encryptor 0)) = .ok r ∧
      r.configuredName? "kunde" "straße" = some "STRAßE" ∧
      r.plainColumn? "kunde" "straße" = some "p3" ∧
      r.findColumn? "kunde" "STRAßE" = some (.ofConfig again) := by
  intro street phone again c aes
  let r : Rule NonceStream := build c (Registry.empty.insert "aes" (aes.encryptor 0))
  have hcomputed : c.fault? (Registry.empty.insert "aes" (aes.encryptor 0) :
      Registry NonceStream).contains = none ∧
      r.findColumn? "kunde" "straße" = some (.ofConfig again) := by decide +kernel
  have hr := withRegistry_of_passes (RuleConfig.fault?_eq_none_iff.mp hcomputed.1)
  obtain ⟨hplain, hscan, hsame⟩ := plain_column_by_scan (.given hr) "kunde" "straße"
  rw [hcomputed.2] at hplain hscan hsame
  exact ⟨r, hr, hscan, hplain, hsame _ hscan⟩

/-! Collections. -/

theorem cipherColumn_eq_ok_iff {column cipher : String} :
    r.cipherColumn table column = .ok cipher ↔
      ∃ x, r.findColumn? table column = some x ∧ x.cipherColumn = cipher := by
  unfold cipherColumn
  cases r.findColumn? table column with
  | none => simp
  | some x => simp

/-- The keys of the map are the configured names, and under each is the cipher column of the column
that is found under this name. -/
theorem BuiltFrom.mem_logicAndCipherColumns_iff [NonceSource σ] (h : BuiltFrom c r)
    {key cipher : String} : (key, cipher) ∈ (r.logicAndCipherColumns table).entries ↔
      ∃ x, r.findColumn? table key = some x ∧ x.logicColumn = key ∧ x.cipherColumn = cipher := by
  rw [logicAndCipherColumns, findColumn?]
  cases ht : r.findTable? table with
  | none => simp [Dict.empty]
  | some t =>
    obtain ⟨record, rfl⟩ := h.exists_ofConfig ht
    simp only [(Table.entries_logicAndCipherColumns record).mem_iff, List.mem_map,
      Prod.mk.injEq, Option.bind_some, Table.findColumn?_ofConfig_eq_some_iff]
    constructor
    · rintro ⟨x, hx, rfl, rfl⟩
      exact ⟨x, ⟨hx, rfl⟩, rfl, rfl⟩
    · rintro ⟨x, ⟨hx, -⟩, hkey, hcipher⟩
      exact ⟨x, hx, hkey, hcipher⟩

/-- The collections of a table, read off the records that count. -/
theorem BuiltFrom.collections_eq [NonceSource σ] (h : BuiltFrom c r) {t : TableConfig}
    (ht : lastNamed? TableConfig.name table c.tables = some t) :
    (r.logicAndCipherColumns table).entries.Perm
      ((effective (fun x => Case.lower x.logicColumn) t.columns).map
        fun x => (x.logicColumn, x.cipherColumn)) ∧
    r.assistedQueryColumns table =
      ((effective (fun x => Case.lower x.logicColumn) t.columns).map
        ColumnConfig.logicColumn).filterMap (r.assistedQueryColumn? table) := by
  have hfound : r.findTable? table = some (.ofConfig t) := by
    rw [h.findTable?_eq, ht, Option.map_some]
  have hassisted : r.assistedQueryColumn? table = (Table.ofConfig t).assistedQueryColumn? := by
    funext name
    rw [assistedQueryColumn?, hfound, Option.bind_some]
  have hentries := Table.entries_logicAndCipherColumns t
  rw [Table.list_ofConfig, List.map_map] at hentries
  have hcolumns := Table.assistedQueryColumns_ofConfig t
  rw [Table.logicColumns, Table.list_ofConfig, List.map_map] at hcolumns
  rw [logicAndCipherColumns, assistedQueryColumns, hfound, hassisted]
  exact ⟨hentries, hcolumns⟩

/-- The collections of a table hold what the look-ups answer. The map from logical to cipher columns
has one entry for each column that counts; each spelling of a key has its value as cipher column, and
what has a cipher column is a spelling of exactly one key, whose value this is. The index columns are
those of the logical columns, in order. Of a table that is not there all is empty. -/
theorem collections_agree_with_lookups [NonceSource σ] (h : BuiltFrom c r) (table : String) :
    (∀ t, lastNamed? TableConfig.name table c.tables = some t →
      (r.logicAndCipherColumns table).entries.Perm
        ((effective (fun x => Case.lower x.logicColumn) t.columns).map
          fun x => (x.logicColumn, x.cipherColumn)) ∧
      r.assistedQueryColumns table =
        ((effective (fun x => Case.lower x.logicColumn) t.columns).map
          ColumnConfig.logicColumn).filterMap (r.assistedQueryColumn? table)) ∧
    (∀ key cipher, (key, cipher) ∈ (r.logicAndCipherColumns table).entries →
      ∀ name, Case.lower name = Case.lower key → r.cipherColumn table name = .ok cipher) ∧
    (∀ name cipher, r.cipherColumn table name = .ok cipher →
      ∃ key, Case.lower key = Case.lower name ∧
        (key, cipher) ∈ (r.logicAndCipherColumns table).entries ∧
        ∀ other ∈ (r.logicAndCipherColumns table).keys,
          Case.lower other = Case.lower name → other = key) ∧
    (r.findTable? table = none →
      r.logicAndCipherColumns table = .empty ∧ r.assistedQueryColumns table = [] ∧
      ∀ name, r.assistedQueryColumn? table name = none ∧
        r.cipherColumn table name = .error (.columnNotFound table name)) := by
  refine ⟨fun t => h.collections_eq, fun key cipher hentry name hname => ?_,
    fun name cipher hcipher => ?_, fun hnone => ?_⟩
  · obtain ⟨x, hx, -, rfl⟩ := h.mem_logicAndCipherColumns_iff.mp hentry
    rw [← r.findColumn?_congr rfl hname] at hx
    exact cipherColumn_eq_ok_iff.mpr ⟨x, hx, rfl⟩
  · obtain ⟨x, hx, rfl⟩ := cipherColumn_eq_ok_iff.mp hcipher
    have hlower := h.lower_logicColumn hx
    have hkey := (r.findColumn?_congr rfl hlower).trans hx
    refine ⟨x.logicColumn, hlower, h.mem_logicAndCipherColumns_iff.mpr ⟨x, hkey, rfl, rfl⟩, ?_⟩
    intro other hother hspelling
    obtain ⟨⟨key, cipher⟩, hentry, rfl⟩ := List.mem_map.mp hother
    obtain ⟨y, hy, hname, -⟩ := h.mem_logicAndCipherColumns_iff.mp hentry
    -- Both keys are configured names of the one column that is found under them.
    rw [r.findColumn?_congr rfl hspelling, hx] at hy
    rw [← hname, Option.some.inj hy]
  · simp [logicAndCipherColumns, assistedQueryColumns, assistedQueryColumn?, cipherColumn,
      findColumn?, hnone]

/-- Three records of two columns, of which the third replaces the first under another spelling: two
entries, and the index column of the third record only. -/
theorem collections_agree_with_lookups_respelled :
    let street : ColumnConfig := ⟨"Straße", "c1", some "a1", none, "aes", some "aes", none⟩
    let phone : ColumnConfig := ⟨"tel", "c2", none, none, "aes", none, none⟩
    let again : ColumnConfig := ⟨"STRAßE", "c3", some "a3", none, "aes", some "aes", none⟩
    let customer : TableConfig := ⟨"Kunde", [street, phone, again], none⟩
    let c : RuleConfig := ⟨[customer], .empty, true⟩
    let aes := Algorithm.aesSiv (.replicate 64 0x42)
    ∃ r : Rule NonceStream,
      withRegistry c (Registry.empty.insert "aes" (aes.encryptor 0)) = .ok r ∧
      (r.logicAndCipherColumns "KUNDE").entries.Perm [("STRAßE", "c3"), ("tel", "c2")] ∧
      r.cipherColumn "KUNDE" "straße" = .ok "c3" ∧
      (∃ key, Case.lower key = "straße" ∧ (key, "c3") ∈ (r.logicAndCipherColumns "KUNDE").entries ∧
        ∀ other ∈ (r.logicAndCipherColumns "KUNDE").keys,
          Case.lower other = "straße" → other = key) ∧
      r.assistedQueryColumns "KUNDE" = ["a3"] ∧
      r.logicAndCipherColumns "Kunden" = .empty := by
  intro street phone again customer c aes
  let r : Rule NonceStream := build c (Registry.empty.insert "aes" (aes.encryptor 0))
  obtain ⟨hpass, htable, hcolumns, hindexes, hunknown, hlower, hupper⟩ :
      c.fault? (Registry.empty.insert "aes" (aes.encryptor 0) : Registry NonceStream).contains =
        none ∧
      lastNamed? TableConfig.name "KUNDE" c.tables = some customer ∧
      effective (fun x => Case.lower x.logicColumn) customer.columns = [again, phone] ∧
      ["STRAßE", "tel"].filterMap (r.assistedQueryColumn? "KUNDE") = ["a3"] ∧
      r.findTable? "Kunden" = none ∧
      Case.lower "straße" = "straße" ∧ Case.lower "STRAßE" = "straße" := by decide +kernel
  have hr := withRegistry_of_passes (RuleConfig.fault?_eq_none_iff.mp hpass)
  obtain ⟨hall, hforward, hbackward, -⟩ := collections_agree_with_lookups (.given hr) "KUNDE"
  obtain ⟨hentries, hassisted⟩ := hall customer htable
  rw [hcolumns] at hentries hassisted
  have hentry : ("STRAßE", "c3") ∈ (r.logicAndCipherColumns "KUNDE").entries :=
    hentries.mem_iff.mpr (.head _)
  have hcipher := hforward _ _ hentry "straße" (hlower.trans hupper.symm)
  have hkey := hbackward _ _ hcipher
  rw [hlower] at hkey
  obtain ⟨-, -, -, hempty⟩ := collections_agree_with_lookups (.given hr) "Kunden"
  exact ⟨r, hr, hentries, hcipher, hkey, hassisted.trans hindexes, (hempty hunknown).1⟩

end Rule

end ColumnCipher
