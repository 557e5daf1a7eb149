import ColumnCipher.Proofs.ByteOrder
import ColumnCipher.Proofs.EffectiveRecords
import ColumnCipher.Proofs.LowerCase
import ColumnCipher.Proofs.PrintedLines
import ColumnCipher.Proofs.Spelling
import Mathlib.Data.Finset.Card
import Mathlib.Data.List.Perm.Basic
/-!
What a report shows. The names of the tables are in lower case already, so looking a table up under
its name finds it, and no table is passed over. A report is therefore one block for each table record
that counts, in the order of the bytes of the names; where no two names are the same in lower case
the order of the records does not show.
-/
namespace ColumnCipher

namespace CommandLine

def columnText (c : Column) (queryWithCipherColumn : Bool) : String :=
  "  " ++ c.logicColumn ++ " -> cipher=" ++ c.cipherColumn ++ " encryptor=" ++ c.encryptorName ++
    " assisted=" ++ c.assistedQueryColumn.getD "-" ++ " plain=" ++ c.plainColumn.getD "-" ++
    " query_with_cipher=" ++ Value.boolText queryWithCipherColumn

def effectiveColumns (t : TableConfig) : List ColumnConfig :=
  effective (fun c => Case.lower c.logicColumn) t.columns

/-- The block of a table record: its name and its columns, each with the query mode of the column, or
else that of the table, or else that of the rule. -/
def tableBlock (c : RuleConfig) (t : TableConfig) : List String :=
  t.name :: (effectiveColumns t).map fun x =>
    columnText (.ofConfig x) ((x.queryWithCipherColumn.or t.queryWithCipherColumn).getD
      c.queryWithCipherColumn)

end CommandLine

namespace Rule

variable {σ : Type} {c : RuleConfig} {g : Registry σ}

/-- The names of the tables of a rule are in lower case. -/
theorem lower_of_mem_tableNames {name : String} (h : name ∈ (build c g).tableNames) :
    Case.lower name = name := by
  obtain ⟨e, he, rfl⟩ := List.mem_map.mp h
  obtain ⟨t, -, rfl⟩ := List.mem_map.mp ((entries_tables_perm c g).mem_iff.mp he)
  exact Case.lower_lower t.name

/-- A table is found under the name that the rule gives for it. -/
theorem findTable?_of_mem_tableNames {name : String} (h : name ∈ (build c g).tableNames) :
    ∃ t, (build c g).findTable? name = some t ∧ (build c g).tables.find? name = some t := by
  obtain ⟨e, he, rfl⟩ := List.mem_map.mp h
  have hfound : (build c g).tables.find? e.1 = some e.2 := Dict.find?_eq_some_iff.mpr he
  refine ⟨e.2, ?_, hfound⟩
  rw [findTable?, lower_of_mem_tableNames h, hfound]

/-- The tables of a rule are built from the records that count, in the order of their names. -/
theorem exists_records (c : RuleConfig) (g : Registry σ) :
    ∃ records : List TableConfig, records.Perm (effective (fun t => Case.lower t.name) c.tables) ∧
      (build c g).tables.entries =
        records.map fun t => (Case.lower t.name, Table.ofConfig t) := by
  obtain ⟨records, hmap, hperm⟩ :=
    (congrFun₂ (List.eq_map_comp_perm _) _ _).mpr (entries_tables_perm c g)
  exact ⟨records, hperm, hmap⟩

theorem findTable?_of_entries {records : List TableConfig}
    (h : (build c g).tables.entries = records.map fun t => (Case.lower t.name, Table.ofConfig t))
    {t : TableConfig} (ht : t ∈ records) {name : String}
    (hname : Case.lower name = Case.lower t.name) :
    (build c g).findTable? name = some (.ofConfig t) := by
  rw [findTable?, hname, Dict.find?_eq_some_iff, h]
  exact List.mem_map_of_mem ht

/-- The query mode of a column that counts. -/
theorem isQueryWithCipherColumn_of_findTable? {r : Rule σ} {table : String} {t : TableConfig}
    (ht : r.findTable? table = some (.ofConfig t)) {x : ColumnConfig}
    (hx : x ∈ CommandLine.effectiveColumns t) :
    r.isQueryWithCipherColumn table x.logicColumn =
      (x.queryWithCipherColumn.or t.queryWithCipherColumn).getD r.queryWithCipherColumn := by
  have hmem : Column.ofConfig x ∈ (Table.ofConfig t).columns.list := by
    rw [Table.list_ofConfig]
    exact List.mem_map_of_mem hx
  have hfound : (Table.ofConfig t).findColumn? x.logicColumn = some (.ofConfig x) :=
    Table.findColumn?_ofConfig_eq_some_iff.mpr ⟨hmem, rfl⟩
  rw [isQueryWithCipherColumn, ht, Option.bind_some, Table.queryMode?, hfound]
  rfl

end Rule

namespace CommandLine

open Rule

variable {c : RuleConfig} {g : Registry NonceStream}

/-- The report of a rule is that of its records. -/
theorem report_build {records : List TableConfig}
    (h : (build c g).tables.entries = records.map fun t => (Case.lower t.name, Table.ofConfig t)) :
    report (build c g) = ("Encrypt rule is valid (" ++ Decimal.ofNat records.length ++ " tables)") ::
      records.flatMap (tableBlock c) := by
  have hnames : (build c g).tableNames = records.map fun t => Case.lower t.name := by
    rw [tableNames, Dict.keys, h, List.map_map]
    rfl
  rw [report, hnames, List.length_map, List.flatMap_map]
  congr 1
  apply List.flatMap_congr
  intro t ht
  have hfound := findTable?_of_entries h ht (Case.lower_lower t.name)
  rw [hfound, tableBlock]
  simp only [Table.list_ofConfig, List.map_map]
  congr 1
  apply List.map_congr_left
  intro x hx
  change columnText (.ofConfig x) ((build c g).isQueryWithCipherColumn _ x.logicColumn) = _
  rw [isQueryWithCipherColumn_of_findTable? hfound hx]
  rfl

/-- A report shows the tables and the query modes of a rule, and nothing else of it. -/
theorem report_congr {r r' : Rule NonceStream} (htables : r.tables = r'.tables)
    (hquery : r.queryWithCipherColumn = r'.queryWithCipherColumn) : report r = report r' := by
  obtain ⟨registry, tables, query⟩ := r
  obtain ⟨registry', tables', query'⟩ := r'
  obtain rfl : tables = tables' := htables
  obtain rfl : query = query' := hquery
  rfl

/-- Names in the order of their bytes are in the only such order. -/
theorem eq_of_perm_of_byteOrder {names names' : List String} (h : names.Perm names')
    (hnames : names.Pairwise fun a b => Utf8.encode a ≤ Utf8.encode b)
    (hnames' : names'.Pairwise fun a b => Utf8.encode a ≤ Utf8.encode b) : names = names' := by
  refine h.eq_of_pairwise (fun a b _ _ hab hba => ?_) hnames hnames'
  have hle : a ≤ b := fun hlt => hab (Utf8.encode_lt_iff.mpr hlt)
  have hge : b ≤ a := fun hlt => hba (Utf8.encode_lt_iff.mpr hlt)
  exact String.le_antisymm hle hge

theorem tableNames_byteOrder {σ : Type} (r : Rule σ) :
    r.tableNames.Pairwise fun a b => Utf8.encode a < Utf8.encode b :=
  List.pairwise_map.mpr (r.tables.sorted.imp Utf8.encode_lt_iff.mpr)

/-- There are as many records that count as there are names. -/
theorem length_effective {α : Type} (key : α → String) (l : List α) :
    (effective key l).length = (l.map key).toFinset.card := by
  have hkeys : ((effective key l).map key).toFinset = (l.map key).toFinset := by
    ext k
    rw [List.mem_toFinset, List.mem_toFinset, mem_keys_effective]
  rw [← hkeys, List.toFinset_card_of_nodup (nodup_keys_effective key l), List.length_map]

/-- A report shows the whole of the rule that counts. The names of the tables, sorted by their bytes
from whatever order they come in, are all found. There is a block for each table record that counts,
as many as there are names in lower case, in the order of the bytes of these; it lists each column
that counts once, with its query mode. Where no two table names are the same in lower case, the order
of the tables changes nothing. -/
theorem report_is_complete {id : Nat} {c : RuleConfig} {entries : List (String × AlgorithmConfig)}
    (hentries : entries.Perm c.encryptors.entries) {r : Rule NonceStream}
    (hr : ofConfigIn id c entries = .ok r) :
    (∀ name ∈ r.tableNames,
      ∃ t, r.findTable? name = some t ∧ r.tables.find? name = some t) ∧
    (∀ names : List String, names.Perm r.tableNames →
      names.Pairwise (fun a b => Utf8.encode a ≤ Utf8.encode b) → names = r.tableNames) ∧
    (∃ records : List TableConfig,
      report r = ("Encrypt rule is valid (" ++ Decimal.ofNat records.length ++ " tables)") ::
        records.flatMap (tableBlock c) ∧
      records.length = (c.tables.map fun t => Case.lower t.name).toFinset.card ∧
      records.Perm (effective (fun t => Case.lower t.name) c.tables) ∧
      records.Pairwise (fun t u =>
        Utf8.encode (Case.lower t.name) < Utf8.encode (Case.lower u.name)) ∧
      ∀ t ∈ records, ((effectiveColumns t).map fun x => Case.lower x.logicColumn).Nodup ∧
        ∀ x : Column, x ∈ (effectiveColumns t).map Column.ofConfig ↔
          r.findColumn? t.name x.logicColumn = some x) ∧
    (∀ c' : RuleConfig, c'.tables.Perm c.tables → c'.encryptors = c.encryptors →
      c'.queryWithCipherColumn = c.queryWithCipherColumn →
      (c.tables.map fun t => Case.lower t.name).Nodup →
      ∀ id' entries', entries'.Perm c.encryptors.entries →
        ∃ r', ofConfigIn id' c' entries' = .ok r' ∧ report r' = report r) := by
  obtain ⟨g, hg, hpass, rfl⟩ := ofConfigIn_eq_ok hr
  refine ⟨fun name hname => findTable?_of_mem_tableNames hname, fun names hperm hnames => ?_, ?_, ?_⟩
  · refine eq_of_perm_of_byteOrder hperm hnames ((tableNames_byteOrder _).imp ?_)
    exact fun hlt => List.le_of_lt hlt
  · obtain ⟨records, hperm, htables⟩ := exists_records c g
    refine ⟨records, report_build htables, ?_, hperm, ?_, fun t ht => ⟨?_, fun x => ?_⟩⟩
    · rw [hperm.length_eq, length_effective]
    · have hsorted := tableNames_byteOrder (build c g)
      rw [tableNames, Dict.keys, htables, List.map_map] at hsorted
      have hrecords := List.pairwise_map.mp hsorted
      exact hrecords
    · exact nodup_keys_effective _ t.columns
    · rw [findColumn?, findTable?_of_entries htables ht rfl, Option.bind_some,
        Table.findColumn?_ofConfig_eq_some_iff, Table.list_ofConfig]
      exact (and_iff_left rfl).symm
  · intro c' htables hencryptors hquery hdistinct id' entries' hentries'
    have hpass' : c'.Passes c'.encryptors.contains := by
      rw [hencryptors]
      exact fun t ht => hpass t (htables.mem_iff.mp ht)
    rw [← hencryptors] at hentries'
    have hbuilt := ((exists_ofConfigIn_iff hentries).mp ⟨_, hr⟩).2
    rw [← hencryptors] at hbuilt
    obtain ⟨r', hr'⟩ := (exists_ofConfigIn_iff (σ := NonceStream) hentries').mpr ⟨hpass', hbuilt⟩
    refine ⟨r', hr', ?_⟩
    obtain ⟨g', -, -, rfl⟩ := ofConfigIn_eq_ok hr'
    refine report_congr (Dict.ofList_eq_of_perm (htables.map _) ?_) hquery
    rw [List.map_map]
    exact hdistinct

/-- A table whose name ends in a sigma and one with a column that is defined twice, in either order. -/
theorem report_is_complete_sigma :
    let card : TableConfig := ⟨"CARD", [sampleColumn, { sampleColumn with logicColumn := "NO" }], none⟩
    let sigma : TableConfig := ⟨"ΑΣ", [sampleColumn], some false⟩
    let encryptors : Dict AlgorithmConfig := .ofList [("aes", sampleEncryptor)]
    let c : RuleConfig := ⟨[sigma, card], encryptors, true⟩
    let c' : RuleConfig := ⟨[card, sigma], encryptors, true⟩
    ∃ r r' : Rule NonceStream, ofConfigIn 0 c encryptors.entries = .ok r ∧
      ofConfigIn 0 c' encryptors.entries = .ok r' ∧ report r' = report r ∧
      ∃ records : List TableConfig, records.length = 2 ∧
        report r = ("Encrypt rule is valid (" ++ Decimal.ofNat records.length ++ " tables)") ::
          records.flatMap (tableBlock c) := by
  intro card sigma encryptors c c'
  have hbuilt : ∀ entry ∈ encryptors.entries, ∃ a, Algorithm.ofConfig entry.2 = .ok a := by
    intro entry hentry
    obtain rfl := List.mem_singleton.mp hentry
    exact ⟨_, ofConfig_sampleEncryptor⟩
  have hpass : c.Passes c.encryptors.contains :=
    RuleConfig.fault?_eq_none_iff.mp (by decide +kernel)
  obtain ⟨r, hr⟩ : ∃ r : Rule NonceStream, ofConfigIn 0 c encryptors.entries = .ok r :=
    (exists_ofConfigIn_iff (.refl _)).mpr ⟨hpass, hbuilt⟩
  obtain ⟨-, -, ⟨records, hreport, hlength, -⟩, hpermuted⟩ :=
    report_is_complete (.refl encryptors.entries) hr
  obtain ⟨r', hr', hsame⟩ := hpermuted c' (.swap sigma card []) rfl rfl (by decide +kernel) 0 _
    (.refl _)
  exact ⟨r, r', hr, hr', hsame, records, hlength.trans (by decide +kernel), hreport⟩

end CommandLine

end ColumnCipher
