import ColumnCipher.Proofs.EffectiveRecords
import ColumnCipher.Proofs.Resolution
import Mathlib.Data.List.Induction
/-!
The last definition counts. Tables and columns may be defined several times, in several spellings of
one name. A built table has one column for each name, at the place where the name occurs first and
as the last record with this name defines it, and a rule has the table that the last record with its
name defines. What the records before it define is not seen.
-/
namespace ColumnCipher

section

variable {α : Type}

def lastNamed? (name : α → String) (x : String) (records : List α) : Option α :=
  records.reverse.find? fun a => Case.lower (name a) == Case.lower x

variable {name : α → String} {x : String} {records : List α} {a : α}

/-- A record is the last one with a name if no record with this name follows it. -/
theorem lastNamed?_eq_some_iff : lastNamed? name x records = some a ↔
    Case.lower (name a) = Case.lower x ∧ ∃ before after, records = before ++ a :: after ∧
      ∀ b ∈ after, Case.lower (name b) ≠ Case.lower x := by
  rw [lastNamed?, List.find?_eq_some_iff_append, beq_iff_eq]
  simp only [Bool.not_eq_true', beq_eq_false_iff_ne]
  refine and_congr_right fun _ => ?_
  constructor
  · rintro ⟨after, before, hrecords, hafter⟩
    refine ⟨before.reverse, after.reverse, ?_, by simpa using hafter⟩
    simpa using congrArg List.reverse hrecords
  · rintro ⟨before, after, rfl, hafter⟩
    exact ⟨after.reverse, before.reverse, by simp, by simpa using hafter⟩

/-- The keys of the records that count are those of all records, each where it occurs first. -/
theorem map_key_effective (key : α → String) (l : List α) :
    (effective key l).map key = (l.map key).eraseDups := by
  have hreplace (c : α) (m : List α) : (replaceKey key c m).map key = m.map key := by
    rw [replaceKey, List.map_map]
    apply List.map_congr_left
    intro b _
    rw [Function.comp_apply]
    split
    · rename_i h
      exact h.symm
    · rfl
  induction l using List.reverseRecOn with
  | nil => rfl
  | append_singleton l c ih =>
    rw [effective_append_singleton, List.map_append, List.map_singleton, List.eraseDups_append, ← ih]
    by_cases h : key c ∈ l.map key
    · have hremoved : [key c].removeAll (l.map key) = [] := by
        rw [List.removeAll, List.filter_eq_nil_iff]
        simpa using h
      rw [if_pos h, hreplace, hremoved, List.eraseDups_nil, List.append_nil]
    · have hkept : [key c].removeAll (l.map key) = [key c] := by
        rw [List.removeAll, List.filter_eq_self]
        simpa using h
      rw [if_neg h, hkept, List.map_append, List.map_singleton, List.eraseDups_cons,
        List.filter_nil, List.eraseDups_nil]

end

namespace Table

/-- A built table finds what the last record with a name defines. -/
theorem findColumn?_ofConfig (t : TableConfig) (name : String) :
    (ofConfig t).findColumn? name =
      (lastNamed? ColumnConfig.logicColumn name t.columns).map Column.ofConfig := by
  apply Option.ext
  intro x
  rw [findColumn?_ofConfig_eq_some_iff, list_ofConfig, Option.map_eq_some_iff]
  simp only [lastNamed?, ← find?_effective (fun c : ColumnConfig => Case.lower c.logicColumn),
    find?_eq_some_iff_of_nodup_keys (fun c : ColumnConfig => Case.lower c.logicColumn)
      (nodup_keys_effective _ t.columns), List.mem_map]
  constructor
  · rintro ⟨⟨record, hrecord, rfl⟩, hname⟩
    exact ⟨record, ⟨hrecord, hname⟩, rfl⟩
  · rintro ⟨record, ⟨hrecord, hname⟩, rfl⟩
    exact ⟨⟨record, hrecord, rfl⟩, hname⟩

/-- The names of the columns of a built table, in lower case and in order. -/
theorem map_key_ofConfig (t : TableConfig) : (ofConfig t).columns.list.map Column.key =
    (t.columns.map fun c => Case.lower c.logicColumn).eraseDups := by
  rw [list_ofConfig, List.map_map, ← map_key_effective]
  rfl

theorem nodup_key_ofConfig (t : TableConfig) : ((ofConfig t).columns.list.map Column.key).Nodup := by
  rw [list_ofConfig, List.map_map]
  exact nodup_keys_effective _ t.columns

/-- Each column of a built table is what the last record with its name defines. -/
theorem mem_list_ofConfig_iff {t : TableConfig} {x : Column} :
    x ∈ (ofConfig t).columns.list ↔ ∃ before record after, t.columns = before ++ record :: after ∧
      (∀ later ∈ after, Case.lower later.logicColumn ≠ Case.lower record.logicColumn) ∧
      x = .ofConfig record := by
  rw [list_ofConfig, List.mem_map]
  simp only [mem_effective_iff]
  constructor
  · rintro ⟨record, ⟨before, after, hrecords, hafter⟩, rfl⟩
    exact ⟨before, record, after, hrecords, hafter, rfl⟩
  · rintro ⟨before, record, after, hrecords, hafter, rfl⟩
    exact ⟨record, ⟨before, after, hrecords, hafter⟩, rfl⟩

end Table

/-- The index of columns leads to places that are there. -/
theorem Columns.Indexed.place_lt {cs : Columns} (h : cs.Indexed) {key : String} {place : Nat}
    (hplace : cs.index.find? key = some place) : place < cs.list.length := by
  obtain ⟨x, hx, -⟩ := Option.map_eq_some_iff.mp ((h key place).mp hplace)
  exact (List.getElem?_eq_some_iff.mp hx).1

namespace Rule

variable {σ : Type}

/-- A rule of a configuration: with the encryptors of the configuration, in any order, or over a given
registry. -/
inductive BuiltFrom [NonceSource σ] (c : RuleConfig) : Rule σ → Prop where
  | own {id : Nat} {entries : List (String × AlgorithmConfig)} {r : Rule σ} :
      entries.Perm c.encryptors.entries → ofConfigIn id c entries = .ok r → BuiltFrom c r
  | given {g : Registry σ} {r : Rule σ} : withRegistry c g = .ok r → BuiltFrom c r

theorem BuiltFrom.exists_build [NonceSource σ] {c : RuleConfig} {r : Rule σ} (h : BuiltFrom c r) :
    ∃ g, r = build c g := by
  cases h with
  | own _ h =>
    obtain ⟨g, -, -, hr⟩ := ofConfigIn_eq_ok h
    exact ⟨g, hr⟩
  | given h => exact ⟨_, (withRegistry_eq_ok h).2⟩

/-- A rule finds the table that the last record with a name defines. -/
theorem findTable?_build (c : RuleConfig) (g : Registry σ) (name : String) :
    (build c g).findTable? name = (lastNamed? TableConfig.name name c.tables).map Table.ofConfig := by
  rw [findTable?, build, Dict.find?_ofList, ← List.map_reverse]
  exact Dict.lookup_map_pairs _ _ _ _

/-- In a list of columns the last definition of a name counts, and so it does in a list of tables. A
built table has one column for each name in lower case, in the order in which the names occur first;
each column is what the last record with its name defines. Looking up a name, in any spelling, finds
this column, and nothing where no record has the name; the place that the index gives is always in
the list of columns, also for the tables of the first records, which are those that are built on the
way. A rule finds the table of the last record with a name, and of columns only those of this
record. -/
theorem last_definition_counts [NonceSource σ] {c : RuleConfig} {r : Rule σ} (h : BuiltFrom c r) :
    (∀ t : TableConfig,
      (Table.ofConfig t).columns.list.map Column.key =
        (t.columns.map fun x => Case.lower x.logicColumn).eraseDups ∧
      ((Table.ofConfig t).columns.list.map Column.key).Nodup ∧
      (∀ x, x ∈ (Table.ofConfig t).columns.list ↔ ∃ before record after,
        t.columns = before ++ record :: after ∧
        (∀ later ∈ after, Case.lower later.logicColumn ≠ Case.lower record.logicColumn) ∧
        x = .ofConfig record) ∧
      (∀ name x, (Table.ofConfig t).findColumn? name = some x ↔
        x ∈ (Table.ofConfig t).columns.list ∧ Case.lower x.logicColumn = Case.lower name) ∧
      (∀ name, (Table.ofConfig t).findColumn? name =
        (lastNamed? ColumnConfig.logicColumn name t.columns).map Column.ofConfig) ∧
      (∀ n key place,
        (Table.ofConfig { t with columns := t.columns.take n }).columns.index.find? key =
          some place →
        place < (Table.ofConfig { t with columns := t.columns.take n }).columns.list.length)) ∧
    (∀ name, r.findTable? name =
      (lastNamed? TableConfig.name name c.tables).map Table.ofConfig) ∧
    (∀ before t after, c.tables = before ++ t :: after →
      (∀ later ∈ after, Case.lower later.name ≠ Case.lower t.name) →
      ∀ name, Case.lower name = Case.lower t.name →
        r.findTable? name = some (.ofConfig t) ∧
        ∀ column, r.findColumn? name column =
          (lastNamed? ColumnConfig.logicColumn column t.columns).map Column.ofConfig) := by
  obtain ⟨g, rfl⟩ := h.exists_build
  refine ⟨fun t => ⟨Table.map_key_ofConfig t, Table.nodup_key_ofConfig t,
    fun _ => Table.mem_list_ofConfig_iff, fun _ _ => Table.findColumn?_ofConfig_eq_some_iff,
    Table.findColumn?_ofConfig t, fun n _ _ => (Columns.indexed_ofList _).place_lt⟩,
    findTable?_build c g, ?_⟩
  intro before t after htables hafter name hname
  have hlast : lastNamed? TableConfig.name name c.tables = some t := by
    rw [lastNamed?_eq_some_iff, hname]
    exact ⟨rfl, before, after, htables, hafter⟩
  have hfound : (build c g).findTable? name = some (.ofConfig t) := by
    rw [findTable?_build, hlast, Option.map_some]
  refine ⟨hfound, fun column => ?_⟩
  rw [findColumn?, hfound, Option.bind_some, Table.findColumn?_ofConfig]

/-- A table that is defined twice, in two spellings: the second definition counts, with the later of
its two columns of one name at the place of the earlier, and without the column that only the first
definition has. -/
theorem last_definition_counts_respelled :
    let no : ColumnConfig := ⟨"No", "c1", none, none, "aes", none, none⟩
    let tel : ColumnConfig := ⟨"tel", "c2", none, none, "aes", none, none⟩
    let again : ColumnConfig := ⟨"NO", "c3", none, none, "aes", none, none⟩
    let first : TableConfig := ⟨"Card", [⟨"pin", "c4", none, none, "aes", none, none⟩], none⟩
    let second : TableConfig := ⟨"CARD", [no, tel, again], none⟩
    let aes := Algorithm.aesSiv (.replicate 64 0x42)
    ∃ r : Rule NonceStream,
      withRegistry ⟨[first, second], .empty, true⟩ (Registry.empty.insert "aes" (aes.encryptor 0)) =
        .ok r ∧
      r.findTable? "card" = some (.ofConfig second) ∧
      (Table.ofConfig second).columns.list.map Column.key = ["no", "tel"] ∧
      r.findColumn? "card" "nO" = some (.ofConfig again) ∧
      r.findColumn? "card" "pin" = none := by
  intro no tel again first second aes
  have hpass : RuleConfig.Passes
      (Registry.empty.insert "aes" (aes.encryptor 0) : Registry NonceStream).contains
      ⟨[first, second], .empty, true⟩ :=
    RuleConfig.fault?_eq_none_iff.mp (by decide +kernel)
  have hr := withRegistry_of_passes hpass
  obtain ⟨htables, -, hlast⟩ := last_definition_counts (.given hr)
  obtain ⟨hfound, hcolumns⟩ := hlast [first] second [] rfl (by simp) "card" (by decide +kernel)
  refine ⟨_, hr, hfound, (htables second).1.trans (by decide +kernel), ?_, ?_⟩
  · exact (hcolumns "nO").trans (by decide +kernel)
  · exact (hcolumns "pin").trans (by decide +kernel)

end Rule

end ColumnCipher
