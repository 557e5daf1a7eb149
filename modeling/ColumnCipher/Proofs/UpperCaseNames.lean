import ColumnCipher.Proofs.EffectiveRecords
import ColumnCipher.Proofs.Resolution
import ColumnCipher.Proofs.UpperCase
/-!
Upper-case spellings of names. Names are the same if their lower-case forms are, and upper-casing
keeps the lower-case form of most names but not of all. So the upper-case spelling of a name finds
what the name finds exactly if the name comes back from it.
-/
namespace ColumnCipher

open Case (ComesBack lower_upper_eq_iff)

namespace Rule

variable {σ : Type}

/-- Every accepted rule is built from a configuration. -/
theorem Accepted.exists_build [NonceSource σ] {r : Rule σ} (h : r.Accepted) :
    ∃ c g, r = build c g := by
  cases h with
  | own _ h =>
    obtain ⟨g, -, -, hr⟩ := ofConfigIn_eq_ok h
    exact ⟨_, g, hr⟩
  | given h => exact ⟨_, _, (withRegistry_eq_ok h).2⟩

/-- A table that is found under a name has this name, in some spelling. -/
theorem lower_name_of_findTable? {c : RuleConfig} {g : Registry σ} {table : String} {t : Table}
    (h : (build c g).findTable? table = some t) :
    ∃ record : TableConfig, t = .ofConfig record ∧ Case.lower t.name = Case.lower table := by
  obtain ⟨record, -, hrecord⟩ := List.mem_map.mp (Dict.mem_of_find?_ofList h)
  obtain ⟨hname, rfl⟩ := Prod.mk.inj hrecord
  exact ⟨record, rfl, hname⟩

/-- Two names find one table exactly if they are spellings of one name. -/
theorem findTable?_eq_some_iff_lower {c : RuleConfig} {g : Registry σ} {table table' : String}
    {t : Table} (h : (build c g).findTable? table = some t) :
    (build c g).findTable? table' = some t ↔ Case.lower table' = Case.lower table := by
  constructor
  · intro h'
    obtain ⟨-, -, hname⟩ := lower_name_of_findTable? h
    obtain ⟨-, -, hname'⟩ := lower_name_of_findTable? h'
    rw [← hname', hname]
  · intro hlower
    rw [findTable?, hlower]
    exact h

/-- A rule answers alike for all spellings of a table and a column that it has. -/
theorem answers_of_lower_eq {r : Rule σ} {table table' column column' : String} {x : Column}
    (hx : r.findColumn? table column = some x) (htable : Case.lower table' = Case.lower table)
    (hcolumn : Case.lower column' = Case.lower column) :
    r.findTable? table' = r.findTable? table ∧
    r.findColumn? table' column' = r.findColumn? table column ∧
    r.findEncryptor? table' column' = r.findEncryptor? table column ∧
    r.cipherColumn table' column' = r.cipherColumn table column ∧
    r.plainColumn? table' column' = r.plainColumn? table column := by
  have htables : r.findTable? table' = r.findTable? table := by
    rw [findTable?, findTable?, htable]
  have hcolumns := r.findColumn?_congr htable hcolumn
  refine ⟨htables, hcolumns, ?_, ?_, ?_⟩
  · rw [findEncryptor?_eq, findEncryptor?_eq, hcolumns]
  · rw [cipherColumn, cipherColumn, hcolumns, hx]
  · simp only [plainColumn?, htables, Table.configuredName?, hcolumn]

/-- The upper-case spelling of a table finds the table exactly if its name comes back from upper case,
and so does that of a column. Where both names come back a rule answers for the upper-case spellings
as it does for the names. -/
theorem upper_case_spelling [NonceSource σ] {r : Rule σ} (hr : r.Accepted) {table column : String}
    {t : Table} (ht : r.findTable? table = some t) (hcolumn : column ∈ t.logicColumns) :
    (r.findTable? (Case.upper table) = some t ↔ ComesBack false table.toList) ∧
    (t.findColumn? (Case.upper column) = t.findColumn? column ↔ ComesBack false column.toList) ∧
    (ComesBack false table.toList → ComesBack false column.toList →
      r.findTable? (Case.upper table) = r.findTable? table ∧
      r.findColumn? (Case.upper table) (Case.upper column) = r.findColumn? table column ∧
      r.findEncryptor? (Case.upper table) (Case.upper column) = r.findEncryptor? table column ∧
      r.cipherColumn (Case.upper table) (Case.upper column) = r.cipherColumn table column ∧
      r.plainColumn? (Case.upper table) (Case.upper column) = r.plainColumn? table column) := by
  obtain ⟨c, g, rfl⟩ := hr.exists_build
  obtain ⟨record, rfl, -⟩ := lower_name_of_findTable? ht
  obtain ⟨x, hx, rfl⟩ := List.mem_map.mp hcolumn
  have hfound : (Table.ofConfig record).findColumn? x.logicColumn = some x :=
    Table.findColumn?_ofConfig_eq_some_iff.mpr ⟨hx, rfl⟩
  refine ⟨?_, ?_, fun htable hcolumn => ?_⟩
  · rw [findTable?_eq_some_iff_lower ht, lower_upper_eq_iff]
  · rw [hfound, Table.findColumn?_ofConfig_eq_some_iff, ← lower_upper_eq_iff, and_iff_right hx,
      eq_comm]
  · refine answers_of_lower_eq (x := x) ?_ ((lower_upper_eq_iff _).mpr htable)
      ((lower_upper_eq_iff _).mpr hcolumn)
    rw [findColumn?, ht, Option.bind_some, hfound]

/-- A table whose name ends in a sigma and a column with an umlaut. -/
theorem upper_case_spelling_sigma :
    let road : TableConfig :=
      ⟨"Οδός", [⟨"Ärger", "c1", none, some "p1", "aes", none, none⟩], none⟩
    let aes := Algorithm.aesSiv (.replicate 64 0x42)
    ∃ r : Rule NonceStream,
      withRegistry ⟨[road], .empty, true⟩ (Registry.empty.insert "aes" (aes.encryptor 0)) = .ok r ∧
      r.findTable? "Οδός" = some (.ofConfig road) ∧
      r.findTable? (Case.upper "Οδός") = some (.ofConfig road) ∧
      r.plainColumn? (Case.upper "Οδός") (Case.upper "Ärger") = some "p1" := by
  intro road aes
  have hpass : RuleConfig.Passes
      (Registry.empty.insert "aes" (aes.encryptor 0) : Registry NonceStream).contains
      ⟨[road], .empty, true⟩ :=
    RuleConfig.fault?_eq_none_iff.mp (by decide +kernel)
  have hr := withRegistry_of_passes hpass
  have ht : (build ⟨[road], .empty, true⟩ (Registry.empty.insert "aes" (aes.encryptor 0)) :
      Rule NonceStream).findTable? "Οδός" = some (.ofConfig road) := by decide +kernel
  have hcolumn : "Ärger" ∈ (Table.ofConfig road).logicColumns := by decide +kernel
  obtain ⟨htable, -, hanswers⟩ := upper_case_spelling (.given hr) ht hcolumn
  obtain ⟨-, -, -, -, hplain⟩ := hanswers (by decide +kernel) (by decide +kernel)
  refine ⟨_, hr, ht, htable.mpr (by decide +kernel), hplain.trans (by decide +kernel)⟩

/-- The upper-case spelling of a sharp s is two letters, which are not put together again. -/
theorem upper_case_misses_sharp_s :
    let street : TableConfig :=
      ⟨"Straße", [⟨"no", "no_cipher", none, none, "aes", none, none⟩], none⟩
    let aes := Algorithm.aesSiv (.replicate 64 0x42)
    ∃ r : Rule NonceStream,
      withRegistry ⟨[street], .empty, true⟩ (Registry.empty.insert "aes" (aes.encryptor 0)) =
        .ok r ∧
      r.findTable? "Straße" = some (.ofConfig street) ∧
      "no" ∈ (Table.ofConfig street).logicColumns ∧
      r.findTable? (Case.upper "Straße") = none ∧
      r.cipherColumn "Straße" "no" = .ok "no_cipher" ∧
      r.cipherColumn (Case.upper "Straße") (Case.upper "no") =
        .error (.columnNotFound "STRASSE" "NO") := by
  intro street aes
  have hpass : RuleConfig.Passes
      (Registry.empty.insert "aes" (aes.encryptor 0) : Registry NonceStream).contains
      ⟨[street], .empty, true⟩ :=
    RuleConfig.fault?_eq_none_iff.mp (by decide +kernel)
  let r : Rule NonceStream :=
    build ⟨[street], .empty, true⟩ (Registry.empty.insert "aes" (aes.encryptor 0))
  have hcolumn : r.findColumn? "Straße" "no" =
      some ⟨"no", "no_cipher", "aes", none, none, none, none⟩ := by decide +kernel
  have hmissing : r.findColumn? (Case.upper "Straße") (Case.upper "no") = none := by
    decide +kernel
  have hstreet : Case.upper "Straße" = "STRASSE" := by decide +kernel
  have hno : Case.upper "no" = "NO" := by decide +kernel
  refine ⟨r, withRegistry_of_passes hpass, by decide +kernel, by decide +kernel,
    by decide +kernel, ?_, ?_⟩
  · rw [cipherColumn, hcolumn]
  · rw [cipherColumn, hmissing, hstreet, hno]

end Rule

end ColumnCipher
