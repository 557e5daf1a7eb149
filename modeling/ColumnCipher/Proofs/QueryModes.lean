import ColumnCipher.Proofs.ListedColumns
/-!
Query modes. Whether queries on a column read its cipher column is said by the column, or else by its
table, or else by the rule; of several records with one name only the last is asked. Hence an
override has a say over its own column, or the columns of its own table, and over nothing else:
changing it changes no other answer.
-/
namespace ColumnCipher

section

variable {α : Type} (name : α → String) (x : String) (before after : List α)

/-- Records that follow are asked first, and records that precede are asked last. -/
theorem lastNamed?_append_cons (a : α) : lastNamed? name x (before ++ a :: after) =
    (lastNamed? name x after).or
      (if Case.lower (name a) = Case.lower x then some a else lastNamed? name x before) := by
  rw [lastNamed?, List.reverse_append, List.reverse_cons, List.append_assoc, List.find?_append,
    List.singleton_append, List.find?_cons]
  by_cases h : Case.lower (name a) = Case.lower x
  · rw [beq_iff_eq.mpr h, if_pos h]
    rfl
  · rw [beq_eq_false_iff_ne.mpr h, if_neg h]
    rfl

/-- A record in the place of another with its name makes no difference, unless it is the last one with
the name that is asked for. -/
theorem lastNamed?_replaced {a b : α} (hname : name a = name b) :
    lastNamed? name x (before ++ a :: after) = lastNamed? name x (before ++ b :: after) ∨
    Case.lower (name a) = Case.lower x ∧ lastNamed? name x (before ++ a :: after) = some a ∧
      lastNamed? name x (before ++ b :: after) = some b := by
  rw [lastNamed?_append_cons, lastNamed?_append_cons, ← hname]
  cases lastNamed? name x after with
  | some c => exact .inl rfl
  | none =>
    by_cases hx : Case.lower (name a) = Case.lower x
    · exact .inr ⟨hx, by simp [hx], by simp [hx]⟩
    · exact .inl (by simp [hx])

end

/-! What configurations say. -/

namespace RuleConfig

/-- What queries on a column read by a configuration. A table has a say also over columns that it does
not list. -/
inductive QueryMode (c : RuleConfig) (table column : String) : Bool → Prop where
  | column {t : TableConfig} {x : ColumnConfig} {mode : Bool} :
      lastNamed? TableConfig.name table c.tables = some t →
      lastNamed? ColumnConfig.logicColumn column t.columns = some x →
      x.queryWithCipherColumn = some mode → QueryMode c table column mode
  | table {t : TableConfig} {mode : Bool} :
      lastNamed? TableConfig.name table c.tables = some t →
      (∀ x, lastNamed? ColumnConfig.logicColumn column t.columns = some x →
        x.queryWithCipherColumn = none) →
      t.queryWithCipherColumn = some mode → QueryMode c table column mode
  | rule :
      (∀ t, lastNamed? TableConfig.name table c.tables = some t →
        t.queryWithCipherColumn = none ∧
        ∀ x, lastNamed? ColumnConfig.logicColumn column t.columns = some x →
          x.queryWithCipherColumn = none) → QueryMode c table column c.queryWithCipherColumn

/-- Configurations that are equal but for one place in the list of tables, where they have different
records. -/
inductive DifferAt (t u : TableConfig) : RuleConfig → RuleConfig → Prop where
  | intro (before after : List TableConfig) (encryptors : Dict AlgorithmConfig) (mode : Bool) :
      DifferAt t u ⟨before ++ t :: after, encryptors, mode⟩ ⟨before ++ u :: after, encryptors, mode⟩

end RuleConfig

namespace Table

theorem queryMode?_ofConfig (t : TableConfig) (column : String) :
    (ofConfig t).queryMode? column =
      ((lastNamed? ColumnConfig.logicColumn column t.columns).bind
        ColumnConfig.queryWithCipherColumn).or t.queryWithCipherColumn := by
  rw [queryMode?, findColumn?_ofConfig, Option.bind_map]
  rfl

/-- The override of a column record has a say over this column only. -/
theorem lower_of_queryMode?_ne {t : TableConfig} {earlier later : List ColumnConfig}
    {x : ColumnConfig} {mode : Option Bool} {column : String}
    (hcolumns : t.columns = earlier ++ x :: later)
    (hne : (ofConfig t).queryMode? column ≠
      (ofConfig { t with columns := earlier ++ { x with queryWithCipherColumn := mode } :: later
        }).queryMode? column) :
    Case.lower column = Case.lower x.logicColumn := by
  rw [queryMode?_ofConfig, queryMode?_ofConfig, hcolumns] at hne
  have hname : x.logicColumn = { x with queryWithCipherColumn := mode }.logicColumn := rfl
  rcases lastNamed?_replaced ColumnConfig.logicColumn column earlier later hname with
    heq | ⟨hlower, -, -⟩
  · exact absurd (by rw [heq]) hne
  · exact hlower.symm

end Table

namespace Rule

variable {σ : Type} [NonceSource σ] {c d : RuleConfig} {r r' : Rule σ} {table column : String}

theorem BuiltFrom.isQueryWithCipherColumn_eq (h : BuiltFrom c r) (table column : String) :
    r.isQueryWithCipherColumn table column =
      ((lastNamed? TableConfig.name table c.tables).bind fun t =>
        (Table.ofConfig t).queryMode? column).getD c.queryWithCipherColumn := by
  have hdefault : r.queryWithCipherColumn = c.queryWithCipherColumn := by
    obtain ⟨g, rfl⟩ := h.exists_build
    rfl
  rw [isQueryWithCipherColumn, h.findTable?_eq, Option.bind_map, hdefault]
  rfl

/-- A rule answers as its configuration says. -/
theorem BuiltFrom.isQueryWithCipherColumn_eq_iff (h : BuiltFrom c r) {mode : Bool} :
    r.isQueryWithCipherColumn table column = mode ↔ c.QueryMode table column mode := by
  rw [h.isQueryWithCipherColumn_eq]
  constructor
  · rintro rfl
    cases ht : lastNamed? TableConfig.name table c.tables with
    | none => exact .rule fun t hother => by simp [ht] at hother
    | some t =>
      rw [Option.bind_some, Table.queryMode?_ofConfig]
      cases hcolumn : (lastNamed? ColumnConfig.logicColumn column t.columns).bind
          ColumnConfig.queryWithCipherColumn with
      | some mode =>
        obtain ⟨x, hx, hmode⟩ := Option.bind_eq_some_iff.mp hcolumn
        exact .column ht hx hmode
      | none =>
        -- The column has no say, so the table is asked, and after it the rule.
        have hnone := Option.bind_eq_none_iff.mp hcolumn
        cases hmode : t.queryWithCipherColumn with
        | some mode => exact .table ht hnone hmode
        | none =>
          refine .rule fun u hu => ?_
          obtain rfl := Option.some.inj (ht.symm.trans hu)
          exact ⟨hmode, hnone⟩
  · intro hmode
    cases hmode with
    | column ht hx hmode =>
      rw [ht, Option.bind_some, Table.queryMode?_ofConfig, hx, Option.bind_some, hmode]
      rfl
    | table ht hnone hmode =>
      rw [ht, Option.bind_some, Table.queryMode?_ofConfig, Option.bind_eq_none_iff.mpr hnone, hmode]
      rfl
    | rule hnone =>
      cases ht : lastNamed? TableConfig.name table c.tables with
      | none => rfl
      | some t =>
        obtain ⟨hmode, hcolumn⟩ := hnone t ht
        rw [Option.bind_some, Table.queryMode?_ofConfig, Option.bind_eq_none_iff.mpr hcolumn, hmode]
        rfl

/-- Where one table record is replaced by one with its name, only answers for this table can change,
and only those that the two records give differently. -/
theorem lower_of_isQueryWithCipherColumn_ne {t u : TableConfig} (h : BuiltFrom c r)
    (h' : BuiltFrom d r') (hdiffer : RuleConfig.DifferAt t u c d) (hname : t.name = u.name)
    (hne : r.isQueryWithCipherColumn table column ≠ r'.isQueryWithCipherColumn table column) :
    Case.lower table = Case.lower t.name ∧
      (Table.ofConfig t).queryMode? column ≠ (Table.ofConfig u).queryMode? column := by
  rw [h.isQueryWithCipherColumn_eq, h'.isQueryWithCipherColumn_eq] at hne
  cases hdiffer with
  | intro before after encryptors mode =>
    rcases lastNamed?_replaced TableConfig.name table before after hname with
      heq | ⟨hlower, ht, hu⟩
    · exact absurd (by rw [heq]) hne
    · rw [ht, hu] at hne
      exact ⟨hlower.symm, fun hmode => hne (by simp [hmode])⟩

/-- The override of the column that counts decides what queries read, or else that of the table that
counts, or else the rule. Of two configurations that are equal but for the override of one column
record, rules answer differently at most for this column in tables of the name of its table, and of
two that are equal but for the override of one table record, at most for tables of its name. -/
theorem query_modes_are_local (h : BuiltFrom c r) :
    (∀ table column mode,
      r.isQueryWithCipherColumn table column = mode ↔ c.QueryMode table column mode) ∧
    (∀ d (r' : Rule σ), BuiltFrom d r' → ∀ t earlier x later mode,
      t.columns = earlier ++ x :: later →
      RuleConfig.DifferAt t
        { t with columns := earlier ++ { x with queryWithCipherColumn := mode } :: later } c d →
      ∀ table column,
        r.isQueryWithCipherColumn table column ≠ r'.isQueryWithCipherColumn table column →
        Case.lower table = Case.lower t.name ∧ Case.lower column = Case.lower x.logicColumn) ∧
    (∀ d (r' : Rule σ), BuiltFrom d r' → ∀ t mode,
      RuleConfig.DifferAt t { t with queryWithCipherColumn := mode } c d →
      ∀ table column,
        r.isQueryWithCipherColumn table column ≠ r'.isQueryWithCipherColumn table column →
        Case.lower table = Case.lower t.name) := by
  refine ⟨fun _ _ _ => h.isQueryWithCipherColumn_eq_iff, ?_, ?_⟩
  · intro d r' h' t earlier x later mode hcolumns hdiffer table column hne
    obtain ⟨htable, hmode⟩ := lower_of_isQueryWithCipherColumn_ne h h' hdiffer rfl hne
    exact ⟨htable, Table.lower_of_queryMode?_ne hcolumns hmode⟩
  · intro d r' h' t mode hdiffer table column hne
    exact (lower_of_isQueryWithCipherColumn_ne h h' hdiffer rfl hne).1

/-- A table with one override and columns with others: without the override of the table nothing
changes but in this table, and with another one of a column nothing changes but this column. -/
theorem query_modes_are_local_two_overrides :
    let no : ColumnConfig := ⟨"No", "c1", none, none, "aes", none, some true⟩
    let pin (mode : Option Bool) : ColumnConfig := ⟨"Pin", "c2", none, none, "aes", none, mode⟩
    let card (mode columnMode : Option Bool) : TableConfig :=
      ⟨"Card", [no, pin columnMode], mode⟩
    let c (mode columnMode : Option Bool) : RuleConfig :=
      ⟨[⟨"CARD", [], some true⟩, card mode columnMode], .empty, true⟩
    let g : Registry NonceStream := Registry.empty.insert "aes"
      ((Algorithm.aesSiv (.replicate 64 0x42)).encryptor 0)
    ∃ r r' r'' : Rule NonceStream,
      withRegistry (c (some false) none) g = .ok r ∧
      withRegistry (c (some false) (some true)) g = .ok r' ∧
      withRegistry (c none none) g = .ok r'' ∧
      r.isQueryWithCipherColumn "card" "PIN" = false ∧
      r'.isQueryWithCipherColumn "card" "PIN" = true ∧
      (∀ table column, Case.lower column ≠ Case.lower "Pin" →
        r.isQueryWithCipherColumn table column = r'.isQueryWithCipherColumn table column) ∧
      ∀ table column, Case.lower table ≠ Case.lower "Card" →
        r.isQueryWithCipherColumn table column = r''.isQueryWithCipherColumn table column := by
  intro no pin card c g
  obtain ⟨hpass, hfound⟩ :
      (∀ mode ∈ [none, some false], ∀ columnMode ∈ [none, some true],
        (c mode columnMode).fault? g.contains = none) ∧
      ∀ columnMode ∈ [none, some true],
        lastNamed? TableConfig.name "card" (c (some false) columnMode).tables =
          some (card (some false) columnMode) ∧
        lastNamed? ColumnConfig.logicColumn "PIN" (card (some false) columnMode).columns =
          some (pin columnMode) := by decide +kernel
  have built (mode columnMode : Option Bool) (hmode : mode ∈ [none, some false])
      (hcolumnMode : columnMode ∈ [none, some true]) :
      withRegistry (c mode columnMode) g = .ok (build (c mode columnMode) g) :=
    withRegistry_of_passes (RuleConfig.fault?_eq_none_iff.mp (hpass _ hmode _ hcolumnMode))
  have hr := built (some false) none (by simp) (by simp)
  have hr' := built (some false) (some true) (by simp) (by simp)
  have hr'' := built none none (by simp) (by simp)
  obtain ⟨hmodes, hcolumns, htables⟩ := query_modes_are_local (.given hr)
  obtain ⟨hchanged, -, -⟩ := query_modes_are_local (.given hr')
  obtain ⟨hcard, hpin⟩ := hfound none (by simp)
  obtain ⟨hcard', hpin'⟩ := hfound (some true) (by simp)
  refine ⟨_, _, _, hr, hr', hr'', ?_, ?_, ?_, ?_⟩
  · refine (hmodes "card" "PIN" false).mpr (.table hcard (fun x hx => ?_) rfl)
    obtain rfl := Option.some.inj (hpin.symm.trans hx)
    rfl
  · exact (hchanged "card" "PIN" true).mpr (.column hcard' hpin' rfl)
  · intro table column hcolumn
    by_contra hne
    exact hcolumn (hcolumns _ _ (.given hr') (card (some false) none) [no] (pin none) [] (some true)
      rfl (.intro [⟨"CARD", [], some true⟩] [] .empty true) table column hne).2
  · intro table column htable
    by_contra hne
    exact htable (htables _ _ (.given hr'') (card (some false) none) none
      (.intro [⟨"CARD", [], some true⟩] [] .empty true) table column hne)

end Rule

end ColumnCipher
