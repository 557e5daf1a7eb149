import ColumnCipher.Proofs.Acceptance
import ColumnCipher.Rule.Batch
/-!
The references of accepted rules. The check reads the configuration and the look-ups read the tables
that were built from it; what joins them is an invariant of columns, which the check establishes and
which building keeps. So every column that is found has its encryptor, and an operation says that it
found none exactly where there is no column.
-/
namespace ColumnCipher

theorem isGiven_iff_nonEmpty? {s : Option String} : IsGiven s ↔ (nonEmpty? s).isSome := by
  simp only [IsGiven, Option.isSome_iff_exists, nonEmpty?_eq_some_iff]

/-- What the parts of an accepted rule know of a column: its names are not empty, its encryptors are
registered, and an index has both a column and an encryptor. -/
structure Column.Complete (registered : String → Bool) (c : Column) : Prop where
  cipherColumn : c.cipherColumn ≠ ""
  encryptorName : c.encryptorName ≠ ""
  encryptor : registered c.encryptorName = true
  assistedQuery : c.assistedQueryEncryptorName.isSome = c.assistedQueryColumn.isSome
  assistedQueryEncryptorName : c.assistedQueryEncryptorName ≠ some ""
  assistedQueryEncryptor : ∀ name, c.assistedQueryEncryptorName = some name →
    registered name = true

/-- A column that passes the check is complete when it is built. -/
theorem Column.ofConfig_complete {registered : String → Bool} {c : ColumnConfig}
    (h : c.Passes registered) : (Column.ofConfig c).Complete registered where
  cipherColumn := fun hempty => h _ (.cipherColumn hempty)
  encryptorName := fun hempty => h _ (.encryptorName hempty)
  encryptor := by
    cases hr : registered c.encryptorName with
    | true => exact hr
    | false => exact absurd (.encryptor hr) (h _)
  assistedQuery := by
    rw [Bool.eq_iff_iff]
    change (nonEmpty? c.assistedQueryEncryptorName).isSome ↔
      (nonEmpty? c.assistedQueryColumn).isSome
    rw [← isGiven_iff_nonEmpty?, ← isGiven_iff_nonEmpty?]
    constructor
    · intro hname
      by_cases hcolumn : IsGiven c.assistedQueryColumn
      · exact hcolumn
      · exact absurd (.assistedColumn hcolumn hname) (h _)
    · intro hcolumn
      by_cases hname : IsGiven c.assistedQueryEncryptorName
      · exact hname
      · exact absurd (.assistedEncryptorName hcolumn hname) (h _)
  assistedQueryEncryptorName := fun hempty => (nonEmpty?_eq_some_iff.mp hempty).2 rfl
  assistedQueryEncryptor := by
    intro name hname
    obtain ⟨hsome, hne⟩ := nonEmpty?_eq_some_iff.mp hname
    have hgiven : IsGiven c.assistedQueryEncryptorName := ⟨name, hsome, hne⟩
    cases hr : registered name with
    | true => rfl
    | false =>
      by_cases hcolumn : IsGiven c.assistedQueryColumn
      · exact absurd (.assistedEncryptor name hcolumn hsome hne hr) (h _)
      · exact absurd (.assistedColumn hcolumn hgiven) (h _)

namespace Registry

variable {σ : Type}

def ReportsOwn (g : Registry σ) : Prop := ∀ name x, g.find? name = some x → x.ReportsOwn

theorem ReportsOwn.of_bind {g : Registry σ} (h : g.ReportsOwn) {name : Option String}
    {x : Encryptor σ} (hx : name.bind g.find? = some x) : x.ReportsOwn := by
  obtain ⟨found, -, hfound⟩ := Option.bind_eq_some_iff.mp hx
  exact h found x hfound

end Registry

namespace Rule

variable {σ : Type}

/-- A rule that was built from a configuration: with encryptors of its own, in any order, or over a
given registry. -/
inductive Accepted [NonceSource σ] : Rule σ → Prop where
  | own {id : Nat} {c : RuleConfig} {entries : List (String × AlgorithmConfig)} {r : Rule σ} :
      entries.Perm c.encryptors.entries → ofConfigIn id c entries = .ok r → Accepted r
  | given {c : RuleConfig} {g : Registry σ} {r : Rule σ} : withRegistry c g = .ok r → Accepted r

def Complete (r : Rule σ) : Prop :=
  ∀ entry ∈ r.tables.entries, ∀ x ∈ entry.2.columns.list, x.Complete r.registry.contains

/-- Building keeps the invariant: tables and columns that are replaced are not needed for it. -/
theorem build_complete {c : RuleConfig} {g : Registry σ} (h : c.Passes g.contains) :
    (build c g).Complete := by
  intro entry hentry x hx
  have hfound : (build c g).tables.find? entry.1 = some entry.2 := Dict.find?_eq_some_iff.mpr hentry
  obtain ⟨t, ht, htable⟩ := List.mem_map.mp (Dict.mem_of_find?_ofList hfound)
  rw [← (Prod.mk.inj htable).2] at hx
  obtain ⟨column, hcolumn, rfl⟩ := List.mem_map.mp (Columns.mem_ofList hx)
  exact Column.ofConfig_complete (h t ht column hcolumn)

theorem withRegistry_eq_ok {c : RuleConfig} {g : Registry σ} {r : Rule σ}
    (h : withRegistry c g = .ok r) : c.Passes g.contains ∧ r = build c g := by
  rcases RuleConfig.passes_or_firstFault g.contains c with hpass | ⟨e, he⟩
  · rw [withRegistry_of_passes hpass] at h
    exact ⟨hpass, (Except.ok.inj h).symm⟩
  · simp [withRegistry_of_firstFault he] at h

theorem ofConfigIn_eq_ok [NonceSource σ] {id : Nat} {c : RuleConfig}
    {entries : List (String × AlgorithmConfig)} {r : Rule σ}
    (h : ofConfigIn id c entries = .ok r) : ∃ g, Registry.ofEntries id entries = .ok g ∧
      c.Passes c.encryptors.contains ∧ r = build c g := by
  rcases RuleConfig.passes_or_firstFault c.encryptors.contains c with hpass | ⟨e, he⟩
  · rw [ofConfigIn_of_passes hpass] at h
    obtain ⟨g, hg, hr⟩ := Except.map_eq_ok_iff.mp h
    exact ⟨g, hg, hpass, hr.symm⟩
  · simp [ofConfigIn_of_firstFault he] at h

theorem Accepted.complete [NonceSource σ] {r : Rule σ} (h : r.Accepted) : r.Complete := by
  cases h with
  | own hentries h =>
    obtain ⟨g, hg, hpass, rfl⟩ := ofConfigIn_eq_ok h
    exact build_complete (contains_ofEntries_perm hentries hg ▸ hpass)
  | given h =>
    obtain ⟨hpass, rfl⟩ := withRegistry_eq_ok h
    exact build_complete hpass

/-- Encryptors that a rule has built itself report errors of their own kinds only. -/
theorem reportsOwn_of_ofConfigIn [NonceSource σ] {id : Nat} {c : RuleConfig}
    {entries : List (String × AlgorithmConfig)} {r : Rule σ}
    (h : ofConfigIn id c entries = .ok r) : r.registry.ReportsOwn := by
  intro name x hx
  obtain ⟨g, hg, -, rfl⟩ := ofConfigIn_eq_ok h
  obtain ⟨config, a, i, -, -, rfl⟩ := Registry.find?_ofEntries hg hx
  exact a.encryptor_reportsOwn i

namespace Complete

variable {r : Rule σ} {table column : String} {x : Column}

theorem of_findColumn? (h : r.Complete) (hx : r.findColumn? table column = some x) :
    x.Complete r.registry.contains := by
  obtain ⟨t, ht, hcolumn⟩ := Option.bind_eq_some_iff.mp hx
  exact h _ (Dict.find?_eq_some_iff.mp ht) x (Columns.mem_of_find? hcolumn)

/-- A column that is found has its encryptor. -/
theorem isSome_findEncryptor? (h : r.Complete) (table column : String) :
    (r.findEncryptor? table column).isSome = (r.findColumn? table column).isSome := by
  rw [findEncryptor?_eq]
  cases hx : r.findColumn? table column with
  | none => rfl
  | some x => exact (h.of_findColumn? hx).encryptor

/-- An index that is found has its encryptor, and an encryptor of an index has its column. -/
theorem isSome_findAssistedQueryEncryptor? (h : r.Complete) (table column : String) :
    (r.findAssistedQueryEncryptor? table column).isSome =
      (r.assistedQueryColumn? table column).isSome := by
  rw [findAssistedQueryEncryptor?_eq, assistedQueryColumn?_eq]
  cases hx : r.findColumn? table column with
  | none => rfl
  | some x =>
    have hcomplete := h.of_findColumn? hx
    rw [Option.bind_some, Option.bind_some, ← hcomplete.assistedQuery]
    cases hname : x.assistedQueryEncryptorName with
    | none => rfl
    | some name => exact hcomplete.assistedQueryEncryptor name hname

end Complete

/-- A batch fails with a look-up error exactly where there is no encryptor to call, if the encryptor
that is called reports no such errors itself. -/
theorem runBatch_missing_iff {found : Option (Encryptor σ)} {kind : String → String → Error}
    {direction : Encryptor σ → Transformation σ} {table column : String} {context : Context}
    {vs : List (Option Value)} {s : σ} (hkind : ∀ t c, (kind t c).IsLookup)
    (hown : ∀ x, found = some x →
      ∀ v s e, (direction x v context s).1 = .error e → ¬e.IsLookup) :
    (∃ t c, (runBatch found (kind table column) direction context vs s).1 = .error (kind t c)) ↔
      found = none := by
  cases found with
  | none =>
    simp only [runBatch, iff_true]
    exact ⟨table, column, rfl⟩
  | some x =>
    simp only [runBatch, reduceCtorEq, iff_false]
    rintro ⟨t, c, hfailed⟩
    obtain ⟨v, next, hcall⟩ := mapPresent_error hfailed
    exact hown x rfl v next _ hcall (hkind t c)

/-- No reference of an accepted rule dangles. A column has an encryptor and an index column has an
index encryptor, all stored names are there, and an operation misses its encryptor exactly where the
configuration has no column for it. That needs encryptors that do not report look-up errors of their
own, which encryptors that the rule has built never do. -/
theorem accepted_resolves [NonceSource σ] {r : Rule σ} (h : r.Accepted) :
    (∀ table column,
      (r.findEncryptor? table column).isSome = (r.findColumn? table column).isSome) ∧
    (∀ table column, (r.findAssistedQueryEncryptor? table column).isSome =
      (r.assistedQueryColumn? table column).isSome) ∧
    (∀ entry ∈ r.tables.entries, ∀ x ∈ entry.2.columns.list,
      x.cipherColumn ≠ "" ∧ x.encryptorName ≠ "" ∧ x.assistedQueryEncryptorName ≠ some "") ∧
    (∀ table column, (∃ t c, r.cipherColumn table column = .error (.columnNotFound t c)) ↔
      r.findColumn? table column = none) ∧
    (r.registry.ReportsOwn → ∀ database schema table column vs s,
      ((∃ t c, (r.encryptValues database schema table column vs s).1 =
          .error (.encryptorNotFound t c)) ↔ r.findColumn? table column = none) ∧
      ((∃ t c, (r.decryptValues database schema table column vs s).1 =
          .error (.encryptorNotFound t c)) ↔ r.findColumn? table column = none) ∧
      ((∃ t c, (r.encryptAssistedQueryValues database schema table column vs s).1 =
          .error (.assistedQueryEncryptorNotFound t c)) ↔
        r.assistedQueryColumn? table column = none)) ∧
    (∀ id c entries, ofConfigIn id c entries = .ok r → r.registry.ReportsOwn) := by
  have hcomplete := h.complete
  refine ⟨hcomplete.isSome_findEncryptor?, hcomplete.isSome_findAssistedQueryEncryptor?, ?_, ?_, ?_,
    fun _ _ _ => reportsOwn_of_ofConfigIn⟩
  · intro entry hentry x hx
    have hcolumn := hcomplete entry hentry x hx
    exact ⟨hcolumn.cipherColumn, hcolumn.encryptorName, hcolumn.assistedQueryEncryptorName⟩
  · intro table column
    unfold cipherColumn
    cases r.findColumn? table column with
    | none => simp
    | some x => simp
  · intro hown database schema table column vs s
    have hencryptor := Option.isSome_eq_isSome.mp (hcomplete.isSome_findEncryptor? table column)
    have hassisted := Option.isSome_eq_isSome.mp
      (hcomplete.isSome_findAssistedQueryEncryptor? table column)
    rw [← hencryptor, ← hassisted]
    refine ⟨runBatch_missing_iff (fun _ _ => trivial) ?_,
      runBatch_missing_iff (fun _ _ => trivial) ?_, runBatch_missing_iff (fun _ _ => trivial) ?_⟩
    · intro x hx v s
      exact (hown.of_bind hx).encrypt v _ s
    · intro x hx v s
      exact (hown.of_bind hx).decrypt v _ s
    · intro x hx v s
      exact (hown.of_bind hx).encrypt v _ s

/-- A column that is defined twice, in a table that is defined twice, has its encryptor but no
index, and a column of the table that was replaced has none. -/
theorem accepted_resolves_replaced_column :
    let c : RuleConfig := {
      tables := [
        ⟨"Orders", [⟨"Phone", "phone_cipher", none, none, "aes", none, none⟩], none⟩,
        ⟨"ORDERS", [⟨"email", "e1", some "e2", none, "aes", some "aes", none⟩,
          ⟨"Email", "e1", some "", none, "aes", some "", none⟩], none⟩]
      encryptors := .empty
      queryWithCipherColumn := true }
    let aes := Algorithm.aesSiv (.replicate 64 0x42)
    ∃ r : Rule NonceStream,
      withRegistry c (Registry.empty.insert "aes" (aes.encryptor 0)) = .ok r ∧
      (r.findEncryptor? "orders" "EMAIL").isSome = true ∧
      (r.findAssistedQueryEncryptor? "orders" "EMAIL").isSome = false ∧
      ∃ table column, r.cipherColumn "orders" "phone" = .error (.columnNotFound table column) := by
  intro c aes
  have hpass : c.Passes
      (Registry.empty.insert "aes" (aes.encryptor 0) : Registry NonceStream).contains :=
    RuleConfig.fault?_eq_none_iff.mp (by decide +kernel)
  have hr := withRegistry_of_passes hpass
  obtain ⟨hencryptor, hassisted, -, hcolumn, -, -⟩ := accepted_resolves (.given hr)
  have hfound : (build c (Registry.empty.insert "aes" (aes.encryptor 0) :
      Registry NonceStream)).findColumn? "orders" "EMAIL" =
        some ⟨"Email", "e1", "aes", none, none, none, none⟩ := by decide +kernel
  refine ⟨_, hr, ?_, ?_, (hcolumn "orders" "phone").mpr (by decide +kernel)⟩
  · rw [hencryptor, hfound]
    rfl
  · rw [hassisted, assistedQueryColumn?_eq, hfound]
    rfl

end Rule

end ColumnCipher
