import ColumnCipher.Rule.Basic
import ColumnCipher.Proofs.Encryptors
/-!
Which configurations are accepted, and with which error the others are refused. What may be wrong
with a column is stated as a relation, several of whose cases can hold at once; the refusal names
the first column for which one holds, and of its cases the one that is checked first.
-/
namespace ColumnCipher

/-- An optional text is given if it is there and is not empty. -/
def IsGiven (s : Option String) : Prop := ∃ text, s = some text ∧ text ≠ ""

theorem isGiven_iff {s : Option String} : IsGiven s ↔ s.getD "" ≠ "" := by
  cases s with
  | none => simp [IsGiven]
  | some text => simp [IsGiven]

namespace ColumnFault

def rank : ColumnFault → Nat
  | cipherColumnRequired => 0
  | encryptorNameRequired => 1
  | encryptorNotRegistered _ => 2
  | assistedEncryptorNameRequired => 3
  | assistedColumnRequired => 4
  | assistedEncryptorNotRegistered _ => 5

end ColumnFault

namespace ColumnConfig

variable {registered : String → Bool} {c : ColumnConfig} {f g : ColumnFault}

/-- What is wrong with a column when the given names are registered. -/
inductive Violates (registered : String → Bool) (c : ColumnConfig) : ColumnFault → Prop where
  | cipherColumn : c.cipherColumn = "" → Violates registered c .cipherColumnRequired
  | encryptorName : c.encryptorName = "" → Violates registered c .encryptorNameRequired
  | encryptor : registered c.encryptorName = false →
      Violates registered c (.encryptorNotRegistered c.encryptorName)
  | assistedEncryptorName : IsGiven c.assistedQueryColumn →
      ¬IsGiven c.assistedQueryEncryptorName → Violates registered c .assistedEncryptorNameRequired
  | assistedColumn : ¬IsGiven c.assistedQueryColumn → IsGiven c.assistedQueryEncryptorName →
      Violates registered c .assistedColumnRequired
  | assistedEncryptor (name : String) : IsGiven c.assistedQueryColumn →
      c.assistedQueryEncryptorName = some name → name ≠ "" → registered name = false →
      Violates registered c (.assistedEncryptorNotRegistered name)

def FirstViolation (registered : String → Bool) (c : ColumnConfig) (f : ColumnFault) : Prop :=
  c.Violates registered f ∧ ∀ g, c.Violates registered g → f.rank ≤ g.rank

def Passes (registered : String → Bool) (c : ColumnConfig) : Prop :=
  ∀ f, ¬c.Violates registered f

/-- A column has at most one fault of each rank. -/
theorem Violates.eq_of_rank_eq (hf : c.Violates registered f) (hg : c.Violates registered g)
    (h : f.rank = g.rank) : f = g := by
  cases hf <;> cases hg <;> simp_all [ColumnFault.rank]

theorem firstViolation_cipherFault? (h : c.cipherFault? registered = some f) :
    c.FirstViolation registered f := by
  unfold cipherFault? at h
  split at h
  · rename_i hcipher
    obtain rfl := Option.some.inj h
    exact ⟨.cipherColumn hcipher, fun g _ => Nat.zero_le _⟩
  · rename_i hcipher
    split at h
    · rename_i hname
      obtain rfl := Option.some.inj h
      refine ⟨.encryptorName hname, fun g hg => ?_⟩
      cases hg <;> simp_all [ColumnFault.rank]
    · rename_i hname
      split at h
      · simp at h
      · rename_i hregistered
        obtain rfl := Option.some.inj h
        refine ⟨.encryptor (by simpa using hregistered), fun g hg => ?_⟩
        cases hg <;> simp_all [ColumnFault.rank]

theorem rank_of_cipherFault?_eq_none (h : c.cipherFault? registered = none)
    (hg : c.Violates registered g) : 3 ≤ g.rank := by
  unfold cipherFault? at h
  split at h
  · simp at h
  · split at h
    · simp at h
    · split at h
      · cases hg <;> simp_all [ColumnFault.rank]
      · simp at h

/-- The check of the index, with its conditions one after the other. -/
theorem assistedFault?_eq (registered : String → Bool) (c : ColumnConfig) :
    c.assistedFault? registered =
      if c.assistedQueryColumn.getD "" = "" then
        if c.assistedQueryEncryptorName.getD "" = "" then none else some .assistedColumnRequired
      else if c.assistedQueryEncryptorName.getD "" = "" then some .assistedEncryptorNameRequired
      else if registered (c.assistedQueryEncryptorName.getD "") then none
      else some (.assistedEncryptorNotRegistered (c.assistedQueryEncryptorName.getD "")) := by
  unfold assistedFault?
  split <;> simp_all

theorem violates_assistedFault? (h : c.assistedFault? registered = some f) :
    c.Violates registered f ∧ ∀ g, c.Violates registered g → 3 ≤ g.rank → f.rank ≤ g.rank := by
  rw [assistedFault?_eq] at h
  by_cases hcolumn : c.assistedQueryColumn.getD "" = ""
  · have hnone : ¬IsGiven c.assistedQueryColumn := fun hc => isGiven_iff.mp hc hcolumn
    by_cases hname : c.assistedQueryEncryptorName.getD "" = ""
    · simp [hcolumn, hname] at h
    · simp only [hcolumn, hname, if_true, if_false, Option.some.injEq] at h
      subst h
      refine ⟨.assistedColumn hnone (isGiven_iff.mpr hname), fun g hg hrank => ?_⟩
      cases hg <;> simp_all [ColumnFault.rank]
  · have hgiven : IsGiven c.assistedQueryColumn := isGiven_iff.mpr hcolumn
    by_cases hname : c.assistedQueryEncryptorName.getD "" = ""
    · have hnone : ¬IsGiven c.assistedQueryEncryptorName := fun hc => isGiven_iff.mp hc hname
      simp only [hcolumn, hname, if_true, if_false, Option.some.injEq] at h
      subst h
      exact ⟨.assistedEncryptorName hgiven hnone, fun g _ hrank => hrank⟩
    · obtain ⟨name, hsome, hne⟩ := isGiven_iff.mpr hname
      simp only [hcolumn, hsome, hne, Option.getD_some, if_false] at h
      split at h
      · simp at h
      · rename_i hregistered
        obtain rfl := Option.some.inj h
        refine ⟨.assistedEncryptor name hgiven hsome hne (by simpa using hregistered), ?_⟩
        intro g hg hrank
        cases hg <;> simp_all [ColumnFault.rank, isGiven_iff]

theorem rank_of_assistedFault?_eq_none (h : c.assistedFault? registered = none)
    (hg : c.Violates registered g) : g.rank < 3 := by
  rw [assistedFault?_eq] at h
  cases hg with
  | cipherColumn _ => simp [ColumnFault.rank]
  | encryptorName _ => simp [ColumnFault.rank]
  | encryptor _ => simp [ColumnFault.rank]
  | assistedEncryptorName hcolumn hname => simp_all [isGiven_iff]
  | assistedColumn hcolumn hname => simp_all [isGiven_iff]
  | assistedEncryptor name hcolumn hsome hne hregistered =>
    simp [isGiven_iff.mp hcolumn, hsome, hne, hregistered] at h

/-- The check of a column passes it exactly if nothing is wrong with it. -/
theorem fault?_eq_none_iff : c.fault? registered = none ↔ c.Passes registered := by
  rw [fault?, Option.or_eq_none_iff]
  constructor
  · rintro ⟨hcipher, hassisted⟩ g hg
    have hlow := rank_of_cipherFault?_eq_none hcipher hg
    have hhigh := rank_of_assistedFault?_eq_none hassisted hg
    omega
  · intro hpass
    constructor
    · cases hcipher : c.cipherFault? registered with
      | none => rfl
      | some f => exact absurd (firstViolation_cipherFault? hcipher).1 (hpass f)
    · cases hassisted : c.assistedFault? registered with
      | none => rfl
      | some f => exact absurd (violates_assistedFault? hassisted).1 (hpass f)

/-- What the check of a column finds is the first thing that is wrong with it. -/
theorem firstViolation_of_fault? (h : c.fault? registered = some f) :
    c.FirstViolation registered f := by
  rw [fault?, Option.or_eq_some_iff] at h
  rcases h with hcipher | ⟨hcipher, hassisted⟩
  · exact firstViolation_cipherFault? hcipher
  · obtain ⟨hf, hleast⟩ := violates_assistedFault? hassisted
    exact ⟨hf, fun g hg => hleast g hg (rank_of_cipherFault?_eq_none hcipher hg)⟩

/-- The check of a column finds exactly the first thing that is wrong with it. -/
theorem fault?_eq_some_iff : c.fault? registered = some f ↔ c.FirstViolation registered f := by
  refine ⟨firstViolation_of_fault?, ?_⟩
  rintro ⟨hf, hleast⟩
  cases hfault : c.fault? registered with
  | none => exact absurd hf (fault?_eq_none_iff.mp hfault f)
  | some g =>
    obtain ⟨hg, hleast'⟩ := firstViolation_of_fault? hfault
    have hrank : g.rank = f.rank := Nat.le_antisymm (hleast' f hf) (hleast g hg)
    rw [hg.eq_of_rank_eq hf hrank]

end ColumnConfig

namespace RuleConfig

variable {registered : String → Bool} {c : RuleConfig}

/-- The error of the first column that does not pass: every column of the tables before its table
passes, and so does every column before it. -/
def FirstFault (registered : String → Bool) (c : RuleConfig) (e : Error) : Prop :=
  ∃ before t after earlier column later f,
    c.tables = before ++ t :: after ∧ t.columns = earlier ++ column :: later ∧
    (∀ x ∈ before, ∀ y ∈ x.columns, y.Passes registered) ∧
    (∀ y ∈ earlier, y.Passes registered) ∧
    column.FirstViolation registered f ∧ e = .invalidConfiguration t.name column.logicColumn f

def Passes (registered : String → Bool) (c : RuleConfig) : Prop :=
  ∀ t ∈ c.tables, ∀ y ∈ t.columns, y.Passes registered

theorem fault?_eq_none_iff : c.fault? registered = none ↔ c.Passes registered := by
  simp only [fault?, Passes, List.findSome?_eq_none_iff, Option.map_eq_none_iff,
    ColumnConfig.fault?_eq_none_iff]

/-- The check finds exactly the error of the first column that does not pass. -/
theorem fault?_eq_some_iff {e : Error} :
    c.fault? registered = some e ↔ c.FirstFault registered e := by
  simp only [fault?, List.findSome?_eq_some_iff, List.findSome?_eq_none_iff,
    Option.map_eq_none_iff, Option.map_eq_some_iff, ColumnConfig.fault?_eq_none_iff,
    ColumnConfig.fault?_eq_some_iff]
  constructor
  · rintro ⟨before, t, after, htables, ⟨earlier, column, later, hcolumns, ⟨f, hf, he⟩, hearlier⟩,
      hbefore⟩
    exact ⟨before, t, after, earlier, column, later, f, htables, hcolumns, hbefore, hearlier, hf,
      he.symm⟩
  · rintro ⟨before, t, after, earlier, column, later, f, htables, hcolumns, hbefore, hearlier, hf,
      he⟩
    exact ⟨before, t, after, htables, ⟨earlier, column, later, hcolumns, ⟨f, hf, he.symm⟩, hearlier⟩,
      hbefore⟩

/-- A configuration passes, or some column of it is the first that does not. -/
theorem passes_or_firstFault (registered : String → Bool) (c : RuleConfig) :
    c.Passes registered ∨ ∃ e, c.FirstFault registered e := by
  cases h : c.fault? registered with
  | none => exact .inl (fault?_eq_none_iff.mp h)
  | some e => exact .inr ⟨e, fault?_eq_some_iff.mp h⟩

theorem FirstFault.exists_violates {e : Error} (h : c.FirstFault registered e) :
    ∃ t ∈ c.tables, ∃ y ∈ t.columns, ∃ f, y.Violates registered f := by
  obtain ⟨before, t, after, earlier, column, later, f, htables, hcolumns, -, -, hf, -⟩ := h
  exact ⟨t, by simp [htables], column, by simp [hcolumns], f, hf.1⟩

theorem FirstFault.exists_invalidConfiguration {e : Error} (h : c.FirstFault registered e) :
    ∃ table column f, e = .invalidConfiguration table column f := by
  obtain ⟨before, t, after, earlier, column, later, f, -, -, -, -, -, rfl⟩ := h
  exact ⟨_, _, _, rfl⟩

end RuleConfig

namespace Rule

variable {σ : Type} {id : Nat} {c : RuleConfig} {entries : List (String × AlgorithmConfig)}

theorem ofConfigIn_of_firstFault [NonceSource σ] {e : Error}
    (h : c.FirstFault c.encryptors.contains e) :
    (ofConfigIn id c entries : Except Error (Rule σ)) = .error e := by
  simp only [ofConfigIn, RuleConfig.refusal?_eq_fault?, RuleConfig.fault?_eq_some_iff.mpr h]

/-- Once the check is passed, only building the encryptors can fail. -/
theorem ofConfigIn_of_passes [NonceSource σ] (h : c.Passes c.encryptors.contains) :
    (ofConfigIn id c entries : Except Error (Rule σ)) =
      (Registry.ofEntries id entries).map (build c) := by
  simp only [ofConfigIn, RuleConfig.refusal?_eq_fault?, RuleConfig.fault?_eq_none_iff.mpr h]

theorem withRegistry_of_firstFault {g : Registry σ} {e : Error} (h : c.FirstFault g.contains e) :
    withRegistry c g = .error e := by
  simp only [withRegistry, RuleConfig.refusal?_eq_fault?, RuleConfig.fault?_eq_some_iff.mpr h]

theorem withRegistry_of_passes {g : Registry σ} (h : c.Passes g.contains) :
    withRegistry c g = .ok (build c g) := by
  simp only [withRegistry, RuleConfig.refusal?_eq_fault?, RuleConfig.fault?_eq_none_iff.mpr h]

/-- Over given encryptors nothing but the check refuses a configuration. -/
theorem withRegistry_eq_error_iff {g : Registry σ} {e : Error} :
    withRegistry c g = .error e ↔ c.FirstFault g.contains e := by
  refine ⟨fun h => ?_, withRegistry_of_firstFault⟩
  rcases RuleConfig.passes_or_firstFault g.contains c with hpass | ⟨e', he'⟩
  · simp [withRegistry_of_passes hpass] at h
  · rw [withRegistry_of_firstFault he'] at h
    exact Except.error.inj h ▸ he'

/-- An error that names a column comes from the check, and not from the encryptors. -/
theorem ofConfigIn_eq_invalidConfiguration_iff [NonceSource σ] {table column : String}
    {f : ColumnFault} :
    (ofConfigIn id c entries : Except Error (Rule σ)) =
        .error (.invalidConfiguration table column f) ↔
      c.FirstFault c.encryptors.contains (.invalidConfiguration table column f) := by
  refine ⟨fun h => ?_, ofConfigIn_of_firstFault⟩
  rcases RuleConfig.passes_or_firstFault c.encryptors.contains c with hpass | ⟨e', he'⟩
  · rw [ofConfigIn_of_passes hpass] at h
    obtain ⟨entry, -, herror⟩ := Registry.ofEntries_error (Except.map_eq_error_iff.mp h)
    exact (Algorithm.ofConfig_error herror).elim
  · rw [ofConfigIn_of_firstFault he'] at h
    exact Except.error.inj h ▸ he'

/-- The names of built encryptors are those that the check looked up, in whatever order the
encryptors were built. -/
theorem contains_ofEntries_perm [NonceSource σ] (hentries : entries.Perm c.encryptors.entries)
    {g : Registry σ} (h : Registry.ofEntries id entries = .ok g) :
    g.contains = c.encryptors.contains := by
  funext name
  rw [Bool.eq_iff_iff, Registry.contains_ofEntries h, Dict.contains_iff]
  exact (hentries.map Prod.fst).mem_iff

/-- A configuration with its own encryptors is accepted or refused just as over the registry of
these encryptors. -/
theorem ofConfigIn_eq_withRegistry [NonceSource σ] (hentries : entries.Perm c.encryptors.entries)
    {g : Registry σ} (h : Registry.ofEntries id entries = .ok g) :
    ofConfigIn id c entries = withRegistry c g := by
  have hnames := contains_ofEntries_perm hentries h
  rcases RuleConfig.passes_or_firstFault c.encryptors.contains c with hpass | ⟨e, he⟩
  · rw [ofConfigIn_of_passes hpass, h, withRegistry_of_passes (hnames ▸ hpass)]
    rfl
  · rw [ofConfigIn_of_firstFault he, withRegistry_of_firstFault (hnames ▸ he)]

/-- The construction of rules is decided by the check and then by the encryptors. With its own
encryptors, built in any order, a configuration is refused by the check exactly if something is
wrong with some column, and then with the error of the first such column; if nothing is wrong it
fails exactly if one of its encryptors cannot be built, with the error of one of them. Over given
encryptors only the check refuses it. Both agree when the given encryptors are its own. -/
theorem construction_is_decided [NonceSource σ] (id : Nat) (c : RuleConfig)
    {entries : List (String × AlgorithmConfig)} (hentries : entries.Perm c.encryptors.entries)
    (g : Registry σ) :
    ((∃ table column f, (ofConfigIn id c entries : Except Error (Rule σ)) =
        .error (.invalidConfiguration table column f)) ↔
      ∃ t ∈ c.tables, ∃ y ∈ t.columns, ∃ f, y.Violates c.encryptors.contains f) ∧
    (∀ table column f, (ofConfigIn id c entries : Except Error (Rule σ)) =
        .error (.invalidConfiguration table column f) ↔
      c.FirstFault c.encryptors.contains (.invalidConfiguration table column f)) ∧
    (c.Passes c.encryptors.contains →
      ((∃ e, (ofConfigIn id c entries : Except Error (Rule σ)) = .error e) ↔
        ∃ entry ∈ c.encryptors.entries, ∃ e, Algorithm.ofConfig entry.2 = .error e) ∧
      (∀ e, (ofConfigIn id c entries : Except Error (Rule σ)) = .error e →
        ∃ entry ∈ c.encryptors.entries, Algorithm.ofConfig entry.2 = .error e) ∧
      ((∀ entry ∈ c.encryptors.entries, ∃ a, Algorithm.ofConfig entry.2 = .ok a) →
        ∃ r : Rule σ, ofConfigIn id c entries = .ok r)) ∧
    (∀ e, withRegistry c g = .error e ↔ c.FirstFault g.contains e) ∧
    (c.Passes g.contains → withRegistry c g = .ok (build c g)) ∧
    (∀ own : Registry σ, Registry.ofEntries id entries = .ok own →
      ofConfigIn id c entries = withRegistry c own) := by
  refine ⟨⟨?_, ?_⟩, fun _ _ _ => ofConfigIn_eq_invalidConfiguration_iff, ?_,
    fun _ => withRegistry_eq_error_iff, withRegistry_of_passes,
    fun _ => ofConfigIn_eq_withRegistry hentries⟩
  · rintro ⟨table, column, f, h⟩
    exact (ofConfigIn_eq_invalidConfiguration_iff.mp h).exists_violates
  · rintro ⟨t, ht, y, hy, f, hf⟩
    rcases RuleConfig.passes_or_firstFault c.encryptors.contains c with hpass | ⟨e, he⟩
    · exact absurd hf (hpass t ht y hy f)
    · obtain ⟨table, column, f', rfl⟩ := he.exists_invalidConfiguration
      exact ⟨table, column, f', ofConfigIn_of_firstFault he⟩
  · intro hpass
    rw [ofConfigIn_of_passes hpass]
    simp only [Except.map_eq_error_iff, Except.map_eq_ok_iff]
    have rejected : ∀ e, (Registry.ofEntries id entries : Except Error (Registry σ)) = .error e →
        ∃ entry ∈ c.encryptors.entries, Algorithm.ofConfig entry.2 = .error e := by
      intro e h
      obtain ⟨entry, hmem, herror⟩ := Registry.ofEntries_error h
      exact ⟨entry, hentries.mem_iff.mp hmem, herror⟩
    have built : (∀ entry ∈ c.encryptors.entries, ∃ a, Algorithm.ofConfig entry.2 = .ok a) ↔
        ∃ r : Registry σ, Registry.ofEntries id entries = .ok r := by
      rw [Registry.exists_ofEntries_iff]
      simp only [hentries.mem_iff]
    refine ⟨⟨?_, ?_⟩, rejected, ?_⟩
    · rintro ⟨e, h⟩
      obtain ⟨entry, hmem, herror⟩ := rejected e h
      exact ⟨entry, hmem, e, herror⟩
    · rintro ⟨entry, hmem, e, herror⟩
      cases h : (Registry.ofEntries id entries : Except Error (Registry σ)) with
      | error e' => exact ⟨e', rfl⟩
      | ok r =>
        obtain ⟨a, ha⟩ := built.mpr ⟨r, h⟩ entry hmem
        simp [herror] at ha
    · intro hall
      obtain ⟨r, h⟩ := built.mp hall
      exact ⟨build c r, r, h, rfl⟩

/-- A fault of a table that a later one replaces is reported under its configured names, although
neither encryptor can be built. -/
theorem construction_is_decided_replaced_table :
    let c : RuleConfig := {
      tables := [
        ⟨"Orders", [⟨"Email", "email_cipher", some "", none, "aes", some "index", none⟩], none⟩,
        ⟨"ORDERS", [⟨"email", "email_cipher", none, none, "aes", none, none⟩], none⟩]
      encryptors := .ofList [("aes", ⟨"none", .empty⟩), ("index", ⟨"none", .empty⟩)]
      queryWithCipherColumn := true }
    (ofConfigIn 0 c c.encryptors.entries.reverse : Except Error (Rule NonceStream)) =
      .error (.invalidConfiguration "Orders" "Email" .assistedColumnRequired) := by
  intro c
  have hfirst : c.FirstFault c.encryptors.contains
      (.invalidConfiguration "Orders" "Email" .assistedColumnRequired) :=
    RuleConfig.fault?_eq_some_iff.mp (by decide +kernel)
  obtain ⟨-, hrefused, -⟩ := construction_is_decided 0 c (List.reverse_perm _)
    (Registry.empty : Registry NonceStream)
  exact (hrefused _ _ _).mpr hfirst

end Rule

end ColumnCipher
