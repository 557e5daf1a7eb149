import ColumnCipher.Proofs.Folding
import ColumnCipher.Proofs.Resolution
/-!
The spelling of identifiers. Rules that were built from two configurations with one folded form keep
the same folded tables, and every answer of a rule is read off these. So letter case shows in no
answer but in the names that a failure echoes.
-/
namespace ColumnCipher

def Encryptor.unnumbered {σ : Type} (x : Encryptor σ) : Encryptor σ := { x with id := 0 }

/-- But for its number, an encryptor of a built registry is the one that the configuration of its
name describes. -/
theorem Registry.map_unnumbered_find? {σ : Type} [NonceSource σ] {id : Nat}
    {configs : Dict AlgorithmConfig} {entries : List (String × AlgorithmConfig)} {g : Registry σ}
    (hentries : entries.Perm configs.entries) (h : ofEntries id entries = .ok g) (name : String) :
    (g.find? name).map Encryptor.unnumbered =
      (configs.find? name).bind fun config =>
        (Algorithm.ofConfig config).toOption.map fun a => a.encryptor 0 := by
  cases hx : g.find? name with
  | some x =>
    obtain ⟨config, a, i, hmem, ha, rfl⟩ := find?_ofEntries h hx
    -- No other entry has this name, so the configuration that was built is the one that is found.
    have hconfig : configs.find? name = some config :=
      Dict.find?_eq_some_iff.mpr (hentries.mem_iff.mp hmem)
    rw [hconfig, Option.bind_some, ha]
    rfl
  | none =>
    cases hconfig : configs.find? name with
    | none => rfl
    | some config =>
      have hmem : name ∈ entries.map Prod.fst :=
        List.mem_map.mpr ⟨_, hentries.mem_iff.mpr (Dict.find?_eq_some_iff.mp hconfig), rfl⟩
      have hfound : (g.find? name).isSome := (contains_ofEntries h name).mpr hmem
      simp [hx] at hfound

namespace Rule

variable {σ : Type}

/-- Rules that differ in spellings and in the numbers of their encryptors only. -/
structure Alike (r r' : Rule σ) : Prop where
  tables : ∀ key, (r.tables.find? key).map Table.folded = (r'.tables.find? key).map Table.folded
  encryptors : ∀ name, (r.registry.find? name).map Encryptor.unnumbered =
    (r'.registry.find? name).map Encryptor.unnumbered
  queryWithCipherColumn : r.queryWithCipherColumn = r'.queryWithCipherColumn

/-- Of tables whose names differ in letter case only, the same one counts in either spelling. -/
theorem build_alike {c d : RuleConfig} (h : c.folded = d.folded) {g g' : Registry σ}
    (hg : ∀ name, (g.find? name).map Encryptor.unnumbered =
      (g'.find? name).map Encryptor.unnumbered) : (build c g).Alike (build d g') where
  tables := by
    intro key
    have hentry : ∀ t u : TableConfig, t.folded = u.folded →
        (Case.lower t.name, (Table.ofConfig t).folded) =
          (Case.lower u.name, (Table.ofConfig u).folded) := by
      intro t u htu
      rw [Table.ofConfig_folded htu, (TableConfig.mk.inj htu).1]
    have hentries := map_eq_map_of_map_eq hentry (RuleConfig.mk.inj h).1
    -- Both dictionaries are filled in the same order, so the same entry hides the others.
    simp only [build, Dict.find?_ofList, ← Dict.lookup_map, List.map_reverse, List.map_map]
    exact congrArg (fun l => l.reverse.lookup key) hentries
  encryptors := hg
  queryWithCipherColumn := (RuleConfig.mk.inj h).2.2

/-- The same outcome, or failures that echo the names that each was asked for. -/
inductive SameButNames {α : Type} (missing : String → String → Error)
    (table table' column column' : String) : Except Error α → Except Error α → Prop where
  | same (outcome : Except Error α) :
      SameButNames missing table table' column column' outcome outcome
  | missing : SameButNames missing table table' column column' (.error (missing table column))
      (.error (missing table' column'))

def SameBatch (missing : String → String → Error) (table table' column column' : String)
    (a b : Except Error (List (Option Value)) × σ) : Prop :=
  SameButNames missing table table' column column' a.1 b.1 ∧ a.2 = b.2

/-- Two rules give the same answers, each for its own names of a table and a column. Encryptors that
were built for different rules are the same but for their numbers; where the registry is shared they
are one instance. Batches start from one state, so they draw the same nonces. -/
structure SameAnswers (r r' : Rule σ) (table table' column column' : String) : Prop where
  encryptor : (r.findEncryptor? table column).map Encryptor.unnumbered =
    (r'.findEncryptor? table' column').map Encryptor.unnumbered
  assistedQueryEncryptor :
    (r.findAssistedQueryEncryptor? table column).map Encryptor.unnumbered =
      (r'.findAssistedQueryEncryptor? table' column').map Encryptor.unnumbered
  instances : r.registry = r'.registry →
    r.findEncryptor? table column = r'.findEncryptor? table' column' ∧
      r.findAssistedQueryEncryptor? table column = r'.findAssistedQueryEncryptor? table' column'
  cipherColumn : SameButNames .columnNotFound table table' column column'
    (r.cipherColumn table column) (r'.cipherColumn table' column')
  assistedQueryColumn : r.assistedQueryColumn? table column = r'.assistedQueryColumn? table' column'
  assistedQueryColumns : r.assistedQueryColumns table = r'.assistedQueryColumns table'
  plainColumn : r.plainColumn? table column = r'.plainColumn? table' column'
  isQueryWithCipherColumn :
    r.isQueryWithCipherColumn table column = r'.isQueryWithCipherColumn table' column'
  encryptValues : ∀ database schema vs s,
    SameBatch .encryptorNotFound table table' column column'
      (r.encryptValues database schema table column vs s)
      (r'.encryptValues database schema table' column' vs s)
  encryptAssistedQueryValues : ∀ database schema vs s,
    SameBatch .assistedQueryEncryptorNotFound table table' column column'
      (r.encryptAssistedQueryValues database schema table column vs s)
      (r'.encryptAssistedQueryValues database schema table' column' vs s)
  decryptValues : ∀ database schema vs s,
    SameBatch .encryptorNotFound table table' column column'
      (r.decryptValues database schema table column vs s)
      (r'.decryptValues database schema table' column' vs s)

/-- A batch depends on the encryptor but not on its number, and on the place but not on its
spelling. -/
theorem runBatch_sameBatch {found found' : Option (Encryptor σ)}
    (hfound : found.map Encryptor.unnumbered = found'.map Encryptor.unnumbered)
    {missing : String → String → Error} {direction : Encryptor σ → Transformation σ}
    (hdirection : ∀ x, direction x.unnumbered = direction x)
    {database schema table table' column column' : String}
    (htable : Case.lower table = Case.lower table')
    (hcolumn : Case.lower column = Case.lower column') (vs : List (Option Value)) (s : σ) :
    SameBatch missing table table' column column'
      (runBatch found (missing table column) direction (place database schema table column) vs s)
      (runBatch found' (missing table' column') direction (place database schema table' column')
        vs s) := by
  obtain ⟨rfl, rfl⟩ | ⟨x, x', rfl, rfl, hx⟩ := eq_none_or_eq_some_of_map_eq hfound
  · exact ⟨.missing, rfl⟩
  · have hcalls : direction x = direction x' := by rw [← hdirection x, hx, hdirection]
    have hplace : place database schema table column = place database schema table' column' := by
      rw [place, place, htable, hcolumn]
    simp only [runBatch, hcalls, hplace]
    exact ⟨.same _, rfl⟩

namespace Alike

variable {r r' : Rule σ} {table table' column column' : String}

theorem findTable? (h : r.Alike r') (htable : Case.lower table = Case.lower table') :
    (r.findTable? table).map Table.folded = (r'.findTable? table').map Table.folded := by
  rw [Rule.findTable?, Rule.findTable?, htable]
  exact h.tables _

/-- What is read off a table is the same if it is the same for equal folded forms. -/
theorem bind_findTable? {α : Type} (h : r.Alike r') (htable : Case.lower table = Case.lower table')
    {g k : Table → Option α} (hgk : ∀ t u, Table.folded t = Table.folded u → g t = k u) :
    (r.findTable? table).bind g = (r'.findTable? table').bind k :=
  bind_eq_bind_of_map_eq (h.findTable? htable) hgk

theorem bind_registry (h : r.Alike r') (name : Option String) :
    (name.bind r.registry.find?).map Encryptor.unnumbered =
      (name.bind r'.registry.find?).map Encryptor.unnumbered := by
  cases name with
  | none => rfl
  | some name => exact h.encryptors name

theorem assistedQueryColumns (h : r.Alike r') (htable : Case.lower table = Case.lower table') :
    r.assistedQueryColumns table = r'.assistedQueryColumns table' := by
  unfold Rule.assistedQueryColumns
  obtain ⟨ht, ht'⟩ | ⟨t, t', ht, ht', htt⟩ := eq_none_or_eq_some_of_map_eq (h.findTable? htable)
  · rw [ht, ht']
  · rw [ht, ht']
    exact Table.assistedQueryColumns_folded htt

section

variable (h : r.Alike r') (htable : Case.lower table = Case.lower table')
  (hcolumn : Case.lower column = Case.lower column')
include h htable hcolumn

theorem encryptorName? : ((r.findTable? table).bind fun t => t.encryptorName? column) =
    (r'.findTable? table').bind fun t => t.encryptorName? column' := by
  apply h.bind_findTable? htable
  intro t t' htt
  exact Table.encryptorName?_folded htt hcolumn

theorem assistedQueryEncryptorName? :
    ((r.findTable? table).bind fun t => t.assistedQueryEncryptorName? column) =
      (r'.findTable? table').bind fun t => t.assistedQueryEncryptorName? column' := by
  apply h.bind_findTable? htable
  intro t t' htt
  exact Table.bind_findColumn?_folded htt hcolumn fun _ => rfl

theorem findEncryptor? : (r.findEncryptor? table column).map Encryptor.unnumbered =
    (r'.findEncryptor? table' column').map Encryptor.unnumbered := by
  rw [Rule.findEncryptor?, Rule.findEncryptor?, h.encryptorName? htable hcolumn]
  exact h.bind_registry _

theorem findAssistedQueryEncryptor? :
    (r.findAssistedQueryEncryptor? table column).map Encryptor.unnumbered =
      (r'.findAssistedQueryEncryptor? table' column').map Encryptor.unnumbered := by
  rw [Rule.findAssistedQueryEncryptor?, Rule.findAssistedQueryEncryptor?,
    h.assistedQueryEncryptorName? htable hcolumn]
  exact h.bind_registry _

theorem findColumn? : (r.findColumn? table column).map Column.folded =
    (r'.findColumn? table' column').map Column.folded := by
  rw [Rule.findColumn?, Rule.findColumn?, Option.map_bind, Option.map_bind]
  apply h.bind_findTable? htable
  intro t t' htt
  exact Table.findColumn?_folded htt hcolumn

theorem cipherColumn : SameButNames .columnNotFound table table' column column'
    (r.cipherColumn table column) (r'.cipherColumn table' column') := by
  unfold Rule.cipherColumn
  obtain ⟨hx, hx'⟩ | ⟨x, x', hx, hx', hxx⟩ :=
    eq_none_or_eq_some_of_map_eq (h.findColumn? htable hcolumn)
  · rw [hx, hx']
    exact .missing
  · have hcipher : x.cipherColumn = x'.cipherColumn := (Column.mk.inj hxx).2.1
    simp only [hx, hx', hcipher]
    exact .same _

theorem isQueryWithCipherColumn :
    r.isQueryWithCipherColumn table column = r'.isQueryWithCipherColumn table' column' := by
  have hmode : ((r.findTable? table).bind fun t => t.queryMode? column) =
      (r'.findTable? table').bind fun t => t.queryMode? column' := by
    apply h.bind_findTable? htable
    intro t t' htt
    exact Table.queryMode?_folded htt hcolumn
  rw [Rule.isQueryWithCipherColumn, Rule.isQueryWithCipherColumn, hmode, h.queryWithCipherColumn]

theorem sameAnswers : r.SameAnswers r' table table' column column' where
  encryptor := h.findEncryptor? htable hcolumn
  assistedQueryEncryptor := h.findAssistedQueryEncryptor? htable hcolumn
  instances := by
    intro hshared
    rw [Rule.findEncryptor?, Rule.findEncryptor?, Rule.findAssistedQueryEncryptor?,
      Rule.findAssistedQueryEncryptor?, h.encryptorName? htable hcolumn,
      h.assistedQueryEncryptorName? htable hcolumn, hshared]
    exact ⟨rfl, rfl⟩
  cipherColumn := h.cipherColumn htable hcolumn
  assistedQueryColumn := by
    apply h.bind_findTable? htable
    intro t t' htt
    exact Table.bind_findColumn?_folded htt hcolumn fun _ => rfl
  assistedQueryColumns := h.assistedQueryColumns htable
  plainColumn := by
    apply h.bind_findTable? htable
    intro t t' htt
    exact Table.bind_configuredName?_folded htt hcolumn
  isQueryWithCipherColumn := h.isQueryWithCipherColumn htable hcolumn
  encryptValues := fun _ _ =>
    runBatch_sameBatch (h.findEncryptor? htable hcolumn) (fun _ => rfl) htable hcolumn
  encryptAssistedQueryValues := fun _ _ =>
    runBatch_sameBatch (h.findAssistedQueryEncryptor? htable hcolumn) (fun _ => rfl) htable hcolumn
  decryptValues := fun _ _ =>
    runBatch_sameBatch (h.findEncryptor? htable hcolumn) (fun _ => rfl) htable hcolumn

end

end Alike

/-- Rules of two configurations over the same encryptors: each has built those of its own
configuration, in any order and numbered from anywhere, or both have been given one registry. -/
inductive BuiltOver [NonceSource σ] (c d : RuleConfig) : Rule σ → Rule σ → Prop where
  | own {id id' : Nat} {entries entries' : List (String × AlgorithmConfig)} {r r' : Rule σ} :
      entries.Perm c.encryptors.entries → entries'.Perm d.encryptors.entries →
      ofConfigIn id c entries = .ok r → ofConfigIn id' d entries' = .ok r' → BuiltOver c d r r'
  | given {g : Registry σ} {r r' : Rule σ} :
      withRegistry c g = .ok r → withRegistry d g = .ok r' → BuiltOver c d r r'

theorem BuiltOver.alike [NonceSource σ] {c d : RuleConfig} (h : c.folded = d.folded)
    {r r' : Rule σ} (hbuilt : BuiltOver c d r r') : r.Alike r' := by
  cases hbuilt with
  | own hentries hentries' hr hr' =>
    obtain ⟨g, hg, -, rfl⟩ := ofConfigIn_eq_ok hr
    obtain ⟨g', hg', -, rfl⟩ := ofConfigIn_eq_ok hr'
    apply build_alike h
    intro name
    rw [Registry.map_unnumbered_find? hentries hg, Registry.map_unnumbered_find? hentries' hg',
      (RuleConfig.mk.inj h).2.1]
  | given hr hr' =>
    obtain ⟨-, rfl⟩ := withRegistry_eq_ok hr
    obtain ⟨-, rfl⟩ := withRegistry_eq_ok hr'
    exact build_alike h fun _ => rfl

/-- Over given encryptors a configuration is accepted exactly if it passes the check. -/
theorem exists_withRegistry_iff {c : RuleConfig} {g : Registry σ} :
    (∃ r, withRegistry c g = .ok r) ↔ c.Passes g.contains :=
  ⟨fun ⟨_, hr⟩ => (withRegistry_eq_ok hr).1, fun h => ⟨_, withRegistry_of_passes h⟩⟩

/-- With encryptors of its own a configuration is accepted exactly if it passes the check and all
its encryptors can be built. -/
theorem exists_ofConfigIn_iff [NonceSource σ] {id : Nat} {c : RuleConfig}
    {entries : List (String × AlgorithmConfig)} (hentries : entries.Perm c.encryptors.entries) :
    (∃ r : Rule σ, ofConfigIn id c entries = .ok r) ↔ c.Passes c.encryptors.contains ∧
      ∀ entry ∈ c.encryptors.entries, ∃ a, Algorithm.ofConfig entry.2 = .ok a := by
  have hbuilt : (∃ g : Registry σ, Registry.ofEntries id entries = .ok g) ↔
      ∀ entry ∈ c.encryptors.entries, ∃ a, Algorithm.ofConfig entry.2 = .ok a := by
    simp only [Registry.exists_ofEntries_iff, hentries.mem_iff]
  rw [← hbuilt]
  constructor
  · rintro ⟨r, hr⟩
    obtain ⟨g, hg, hpass, -⟩ := ofConfigIn_eq_ok hr
    exact ⟨hpass, g, hg⟩
  · rintro ⟨hpass, g, hg⟩
    exact ⟨build c g, by rw [ofConfigIn_of_passes hpass, hg]; rfl⟩

/-- The spelling of identifiers has no influence. Of two configurations that differ in the letter
case of table names and logical column names only, both are accepted or neither is; and rules that
are built from them over the same encryptors give the same answers, each for any spelling of a table
and a column. -/
theorem spelling_never_matters [NonceSource σ] {c d : RuleConfig} (h : c.folded = d.folded) :
    (∀ id id' entries entries', entries.Perm c.encryptors.entries →
      entries'.Perm d.encryptors.entries →
      ((∃ r : Rule σ, ofConfigIn id c entries = .ok r) ↔
        ∃ r : Rule σ, ofConfigIn id' d entries' = .ok r)) ∧
    (∀ g : Registry σ, (∃ r, withRegistry c g = .ok r) ↔ ∃ r, withRegistry d g = .ok r) ∧
    ∀ r r' : Rule σ, BuiltOver c d r r' → ∀ table table' column column',
      Case.lower table = Case.lower table' → Case.lower column = Case.lower column' →
      r.SameAnswers r' table table' column column' := by
  have hpasses : ∀ registered, c.Passes registered ↔ d.Passes registered := by
    intro registered
    rw [← RuleConfig.folded_passes, h, RuleConfig.folded_passes]
  refine ⟨?_, ?_, ?_⟩
  · intro id id' entries entries' hentries hentries'
    rw [exists_ofConfigIn_iff hentries, exists_ofConfigIn_iff hentries', hpasses,
      show c.encryptors = d.encryptors from (RuleConfig.mk.inj h).2.1]
  · intro g
    rw [exists_withRegistry_iff, exists_withRegistry_iff, hpasses]
  · intro r r' hbuilt table table' column column' htable hcolumn
    exact (hbuilt.alike h).sameAnswers htable hcolumn

/-- A table whose name ends in a sigma and a column whose name has a dotted capital, each defined
twice, give the same answers under all spellings. -/
theorem spelling_never_matters_sigma :
    let c : RuleConfig := {
      tables := [
        ⟨"Ας", [⟨"n", "c0", none, none, "aes", none, none⟩], none⟩,
        ⟨"ΑΣ", [⟨"İD", "c1", none, none, "aes", none, none⟩,
          ⟨"i\u0307d", "c2", some "a2", some "p2", "aes", some "aes", none⟩], none⟩]
      encryptors := .empty
      queryWithCipherColumn := true }
    let d : RuleConfig := {
      tables := [
        ⟨"ας", [⟨"N", "c0", none, none, "aes", none, none⟩], none⟩,
        ⟨"αΣ", [⟨"i\u0307D", "c1", none, none, "aes", none, none⟩,
          ⟨"İd", "c2", some "a2", some "p2", "aes", some "aes", none⟩], none⟩]
      encryptors := .empty
      queryWithCipherColumn := true }
    let aes := Algorithm.aesSiv (.replicate 64 0x42)
    c.folded = d.folded ∧ ∃ r r' : Rule NonceStream,
      withRegistry c (Registry.empty.insert "aes" (aes.encryptor 0)) = .ok r ∧
      withRegistry d (Registry.empty.insert "aes" (aes.encryptor 0)) = .ok r' ∧
      r.assistedQueryColumn? "Ας" "İD" = some "a2" ∧
      r.SameAnswers r' "Ας" "αΣ" "İD" "i\u0307d" := by
  intro c d aes
  have hfolded : c.folded = d.folded := by decide +kernel
  have hpass : c.Passes
      (Registry.empty.insert "aes" (aes.encryptor 0) : Registry NonceStream).contains :=
    RuleConfig.fault?_eq_none_iff.mp (by decide +kernel)
  have hr := withRegistry_of_passes hpass
  obtain ⟨-, haccepted, hanswers⟩ := spelling_never_matters (σ := NonceStream) hfolded
  obtain ⟨r', hr'⟩ := (haccepted _).mp ⟨_, hr⟩
  exact ⟨hfolded, _, r', hr, hr', by decide +kernel,
    hanswers _ r' (.given hr hr') _ _ _ _ (by decide +kernel) (by decide +kernel)⟩

end Rule

end ColumnCipher
