import ColumnCipher.Rule.Basic
/-!
Batches of values. The encryptor of the column is called on each value that is not NULL, in order
and at one place; the first call that fails ends the batch.
-/
namespace ColumnCipher

namespace Rule

variable {σ : Type}

def mapPresent (f : Value → σ → Except Error Value × σ) :
    List (Option Value) → σ → Except Error (List (Option Value)) × σ
  | [], s => (.ok [], s)
  | none :: rest, s =>
    let (result, s) := mapPresent f rest s
    (result.map (none :: ·), s)
  | some v :: rest, s =>
    match f v s with
    | (.error e, s) => (.error e, s)
    | (.ok w, s) =>
      let (result, s) := mapPresent f rest s
      (result.map (some w :: ·), s)

@[simp] theorem mapPresent_nil (f : Value → σ → Except Error Value × σ) (s : σ) :
    mapPresent f [] s = (.ok [], s) := rfl

theorem mapPresent_none_eq_ok_iff {f : Value → σ → Except Error Value × σ}
    {rest ws : List (Option Value)} {s s' : σ} :
    mapPresent f (none :: rest) s = (.ok ws, s') ↔
      ∃ others, mapPresent f rest s = (.ok others, s') ∧ ws = none :: others := by
  simp only [mapPresent]
  constructor
  · intro h
    obtain ⟨hresult, hstate⟩ := Prod.ext_iff.mp h
    obtain ⟨others, hothers, rfl⟩ := Except.map_eq_ok_iff.mp hresult
    exact ⟨others, Prod.ext hothers hstate, rfl⟩
  · rintro ⟨others, hrest, rfl⟩
    rw [hrest]
    rfl

/-- A batch succeeds at a value if the call succeeds and, in the state that it leaves, the rest
does. -/
theorem mapPresent_some_eq_ok_iff {f : Value → σ → Except Error Value × σ} {v : Value}
    {rest ws : List (Option Value)} {s s' : σ} :
    mapPresent f (some v :: rest) s = (.ok ws, s') ↔
      ∃ w next others, f v s = (.ok w, next) ∧ mapPresent f rest next = (.ok others, s') ∧
        ws = some w :: others := by
  rcases hcall : f v s with ⟨_ | w, next⟩
  · simp [mapPresent, hcall]
  · simp only [mapPresent, hcall]
    constructor
    · intro h
      obtain ⟨hresult, hstate⟩ := Prod.ext_iff.mp h
      obtain ⟨others, hothers, rfl⟩ := Except.map_eq_ok_iff.mp hresult
      exact ⟨w, next, others, rfl, Prod.ext hothers hstate, rfl⟩
    · rintro ⟨w', next', others, heq, hrest, rfl⟩
      cases heq
      rw [hrest]
      rfl

/-- A batch fails with the error of one of its calls. -/
theorem mapPresent_error {f : Value → σ → Except Error Value × σ} {vs : List (Option Value)}
    {s : σ} {e : Error} (h : (mapPresent f vs s).1 = .error e) :
    ∃ v next, (f v next).1 = .error e := by
  induction vs generalizing s with
  | nil => simp at h
  | cons x rest ih =>
    cases x with
    | none => exact ih (Except.map_eq_error_iff.mp h)
    | some v =>
      simp only [mapPresent] at h
      split at h
      · rename_i e' next hcall
        obtain rfl := Except.error.inj h
        exact ⟨v, s, by rw [hcall]⟩
      · exact ih (Except.map_eq_error_iff.mp h)

/-- The place that encryptors see: table and column in lower case. -/
def place (database schema table column : String) : Context :=
  ⟨database, schema, Case.lower table, Case.lower column⟩

/-- Calls one direction of an encryptor on a batch; if there is no encryptor nothing is called. -/
def runBatch (found : Option (Encryptor σ)) (missing : Error)
    (direction : Encryptor σ → Transformation σ) (context : Context)
    (values : List (Option Value)) (s : σ) : Except Error (List (Option Value)) × σ :=
  match found with
  | none => (.error missing, s)
  | some e => mapPresent (direction e · context) values s

def encryptValues (r : Rule σ) (database schema table column : String)
    (values : List (Option Value)) (s : σ) : Except Error (List (Option Value)) × σ :=
  runBatch (r.findEncryptor? table column) (.encryptorNotFound table column) Encryptor.encrypt
    (place database schema table column) values s

def encryptAssistedQueryValues (r : Rule σ) (database schema table column : String)
    (values : List (Option Value)) (s : σ) : Except Error (List (Option Value)) × σ :=
  runBatch (r.findAssistedQueryEncryptor? table column)
    (.assistedQueryEncryptorNotFound table column) Encryptor.encrypt
    (place database schema table column) values s

def decryptValues (r : Rule σ) (database schema table column : String)
    (values : List (Option Value)) (s : σ) : Except Error (List (Option Value)) × σ :=
  runBatch (r.findEncryptor? table column) (.encryptorNotFound table column) Encryptor.decrypt
    (place database schema table column) values s

end Rule

end ColumnCipher
