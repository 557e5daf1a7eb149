import ColumnCipher.Rule.Batch
import Mathlib.Data.List.ReduceOption
/-!
The calls of a batch. Whatever an encryptor does to its state, a batch calls it on the values that
are not NULL, one after the other and at one place, up to the first call that fails. To see the
calls themselves and not only what they leave, encryptors are made to keep a record of them.
-/
namespace ColumnCipher

variable {σ : Type}

/-- Calls of an operation: each takes the next value, in the state that the call before it left. -/
inductive Calls (op : Value → σ → Except Error Value × σ) :
    σ → List Value → List (Except Error Value) → σ → Prop where
  | nil (s : σ) : Calls op s [] [] s
  | cons {v : Value} {vs : List Value} {result : Except Error Value}
      {results : List (Except Error Value)} {s next s' : σ} :
      op v s = (result, next) → Calls op next vs results s' →
      Calls op s (v :: vs) (result :: results) s'

/-- A batch whose values that are not NULL are replaced, in order, by given ones. -/
structure Fills (vs : List (Option Value)) (ws : List Value) (out : List (Option Value)) : Prop where
  length : out.length = vs.length
  null : ∀ i : Nat, out[i]? = some none ↔ vs[i]? = some none
  value : ∀ (i : Nat) (v : Value), vs[i]? = some (some v) →
    ∃ w, ws[(vs.take i).reduceOption.length]? = some w ∧ out[i]? = some (some w)

namespace Fills

variable {vs out : List (Option Value)} {ws : List Value}

theorem nil : Fills [] [] [] := ⟨rfl, fun _ => Iff.rfl, fun _ _ h => by simp at h⟩

theorem consNull (h : Fills vs ws out) : Fills (none :: vs) ws (none :: out) where
  length := by simp [h.length]
  null := by
    intro i
    cases i with
    | zero => simp
    | succ i => simpa using h.null i
  value := by
    intro i v hv
    cases i with
    | zero => simp at hv
    | succ i => simpa using h.value i v (by simpa using hv)

theorem consValue (h : Fills vs ws out) (v w : Value) :
    Fills (some v :: vs) (w :: ws) (some w :: out) where
  length := by simp [h.length]
  null := by
    intro i
    cases i with
    | zero => simp
    | succ i => simpa using h.null i
  value := by
    intro i x hx
    cases i with
    | zero => exact ⟨w, rfl, rfl⟩
    | succ i => simpa using h.value i x (by simpa using hx)

end Fills

/-! Encryptors that keep a record -/

inductive Direction where
  | encrypt
  | decrypt
  deriving DecidableEq, Repr

def Direction.of : Direction → Encryptor σ → Transformation σ
  | encrypt, x => x.encrypt
  | decrypt, x => x.decrypt

structure Invocation where
  target : Nat
  direction : Direction
  value : Value
  context : Context
  deriving DecidableEq

def Encryptor.recorded (x : Encryptor σ) : Encryptor (σ × List Invocation) where
  id := x.id
  algorithm := x.algorithm
  encrypt := fun v context s =>
    let (result, next) := x.encrypt v context s.1
    (result, next, s.2 ++ [⟨x.id, .encrypt, v, context⟩])
  decrypt := fun v context s =>
    let (result, next) := x.decrypt v context s.1
    (result, next, s.2 ++ [⟨x.id, .decrypt, v, context⟩])
  schemaAware := x.schemaAware

theorem Direction.of_recorded (direction : Direction) (x : Encryptor σ) (v : Value)
    (context : Context) (s : σ) (log : List Invocation) :
    direction.of x.recorded v context (s, log) =
      ((direction.of x v context s).1, (direction.of x v context s).2,
        log ++ [⟨x.id, direction, v, context⟩]) := by
  cases direction <;> rfl

namespace Rule

def recorded (r : Rule σ) : Rule (σ × List Invocation) where
  registry := ⟨r.registry.encryptors.map Encryptor.recorded⟩
  tables := r.tables
  queryWithCipherColumn := r.queryWithCipherColumn

theorem findEncryptor?_recorded (r : Rule σ) (table column : String) :
    r.recorded.findEncryptor? table column =
      (r.findEncryptor? table column).map Encryptor.recorded := by
  simp only [findEncryptor?, findTable?, recorded, Option.map_bind]
  congr 1
  funext name
  exact Dict.find?_map ..

theorem findAssistedQueryEncryptor?_recorded (r : Rule σ) (table column : String) :
    r.recorded.findAssistedQueryEncryptor? table column =
      (r.findAssistedQueryEncryptor? table column).map Encryptor.recorded := by
  simp only [findAssistedQueryEncryptor?, findTable?, recorded, Option.map_bind]
  congr 1
  funext name
  exact Dict.find?_map ..

/-! The law of batches -/

/-- What an operation does to a batch: it is called on the values that are not NULL, in order, up to
the first call that fails, and a record of the calls shows these and no others. If no call fails,
the results take the places of the values; else the batch fails with the error of the last call. -/
structure FollowsCalls {ι : Type} (op : Value → σ → Except Error Value × σ) (note : Value → ι)
    (batch : List (Option Value) → σ → Except Error (List (Option Value)) × σ)
    (recorded : List (Option Value) → σ × List ι →
      Except Error (List (Option Value)) × σ × List ι) (vs : List (Option Value)) (s : σ)
    (called rest : List Value) (results : List (Except Error Value)) (s' : σ) : Prop where
  values : vs.reduceOption = called ++ rest
  calls : Calls op s called results s'
  record : ∀ log, recorded vs (s, log) = ((batch vs s).1, s', log ++ called.map note)
  outcome :
    (rest = [] ∧ ∃ (ws : List Value) (out : List (Option Value)),
      results = ws.map .ok ∧ batch vs s = (.ok out, s') ∧ Fills vs ws out) ∨
    (∃ (ws : List Value) (e : Error),
      results = ws.map .ok ++ [.error e] ∧ batch vs s = (.error e, s'))

namespace FollowsCalls

variable {ι : Type} {op : Value → σ → Except Error Value × σ}
  {noted : Value → σ × List ι → Except Error Value × σ × List ι} {note : Value → ι}
  {vs : List (Option Value)} {v w : Value} {e : Error} {s next s' : σ} {called rest : List Value}
  {results : List (Except Error Value)}

theorem nil (s : σ) : FollowsCalls op note (mapPresent op) (mapPresent noted) [] s [] [] [] s where
  values := rfl
  calls := .nil s
  record := by simp
  outcome := .inl ⟨rfl, [], [], rfl, rfl, .nil⟩

/-- A NULL is passed over. -/
theorem consNull
    (h : FollowsCalls op note (mapPresent op) (mapPresent noted) vs s called rest results s') :
    FollowsCalls op note (mapPresent op) (mapPresent noted) (none :: vs) s called rest results
      s' where
  values := by simpa using h.values
  calls := h.calls
  record := by
    intro log
    simp only [mapPresent, h.record]
  outcome := by
    rcases h.outcome with ⟨hrest, ws, out, hws, hbatch, hfills⟩ | ⟨ws, e, hws, hbatch⟩
    · refine .inl ⟨hrest, ws, none :: out, hws, ?_, hfills.consNull⟩
      simp only [mapPresent, hbatch]
      rfl
    · refine .inr ⟨ws, e, hws, ?_⟩
      simp only [mapPresent, hbatch]
      rfl

variable (hnoted : ∀ v s log, noted v (s, log) = ((op v s).1, (op v s).2, log ++ [note v]))
include hnoted

/-- A call that fails is the last one. -/
theorem consRefused (hcall : op v s = (.error e, next)) :
    FollowsCalls op note (mapPresent op) (mapPresent noted) (some v :: vs) s [v] vs.reduceOption
      [.error e] next where
  values := by simp
  calls := .cons hcall (.nil next)
  record := by
    intro log
    simp only [mapPresent, hnoted, hcall]
    rfl
  outcome := by
    refine .inr ⟨[], e, rfl, ?_⟩
    simp only [mapPresent, hcall]

/-- A call that gives a value comes before the calls for the rest of the batch. -/
theorem consValue (hcall : op v s = (.ok w, next))
    (h : FollowsCalls op note (mapPresent op) (mapPresent noted) vs next called rest results s') :
    FollowsCalls op note (mapPresent op) (mapPresent noted) (some v :: vs) s (v :: called) rest
      (.ok w :: results) s' where
  values := by simp [h.values]
  calls := .cons hcall h.calls
  record := by
    intro log
    simp only [mapPresent, hnoted, hcall, h.record, List.append_assoc]
    rfl
  outcome := by
    rcases h.outcome with ⟨hrest, ws, out, hws, hbatch, hfills⟩ | ⟨ws, e, hws, hbatch⟩
    · refine .inl ⟨hrest, w :: ws, some w :: out, by rw [hws]; rfl, ?_, hfills.consValue v w⟩
      simp only [mapPresent, hcall, hbatch]
      rfl
    · refine .inr ⟨w :: ws, e, by rw [hws]; rfl, ?_⟩
      simp only [mapPresent, hcall, hbatch]
      rfl

/-- A function on values that are not NULL is called as the law says, and so is any other that does
the same and takes a note of each value. -/
theorem of_mapPresent (vs : List (Option Value)) (s : σ) :
    ∃ called rest results s',
      FollowsCalls op note (mapPresent op) (mapPresent noted) vs s called rest results s' := by
  induction vs generalizing s with
  | nil => exact ⟨[], [], [], s, .nil s⟩
  | cons x vs ih =>
    cases x with
    | none =>
      obtain ⟨called, rest, results, s', h⟩ := ih s
      exact ⟨called, rest, results, s', h.consNull⟩
    | some v =>
      rcases hcall : op v s with ⟨e | w, next⟩
      · exact ⟨_, _, _, next, .consRefused hnoted hcall⟩
      · obtain ⟨called, rest, results, s', h⟩ := ih next
        exact ⟨_, rest, _, s', .consValue hnoted hcall h⟩

end FollowsCalls

structure BatchLaw (found : Option (Encryptor σ)) (missing : Error) (direction : Direction)
    (context : Context) (batch : List (Option Value) → σ → Except Error (List (Option Value)) × σ)
    (recorded : List (Option Value) → σ × List Invocation →
      Except Error (List (Option Value)) × σ × List Invocation) : Prop where
  absent : found = none → ∀ vs s log,
    batch vs s = (.error missing, s) ∧ recorded vs (s, log) = (.error missing, s, log)
  present : ∀ x, found = some x → ∀ vs s, ∃ called rest results s',
    FollowsCalls (direction.of x · context) (⟨x.id, direction, ·, context⟩) batch recorded vs s
      called rest results s'

theorem runBatch_law (found : Option (Encryptor σ)) (missing : Error) (direction : Direction)
    (context : Context) :
    BatchLaw found missing direction context (runBatch found missing direction.of context)
      (runBatch (found.map Encryptor.recorded) missing direction.of context) where
  absent := by
    rintro rfl vs s log
    exact ⟨rfl, rfl⟩
  present := by
    rintro x rfl vs s
    apply FollowsCalls.of_mapPresent
    intro v s log
    exact direction.of_recorded x v context s log

/-- The law of the three batch operations, for encryptors that may do anything to their state. The
encryptor of the column is called on the values that are not NULL and on nothing else, once each and
in order, always with the lower-case names of table and column; the results take the places of the
values, and the first call that fails is the last one and its error is that of the batch. If there
is no encryptor nothing is called. -/
theorem batches_follow_calls (r : Rule σ) (database schema table column : String) :
    BatchLaw (r.findEncryptor? table column) (.encryptorNotFound table column) .encrypt
      ⟨database, schema, Case.lower table, Case.lower column⟩
      (r.encryptValues database schema table column)
      (r.recorded.encryptValues database schema table column) ∧
    BatchLaw (r.findAssistedQueryEncryptor? table column)
      (.assistedQueryEncryptorNotFound table column) .encrypt
      ⟨database, schema, Case.lower table, Case.lower column⟩
      (r.encryptAssistedQueryValues database schema table column)
      (r.recorded.encryptAssistedQueryValues database schema table column) ∧
    BatchLaw (r.findEncryptor? table column) (.encryptorNotFound table column) .decrypt
      ⟨database, schema, Case.lower table, Case.lower column⟩
      (r.decryptValues database schema table column)
      (r.recorded.decryptValues database schema table column) := by
  refine ⟨?_, ?_, ?_⟩
  · have h := runBatch_law (r.findEncryptor? table column) (.encryptorNotFound table column) .encrypt
      (place database schema table column)
    rw [← findEncryptor?_recorded] at h
    exact h
  · have h := runBatch_law (r.findAssistedQueryEncryptor? table column)
      (.assistedQueryEncryptorNotFound table column) .encrypt (place database schema table column)
    rw [← findAssistedQueryEncryptor?_recorded] at h
    exact h
  · have h := runBatch_law (r.findEncryptor? table column) (.encryptorNotFound table column) .decrypt
      (place database schema table column)
    rw [← findEncryptor?_recorded] at h
    exact h

/-- Of three values and a NULL the second value is refused: the third is not passed on. -/
theorem batches_follow_calls_refused :
    let x : Encryptor Nat := {
      id := 1
      algorithm := "COUNTING"
      encrypt := fun v _ n =>
        if v = .text "stop" then (.error (.encryption (.other "stop")), n + 1) else (.ok v, n + 1)
      decrypt := fun v _ n => (.ok v, n + 1)
      schemaAware := false }
    let r : Rule Nat :=
      build ⟨[⟨"Orders", [⟨"Email", "email_cipher", none, none, "count", none, none⟩], none⟩],
        .empty, true⟩ (Registry.empty.insert "count" x)
    let context : Context := ⟨"shop", "public", "orders", "email"⟩
    ∃ results, FollowsCalls (x.encrypt · context) (⟨1, Direction.encrypt, ·, context⟩)
      (r.encryptValues "shop" "public" "ORDERS" "email")
      (r.recorded.encryptValues "shop" "public" "ORDERS" "email")
      [some (.text "a"), none, some (.text "stop"), some (.text "b")] 0
      [.text "a", .text "stop"] [.text "b"] results 2 := by
  intro x r context
  have hcolumn : r.findColumn? "ORDERS" "email" =
      some ⟨"Email", "email_cipher", "count", none, none, none, none⟩ := by decide +kernel
  have hfound : r.findEncryptor? "ORDERS" "email" = some x := by
    rw [findEncryptor?_eq, hcolumn]
    exact Dict.find?_insert_self ..
  have hrecord : (r.recorded.encryptValues "shop" "public" "ORDERS" "email"
      [some (.text "a"), none, some (.text "stop"), some (.text "b")] (0, [])).2 =
        (2, [⟨1, .encrypt, .text "a", context⟩, ⟨1, .encrypt, .text "stop", context⟩]) := by
    decide +kernel
  have hplace : (⟨"shop", "public", Case.lower "ORDERS", Case.lower "email"⟩ : Context) = context := by
    decide +kernel
  obtain ⟨called, rest, results, s', law⟩ :=
    (batches_follow_calls r "shop" "public" "ORDERS" "email").1.present x hfound
      [some (.text "a"), none, some (.text "stop"), some (.text "b")] 0
  rw [hplace] at law
  rw [law.record []] at hrecord
  obtain ⟨rfl, hcalled⟩ := Prod.mk.inj hrecord
  obtain rfl : called = [.text "a", .text "stop"] := by
    have hvalues := congrArg (List.map Invocation.value) hcalled
    simpa [Function.comp_def] using hvalues
  obtain rfl : rest = [.text "b"] := by simpa using law.values.symm
  exact ⟨results, law⟩

end Rule
end ColumnCipher
