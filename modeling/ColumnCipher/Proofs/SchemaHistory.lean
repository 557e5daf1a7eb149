import ColumnCipher.Proofs.Generations
/-!
What encryptors hear about the database. An instance hears of it when something is said while it is
registered in the current rule, and when a rule in which it is registered is published later. So in
every state in which something was said, the instances of the current rule have heard it last.
-/
namespace ColumnCipher

def Delivery.heardBy (i : Nat) (l : List Delivery) : List SchemaEvent :=
  l.filterMap fun d => if d.target = i then some d.event else none

namespace SchemaEvent

/-- The name of a database and then its schemas, a number of times. -/
def pairs (n : Nat) (name : String) (s : Schemas) : List SchemaEvent :=
  (List.replicate n [database name, schemas s]).flatten

/-- The last thing that is heard is the whole of the last pair. -/
theorem exists_pairs_eq_append {n : Nat} (h : 0 < n) (name : String) (s : Schemas) :
    ∃ earlier, pairs n name s = earlier ++ [database name, schemas s] := by
  obtain ⟨m, rfl⟩ := Nat.exists_eq_succ_of_ne_zero (Nat.ne_of_gt h)
  exact ⟨pairs m name s, by simp [pairs, List.replicate_succ']⟩

end SchemaEvent

namespace Registry

variable {σ : Type}

/-- The number of names under which an instance is registered as one that is aware of schemas. -/
def awareNames (r : Registry σ) (i : Nat) : Nat :=
  r.encryptors.entries.countP fun (_, e) => e.schemaAware && e.id == i

/-- An instance hears one pair for each of its names, in whatever order the names are met. -/
theorem heardBy_deliveriesIn (walk : Dict.Walk (Encryptor σ)) (r : Registry σ) (name : String)
    (s : Schemas) (i : Nat) :
    Delivery.heardBy i (r.deliveriesIn walk name s) = SchemaEvent.pairs (r.awareNames i) name s := by
  rw [awareNames, ← (walk.perm r.encryptors).countP_eq, deliveriesIn]
  induction walk.entries r.encryptors with
  | nil => rfl
  | cons entry rest ih =>
    rw [List.flatMap_cons, Delivery.heardBy, List.filterMap_append, ← Delivery.heardBy,
      ← Delivery.heardBy, ih]
    by_cases haware : entry.2.schemaAware <;> by_cases hid : entry.2.id = i <;>
      simp [haware, hid, Delivery.heardBy, SchemaEvent.pairs, List.replicate_succ]

end Registry

namespace Publisher

variable {σ : Type} [NonceSource σ]

def heard (first : Rule σ) (i : Nat) (calls : List (Call σ)) : List SchemaEvent :=
  Delivery.heardBy i (run (start first) calls).deliveries

theorem heard_concat (first : Rule σ) (i : Nat) (calls : List (Call σ)) (c : Call σ) :
    heard first i (calls ++ [c]) = heard first i calls ++
      Delivery.heardBy i ((run (start first) calls).publisher.step c).2.1 := by
  rw [heard, run_concat, extend, Delivery.heardBy, List.filterMap_append]
  rfl

theorem heard_setSchema (first : Rule σ) (i : Nat) (before : List (Call σ))
    (walk : Dict.Walk (Encryptor σ)) (database : String) (schemas : Schemas) :
    heard first i (before ++ [.setSchema walk database schemas]) = heard first i before ++
      SchemaEvent.pairs ((ruleAfter first before).registry.awareNames i) database schemas := by
  rw [heard_concat, publisher_run, step, setSchemaIn, Rule.deliveriesIn,
    Registry.heardBy_deliveriesIn]

theorem heard_of_rule? (first : Rule σ) (i : Nat) (before : List (Call σ)) {c : Call σ}
    {rule : Rule σ} (h : c.rule? = some rule) :
    heard first i (before ++ [c]) = heard first i before ++
      match schemaAfter before with
      | some (database, schemas) => SchemaEvent.pairs (rule.registry.awareNames i) database schemas
      | none => [] := by
  rw [heard_concat]
  obtain ⟨walk, rule', hrule, -, hstep⟩ | ⟨walk, database, schemas, rfl, -⟩ | ⟨hrule, -⟩ :=
    step_cases (run (start first) before).publisher c
  · obtain rfl := Option.some.inj (h.symm.trans hrule)
    rw [hstep, publisher_run, publishIn]
    cases schemaAfter before with
    | none => rfl
    | some said => simp only [Rule.deliveriesIn, Registry.heardBy_deliveriesIn]
  · simp [Call.rule?] at h
  · simp [hrule] at h

theorem heard_of_silent (first : Rule σ) (i : Nat) (before : List (Call σ)) {c : Call σ}
    (hrule : c.rule? = none) (hschema : c.schema? = none) :
    heard first i (before ++ [c]) = heard first i before := by
  rw [heard_concat]
  obtain ⟨walk, rule, h, -⟩ | ⟨walk, database, schemas, rfl, -⟩ | ⟨-, -, answer, hstep⟩ :=
    step_cases (run (start first) before).publisher c
  · simp [hrule] at h
  · simp [Call.schema?] at hschema
  · rw [hstep]
    simp [Delivery.heardBy]

/-- An instance of the current rule has heard last what was said last. -/
theorem exists_heard_eq_append (first : Rule σ) (i : Nat) {calls : List (Call σ)}
    {database : String} {schemas : Schemas} (hsaid : schemaAfter calls = some (database, schemas))
    (hrule : 0 < (ruleAfter first calls).registry.awareNames i) :
    ∃ earlier, heard first i calls = earlier ++ [.database database, .schemas schemas] := by
  induction calls using List.reverseRecOn with
  | nil => simp [schemaAfter] at hsaid
  | append_singleton calls c ih =>
    rw [schemaAfter_concat] at hsaid
    rw [ruleAfter_concat] at hrule
    -- Only the third kind of call needs the induction: the others end in the pair that is asked for.
    obtain ⟨walk, rule, hc, hschema, -⟩ | ⟨walk, name, s, rfl, -⟩ | ⟨hc, hschema, -⟩ :=
      step_cases (run (start first) calls).publisher c
    · rw [hschema, Option.none_or] at hsaid
      rw [hc, Option.getD_some] at hrule
      obtain ⟨earlier, hpairs⟩ := SchemaEvent.exists_pairs_eq_append hrule database schemas
      exact ⟨heard first i calls ++ earlier, by
        simp only [heard_of_rule? first i calls hc, hsaid, hpairs, List.append_assoc]⟩
    · obtain ⟨rfl, rfl⟩ : name = database ∧ s = schemas := by
        simpa [Call.schema?] using hsaid
      change 0 < (ruleAfter first calls).registry.awareNames i at hrule
      obtain ⟨earlier, hpairs⟩ := SchemaEvent.exists_pairs_eq_append hrule name s
      exact ⟨heard first i calls ++ earlier, by
        rw [heard_setSchema, hpairs, List.append_assoc]⟩
    · rw [hschema, Option.none_or] at hsaid
      rw [hc, Option.getD_none] at hrule
      rw [heard_of_silent first i calls hc hschema]
      exact ih hsaid hrule

/-- No instance misses what is said about the database, and none hears it twice. Whenever something
is said an instance hears it once for each of its names in the current rule; whenever a rule is
published after something was said an instance hears the last of it once for each of its names in
that rule; and it hears nothing else, a rejected configuration included. So in every state in which
something was said, the instances of the current rule have heard last what was said last. -/
theorem schema_reaches_every_generation (first : Rule σ) (i : Nat) :
    heard first i [] = [] ∧
    (∀ before walk database schemas,
      heard first i (before ++ [.setSchema walk database schemas]) = heard first i before ++
        SchemaEvent.pairs ((ruleAfter first before).registry.awareNames i) database schemas) ∧
    (∀ before (c : Call σ) rule, c.rule? = some rule →
      heard first i (before ++ [c]) = heard first i before ++
        match schemaAfter before with
        | some (database, schemas) =>
          SchemaEvent.pairs (rule.registry.awareNames i) database schemas
        | none => []) ∧
    (∀ before (c : Call σ), c.rule? = none → c.schema? = none →
      heard first i (before ++ [c]) = heard first i before) ∧
    (∀ calls database schemas, schemaAfter calls = some (database, schemas) →
      0 < (ruleAfter first calls).registry.awareNames i →
      ∃ earlier, heard first i calls = earlier ++ [.database database, .schemas schemas]) := by
  refine ⟨rfl, ?_, ?_, ?_, ?_⟩
  · intro before walk database schemas
    exact heard_setSchema first i before walk database schemas
  · intro before c rule hrule
    exact heard_of_rule? first i before hrule
  · intro before c hrule hschema
    exact heard_of_silent first i before hrule hschema
  · intro calls database schemas hsaid hrule
    exact exists_heard_eq_append first i hsaid hrule

def listener (i : Nat) : Encryptor σ where
  id := i
  algorithm := "LISTENER"
  encrypt := fun v _ s => (.ok v, s)
  decrypt := fun v _ s => (.ok v, s)
  schemaAware := true

/-- An instance with two names in the second rule hears twice, when that rule is published, what was
said before. -/
theorem schema_reaches_every_generation_two_names :
    let first : Rule NonceStream := .build .default .empty
    let second : Rule NonceStream :=
      .build .default ((Registry.empty.insert "a" (listener 3)).insert "b" (listener 3))
    let calls : List (Call NonceStream) :=
      [.setSchema .byKey "shop" .empty, .publish .byKey second]
    heard first 3 calls = [.database "shop", .schemas .empty, .database "shop", .schemas .empty] := by
  intro first second calls
  obtain ⟨hnil, hsaid, hpublished, -⟩ := schema_reaches_every_generation first 3
  have hsecond : second.registry.awareNames 3 = 2 := by decide +kernel
  have hbefore : heard first 3 [.setSchema .byKey "shop" .empty] = [] := by
    have h := hsaid [] .byKey "shop" .empty
    rw [hnil] at h
    exact h
  have h := hpublished [.setSchema .byKey "shop" .empty] (.publish .byKey second) second rfl
  rw [hbefore] at h
  change heard first 3 calls =
    [] ++ SchemaEvent.pairs (second.registry.awareNames 3) "shop" .empty at h
  rw [h, hsecond]
  rfl

end Publisher
end ColumnCipher
