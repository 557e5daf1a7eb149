import ColumnCipher.Publisher
/-!
Runs of a publisher: calls that are made one after the other, what they tell to encryptors and what
they answer. A call that walks through a dictionary brings the order of its walk with it, so a run
may meet the same dictionary in different orders. What a publisher should know after some calls is
read off the calls alone.
-/
namespace ColumnCipher

inductive Call (σ : Type) where
  | setSchema (walk : Dict.Walk (Encryptor σ)) (database : String) (schemas : Schemas)
  | publish (walk : Dict.Walk (Encryptor σ)) (rule : Rule σ)
  | reconfigure (order : Dict.Walk AlgorithmConfig) (walk : Dict.Walk (Encryptor σ)) (id : Nat)
      (config : RuleConfig)
  | current
  | generation

inductive Answer (σ : Type) where
  | done
  | number (n : UInt64)
  | refused (e : Error)
  | snapshot (g : Generation σ)

namespace Call

variable {σ : Type}

def schema? : Call σ → Option (String × Schemas)
  | setSchema _ database schemas => some (database, schemas)
  | _ => none

variable [NonceSource σ]

def rule? : Call σ → Option (Rule σ)
  | publish _ rule => some rule
  | reconfigure order _ id config =>
    (Rule.ofConfigIn id config (order.entries config.encryptors)).toOption
  | _ => none

/-- Whether a call brings a configuration that has no rule. -/
def isRejected : Call σ → Bool
  | reconfigure order _ id config =>
    !(Rule.ofConfigIn id config (order.entries config.encryptors) : Except Error (Rule σ)).isOk
  | _ => false

end Call

/-- What a run leaves: the publisher, and the deliveries and the answers in order. -/
structure Run (σ : Type) where
  publisher : Publisher σ
  deliveries : List Delivery
  answers : List (Answer σ)

/-- The states of encryptors after a run, for what one delivery changes in them. -/
def Run.states {σ : Type} (r : Run σ) (deliver : σ → Delivery → σ) (s : σ) : σ :=
  r.deliveries.foldl deliver s

namespace Publisher

variable {σ : Type}

def schemaAfter (calls : List (Call σ)) : Option (String × Schemas) :=
  (calls.filterMap Call.schema?).getLast?

theorem schemaAfter_concat (calls : List (Call σ)) (c : Call σ) :
    schemaAfter (calls ++ [c]) = c.schema?.or (schemaAfter calls) := by
  cases h : c.schema? <;> simp [schemaAfter, h]

variable [NonceSource σ]

def published (calls : List (Call σ)) : List (Rule σ) := calls.filterMap Call.rule?

theorem published_concat (calls : List (Call σ)) (c : Call σ) :
    published (calls ++ [c]) = published calls ++ c.rule?.toList := by
  cases h : c.rule? <;> simp [published, h]

def ruleAfter (first : Rule σ) (calls : List (Call σ)) : Rule σ := (published calls).getLastD first

theorem ruleAfter_concat (first : Rule σ) (calls : List (Call σ)) (c : Call σ) :
    ruleAfter first (calls ++ [c]) = c.rule?.getD (ruleAfter first calls) := by
  rw [ruleAfter, published_concat]
  cases c.rule? <;> simp [ruleAfter]

def step (p : Publisher σ) : Call σ → Publisher σ × List Delivery × Answer σ
  | .setSchema walk database schemas =>
    let (p, told) := p.setSchemaIn walk database schemas
    (p, told, .done)
  | .publish walk rule =>
    let (p, told) := p.publishIn walk rule
    (p, told, .number p.number)
  | .reconfigure order walk id config =>
    match p.reconfigureIn order walk id config with
    | .ok (p, told) => (p, told, .number p.number)
    | .error e => (p, [], .refused e)
  | .current => (p, [], .snapshot p.current)
  | .generation => (p, [], .number p.number)

def extend (r : Run σ) (c : Call σ) : Run σ :=
  let (p, told, answer) := r.publisher.step c
  ⟨p, r.deliveries ++ told, r.answers ++ [answer]⟩

def run (p : Publisher σ) (calls : List (Call σ)) : Run σ := calls.foldl extend ⟨p, [], []⟩

theorem run_concat (p : Publisher σ) (calls : List (Call σ)) (c : Call σ) :
    run p (calls ++ [c]) = extend (run p calls) c := by
  rw [run, List.foldl_append]
  rfl

/-- A call publishes a rule, or says something about the database, or leaves the publisher and the
encryptors as they are. -/
theorem step_cases (p : Publisher σ) (c : Call σ) :
    (∃ walk rule, c.rule? = some rule ∧ c.schema? = none ∧
      p.step c = ((p.publishIn walk rule).1, (p.publishIn walk rule).2,
        .number (p.current.number + 1))) ∨
    (∃ walk database schemas, c = .setSchema walk database schemas ∧
      p.step c = ((p.setSchemaIn walk database schemas).1,
        (p.setSchemaIn walk database schemas).2, .done)) ∨
    (c.rule? = none ∧ c.schema? = none ∧ ∃ answer, p.step c = (p, [], answer)) := by
  cases c with
  | setSchema walk database schemas => exact .inr (.inl ⟨walk, database, schemas, rfl, rfl⟩)
  | publish walk rule => exact .inl ⟨walk, rule, rfl, rfl, rfl⟩
  | reconfigure order walk id config =>
    cases h : (Rule.ofConfigIn id config (order.entries config.encryptors) :
        Except Error (Rule σ)) with
    | ok rule =>
      refine .inl ⟨walk, rule, ?_, rfl, ?_⟩
      · simp only [Call.rule?, h]
        rfl
      · simp only [step, reconfigureIn, h]
        rfl
    | error e =>
      refine .inr (.inr ⟨?_, rfl, .refused e, ?_⟩)
      · simp only [Call.rule?, h]
        rfl
      · simp only [step, reconfigureIn, h]
        rfl
  | current => exact .inr (.inr ⟨rfl, rfl, _, rfl⟩)
  | generation => exact .inr (.inr ⟨rfl, rfl, _, rfl⟩)

end Publisher

end ColumnCipher
