import ColumnCipher.Rule.Basic
/-!
Publication of rules. A publisher holds the current rule, counts the rules it has published, and
remembers what was last told about the database, so that the encryptors of later rules hear it too.
Dictionaries are walked in the order of their keys unless another order is given.
-/
namespace ColumnCipher

/-- A rule with the number of its publication, which tells it apart from every other one. -/
structure Generation (σ : Type) where
  number : UInt64
  rule : Rule σ

structure Publisher (σ : Type) where
  current : Generation σ
  schema : Option (String × Schemas)

namespace Publisher

variable {σ : Type}

def start (rule : Rule σ) : Publisher σ := ⟨⟨1, rule⟩, none⟩

def number (p : Publisher σ) : UInt64 := p.current.number

/-- Publishes a rule after its encryptors are told what is remembered about the database. -/
def publishIn (walk : Dict.Walk (Encryptor σ)) (p : Publisher σ) (rule : Rule σ) :
    Publisher σ × List Delivery :=
  let told := match p.schema with
    | some (database, schemas) => rule.deliveriesIn walk database schemas
    | none => []
  (⟨⟨p.current.number + 1, rule⟩, p.schema⟩, told)

def publish (p : Publisher σ) (rule : Rule σ) : Publisher σ × List Delivery :=
  p.publishIn .byKey rule

/-- Publishes the rule of a configuration, whose encryptors are built in a given order; if it has
none, nothing changes. -/
def reconfigureIn [NonceSource σ] (order : Dict.Walk AlgorithmConfig)
    (walk : Dict.Walk (Encryptor σ)) (p : Publisher σ) (id : Nat) (config : RuleConfig) :
    Except Error (Publisher σ × List Delivery) :=
  (Rule.ofConfigIn id config (order.entries config.encryptors)).map (p.publishIn walk)

def reconfigure [NonceSource σ] (p : Publisher σ) (id : Nat) (config : RuleConfig) :
    Except Error (Publisher σ × List Delivery) :=
  p.reconfigureIn .byKey .byKey id config

/-- Tells the encryptors of the current rule about the database and remembers it. -/
def setSchemaIn (walk : Dict.Walk (Encryptor σ)) (p : Publisher σ) (database : String)
    (schemas : Schemas) : Publisher σ × List Delivery :=
  ({ p with schema := some (database, schemas) },
    p.current.rule.deliveriesIn walk database schemas)

def setSchema (p : Publisher σ) (database : String) (schemas : Schemas) :
    Publisher σ × List Delivery :=
  p.setSchemaIn .byKey database schemas

def isCurrent (p : Publisher σ) (g : Generation σ) : Bool := p.current.number == g.number

end Publisher

end ColumnCipher
