import ColumnCipher.Algorithm.Properties
import ColumnCipher.Schema
/-!
Named encryptors. A registry is built once for a configuration; what it tells its encryptors about
the database is given as a list of deliveries, one after the other; unless another order is given,
this is the order of the names.
-/
namespace ColumnCipher

/-- Encryptors by name; letter case counts. -/
structure Registry (σ : Type) where
  encryptors : Dict (Encryptor σ)

inductive SchemaEvent where
  | database (name : String)
  | schemas (schemas : Schemas)
  deriving DecidableEq

structure Delivery where
  target : Nat
  event : SchemaEvent
  deriving DecidableEq

namespace Registry

variable {σ : Type}

def empty : Registry σ := ⟨.empty⟩

def insert (r : Registry σ) (name : String) (e : Encryptor σ) : Registry σ :=
  ⟨r.encryptors.insert name e⟩

def find? (r : Registry σ) (name : String) : Option (Encryptor σ) := r.encryptors.find? name

def contains (r : Registry σ) (name : String) : Bool := r.encryptors.contains name

def names (r : Registry σ) : List String := r.encryptors.keys

def size (r : Registry σ) : Nat := r.encryptors.size

def isEmpty (r : Registry σ) : Bool := r.encryptors.isEmpty

/-- Builds configured encryptors, whose instances are numbered from `id` on; the first that cannot
be built decides the error. -/
def build [NonceSource σ] (id : Nat) :
    List (String × AlgorithmConfig) → Except Error (List (String × Encryptor σ))
  | [] => .ok []
  | (name, config) :: rest =>
    match Algorithm.ofConfig config with
    | .error e => .error e
    | .ok a => (build (id + 1) rest).map ((name, a.encryptor id) :: ·)

def ofEntries [NonceSource σ] (id : Nat) (entries : List (String × AlgorithmConfig)) :
    Except Error (Registry σ) :=
  (build id entries).map fun l => ⟨.ofList l⟩

def ofConfigs [NonceSource σ] (id : Nat) (configs : Dict AlgorithmConfig) :
    Except Error (Registry σ) :=
  ofEntries id configs.entries

/-- The name of the database and then its schemas, for each name of an encryptor that is aware of
schemas, in the order in which the names are met. -/
def deliveriesIn (walk : Dict.Walk (Encryptor σ)) (r : Registry σ) (database : String)
    (schemas : Schemas) : List Delivery :=
  (walk.entries r.encryptors).flatMap fun (_, e) =>
    if e.schemaAware then [⟨e.id, .database database⟩, ⟨e.id, .schemas schemas⟩] else []

def deliveries (r : Registry σ) (database : String) (schemas : Schemas) : List Delivery :=
  r.deliveriesIn .byKey database schemas

def describe (r : Registry σ) : String :=
  let entries := r.encryptors.entries.map fun (name, e) =>
    Quoted.text name ++ ": " ++ Quoted.text e.algorithm
  "\x7b" ++ String.intercalate ", " entries ++ "\x7d"

end Registry

end ColumnCipher
