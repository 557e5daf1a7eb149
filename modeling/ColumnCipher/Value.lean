import ColumnCipher.Decimal.Shortest
import ColumnCipher.Text.Hex
/-!
Typed column values. Encryption works on the plain bytes of a value: numbers and truth values are
their decimal text, so a number and the same number given as text have the same plain bytes. A NULL
is no value; batches are lists of optional values.
-/
namespace ColumnCipher

/-- A value that is not NULL; a float is its 64 bits. -/
inductive Value where
  | bool (b : Bool)
  | int (n : Int64)
  | float (bits : UInt64)
  | text (s : String)
  | bytes (b : Bytes)
  deriving DecidableEq

namespace Value

def boolText (b : Bool) : String := if b then "true" else "false"

def display : Value → String
  | bool b => boolText b
  | int n => Decimal.ofInt n.toInt
  | float bits => Float64.render bits
  | text s => s
  | bytes b => String.ofList ('0' :: 'x' :: Hex.encode b)

def plainBytes : Value → Bytes
  | bytes b => b
  | v => Utf8.encode v.display

/-- The value that decrypted bytes stand for: a text if they are well formed, else the bytes. -/
def ofPlainBytes (b : Bytes) : Value :=
  match Utf8.decode? b with
  | some s => text s
  | none => bytes b

/-- The value that comes back when the plain bytes of a value are read. -/
def canonical (v : Value) : Value := ofPlainBytes v.plainBytes

def asText? : Value → Option String
  | text s => some s
  | _ => none

/-- Equality of kind and content, floats being compared as numbers. -/
def equal : Value → Value → Bool
  | float a, float b => Float64.equal a b
  | v, w => v == w

@[simp] theorem plainBytes_text (s : String) : (text s).plainBytes = Utf8.encode s := rfl
@[simp] theorem plainBytes_bytes (b : Bytes) : (bytes b).plainBytes = b := rfl

/-- Reading plain bytes loses none of them. -/
@[simp] theorem plainBytes_ofPlainBytes (b : Bytes) : (ofPlainBytes b).plainBytes = b := by
  unfold ofPlainBytes
  split
  · rename_i h
    exact Utf8.encode_of_decode? h
  · rfl

/-- A text comes back unchanged. -/
@[simp] theorem canonical_text (s : String) : (text s).canonical = text s := by
  simp [canonical, ofPlainBytes]

/-- A value is read from its own plain bytes alone, and only if it is canonical. -/
theorem ofPlainBytes_eq_iff {b : Bytes} {v : Value} :
    ofPlainBytes b = v ↔ v.plainBytes = b ∧ v = v.canonical := by
  constructor
  · rintro rfl
    refine ⟨plainBytes_ofPlainBytes b, ?_⟩
    rw [canonical, plainBytes_ofPlainBytes]
  · rintro ⟨hb, hv⟩
    rw [← hb]
    exact hv.symm

end Value

end ColumnCipher
