import ColumnCipher.Context
import ColumnCipher.Error
import ColumnCipher.Value
/-!
Encryptors: the two directions of a value transformation over some state, which a failing call may
change too. An encryptor carries the identity of its instance, because one instance may be
registered under several names and in several rules.
-/
namespace ColumnCipher

/-- A transformation of one value at a place, which may change the state and may fail. -/
abbrev Transformation (σ : Type) := Value → Context → σ → Except Error Value × σ

structure Encryptor (σ : Type) where
  id : Nat
  algorithm : String
  encrypt : Transformation σ
  decrypt : Transformation σ
  schemaAware : Bool

namespace Encryptor

def same {σ : Type} (a b : Encryptor σ) : Bool := a.id == b.id

end Encryptor

end ColumnCipher
