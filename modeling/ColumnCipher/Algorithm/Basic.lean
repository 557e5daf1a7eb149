import ColumnCipher.Crypto.ChaCha20
import ColumnCipher.Crypto.Sha256
import ColumnCipher.Crypto.Siv
import ColumnCipher.Encryptor
/-!
The built-in algorithms. Two encrypt values so that they can be read again, one deterministically
and one under a fresh nonce; the third makes a blind index, which is only compared. Each
authenticates the place of the column, and each writes its bytes as base64 text.
-/
namespace ColumnCipher

/-- The key of a blind index and the length to which it is cut. -/
structure BlindIndex where
  pepper : Bytes
  size : Nat
  pepper_ne_nil : pepper ≠ []
  one_le_size : 1 ≤ size
  size_le : size ≤ 32
  deriving DecidableEq

inductive Algorithm where
  | aesSiv (key : Siv.Key)
  | chaCha20Poly1305 (masterKey : ChaCha20.Key)
  | hmacSha256 (index : BlindIndex)
  deriving DecidableEq

/-- A state from which fresh nonces are drawn. -/
class NonceSource (σ : Type) where
  draw : σ → ChaCha20.Nonce × σ

/-- Nonces one after the other, of which some are used. -/
structure NonceStream where
  nonce : Nat → ChaCha20.Nonce
  used : Nat

instance : NonceSource NonceStream where
  draw s := (s.nonce s.used, { s with used := s.used + 1 })

def encodeCipher (b : Bytes) : Value := .text (Base64.encode b)

def decodeCipher : Value → Except Error Bytes
  | .text s => (Base64.decode s).mapError fun fault => .decryption (.notBase64 fault)
  | _ => .error (.decryption .notText)

namespace BlindIndex

/-- The authenticated bytes: the length of the plain bytes, the plain bytes and the place. -/
def input (plain : Bytes) (context : Context) : Bytes :=
  Bytes.bigEndian 8 plain.length ++ plain ++ context.associatedData

def index (x : BlindIndex) (plain : Bytes) (context : Context) : Bytes :=
  (Sha256.hmac x.pepper (input plain context)).toList.take x.size

end BlindIndex

namespace Algorithm

def typeName : Algorithm → String
  | aesSiv _ => "AES_SIV"
  | chaCha20Poly1305 _ => "CHACHA20_POLY1305"
  | hmacSha256 _ => "HMAC_SHA256"

/-- The headers of the deterministic cipher: the place and a nonce of zeros. -/
def sivHeaders (context : Context) : List Bytes := [context.associatedData, List.replicate 16 0]

/-- The key that the master key gives to one place. -/
def dataKey (masterKey : ChaCha20.Key) (context : Context) : ChaCha20.Key :=
  Sha256.deriveKey masterKey context.associatedData

/-- Encrypts plain bytes; only the randomized cipher uses the nonce. -/
def encryptBytes (nonce : ChaCha20.Nonce) (plain : Bytes) (context : Context) :
    Algorithm → Except Error Bytes
  | aesSiv key => .ok (Siv.sealed key (sivHeaders context) plain)
  | chaCha20Poly1305 masterKey =>
    match ChaCha20.sealed? (dataKey masterKey context) nonce context.associatedData plain with
    | some text => .ok (nonce.toList ++ text)
    | none => .error (.encryption .tooLong)
  | hmacSha256 x => .ok (x.index plain context)

def decryptBytes (text : Bytes) (context : Context) : Algorithm → Except Error Bytes
  | aesSiv key =>
    match Siv.opened? key (sivHeaders context) text with
    | some plain => .ok plain
    | none => .error (.decryption .syntheticVectorMismatch)
  | chaCha20Poly1305 masterKey =>
    match Bytes.vector? 12 (text.take 12) with
    | none => .error (.decryption .shorterThanNonce)
    | some nonce =>
      match ChaCha20.opened? (dataKey masterKey context) nonce context.associatedData
          (text.drop 12) with
      | some plain => .ok plain
      | none => .error (.decryption .unauthenticated)
  | hmacSha256 x => .error (.oneWay (hmacSha256 x).typeName)

def encrypt (a : Algorithm) (nonce : ChaCha20.Nonce) (v : Value) (context : Context) :
    Except Error Value :=
  (a.encryptBytes nonce v.plainBytes context).map encodeCipher

def decrypt : Algorithm → Value → Context → Except Error Value
  | hmacSha256 x, _, _ => .error (.oneWay (hmacSha256 x).typeName)
  | a, v, context =>
    match decodeCipher v with
    | .error e => .error e
    | .ok text => (a.decryptBytes text context).map Value.ofPlainBytes

/-- An algorithm that is no blind index decodes a cipher value and decrypts the bytes. -/
theorem decrypt_eq {a : Algorithm} (ha : ∀ x, a ≠ hmacSha256 x) (c : Value) (context : Context) :
    a.decrypt c context =
      match decodeCipher c with
      | .error e => .error e
      | .ok text => (a.decryptBytes text context).map Value.ofPlainBytes := by
  cases a with
  | aesSiv key => rfl
  | chaCha20Poly1305 masterKey => rfl
  | hmacSha256 x => exact absurd rfl (ha x)

/-- Whether encryption draws a nonce. -/
def isRandomized : Algorithm → Bool
  | chaCha20Poly1305 _ => true
  | _ => false

def encryptor {σ : Type} [NonceSource σ] (a : Algorithm) (id : Nat) : Encryptor σ where
  id := id
  algorithm := a.typeName
  encrypt := fun v context s =>
    if a.isRandomized then
      let (nonce, s) := NonceSource.draw s
      (a.encrypt nonce v context, s)
    else (a.encrypt (.replicate 12 0) v context, s)
  decrypt := fun v context s => (a.decrypt v context, s)
  schemaAware := false

/-- A call of an encryptor gives what its algorithm gives under some nonce. -/
theorem exists_nonce_encrypt {σ : Type} [NonceSource σ] (a : Algorithm) (id : Nat) (v : Value)
    (context : Context) (s : σ) :
    ∃ nonce, ((a.encryptor id).encrypt v context s).1 = a.encrypt nonce v context := by
  dsimp only [encryptor]
  split
  · exact ⟨_, rfl⟩
  · exact ⟨_, rfl⟩

end Algorithm

end ColumnCipher
