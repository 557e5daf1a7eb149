import ColumnCipher.Algorithm.Basic
import ColumnCipher.Config.Basic
import ColumnCipher.Text.Blank
import ColumnCipher.Text.Case
/-!
Algorithms from their configured types and properties. Types are compared by their upper-case forms;
keys are hexadecimal with white space around them. The first check that fails decides the error.
-/
namespace ColumnCipher.Algorithm

def aesSivType : String := "AES_SIV"
def chaCha20Poly1305Type : String := "CHACHA20_POLY1305"
def hmacSha256Type : String := "HMAC_SHA256"

def aesKeyProperty : String := "aes-key-value"
def masterKeyProperty : String := "master-key-value"
def pepperProperty : String := "pepper-value"
def indexSizeProperty : String := "index-size"

def isKnown (type : String) : Bool :=
  [aesSivType, chaCha20Poly1305Type, hmacSha256Type].contains (Case.upper type)

/-- The cipher that `make` gives for a key, which has to have one length. -/
def ofKey (length : Nat) (make : Vector UInt8 length → Algorithm) (key : Bytes) :
    Except Error Algorithm :=
  match Bytes.vector? length key with
  | some key => .ok (make key)
  | none => .error (.invalidKeyLength length key.length)

def ofAesKey : Bytes → Except Error Algorithm := ofKey 64 aesSiv

def ofMasterKey : Bytes → Except Error Algorithm := ofKey 32 chaCha20Poly1305

/-- The blind index with the given pepper and length; the pepper is checked first. -/
def ofPepper (pepper : Bytes) (size : Nat) : Except Error Algorithm :=
  if hp : pepper = [] then .error (.invalidKeyLength 1 0)
  else if hs : 1 ≤ size ∧ size ≤ 32 then .ok (hmacSha256 ⟨pepper, size, hp, hs.1, hs.2⟩)
  else .error (.invalidProperty hmacSha256Type indexSizeProperty (.sizeOutOfRange size))

def keyProperty (props : Dict String) (algorithm property : String) : Except Error Bytes :=
  match props.find? property with
  | none => .error (.invalidProperty algorithm property .missing)
  | some text =>
    (Hex.decode (Blank.trim text)).mapError fun fault =>
      .invalidProperty algorithm property (.notHex fault)

/-- Reads the length of a blind index, which is sixteen unless it is given. -/
def indexSize (props : Dict String) : Except Error Nat :=
  match props.find? indexSizeProperty with
  | none => .ok 16
  | some text =>
    (Decimal.readUnsigned (Nat.pow 2 64 - 1) (Blank.trim text).toList).mapError fun fault =>
      .invalidProperty hmacSha256Type indexSizeProperty (.notNumber fault)

def ofConfig (config : AlgorithmConfig) : Except Error Algorithm :=
  let type := Case.upper config.type
  if type = aesSivType then do
    ofAesKey (← keyProperty config.props aesSivType aesKeyProperty)
  else if type = chaCha20Poly1305Type then do
    ofMasterKey (← keyProperty config.props chaCha20Poly1305Type masterKeyProperty)
  else if type = hmacSha256Type then do
    let pepper ← keyProperty config.props hmacSha256Type pepperProperty
    ofPepper pepper (← indexSize config.props)
  else .error (.unknownAlgorithm config.type)

end ColumnCipher.Algorithm
