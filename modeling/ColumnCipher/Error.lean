import ColumnCipher.Decimal.Integer
import ColumnCipher.Text.Base64
import ColumnCipher.Text.Hex
import ColumnCipher.Text.Quoted
/-!
What can go wrong, by cause. Each cause has one wording.
-/
namespace ColumnCipher

inductive ColumnFault where
  | cipherColumnRequired
  | encryptorNameRequired
  | encryptorNotRegistered (name : String)
  | assistedEncryptorNameRequired
  | assistedColumnRequired
  | assistedEncryptorNotRegistered (name : String)
  deriving DecidableEq, Repr

namespace ColumnFault

def message : ColumnFault → String
  | cipherColumnRequired => "cipher column is required"
  | encryptorNameRequired => "encryptor name is required"
  | encryptorNotRegistered name => "encryptor `" ++ name ++ "` is not registered"
  | assistedEncryptorNameRequired => "assisted query encryptor name is required"
  | assistedColumnRequired => "assisted query column is required"
  | assistedEncryptorNotRegistered name =>
    "assisted query encryptor `" ++ name ++ "` is not registered"

end ColumnFault

inductive PropertyFault where
  | missing
  | notHex (fault : Hex.Fault)
  | notNumber (fault : Decimal.Fault)
  | sizeOutOfRange (size : Nat)
  deriving DecidableEq, Repr

namespace PropertyFault

def message : PropertyFault → String
  | missing => "missing"
  | notHex .oddLength => "not hex: Odd number of digits"
  | notHex (.invalidByte byte position) =>
    "not hex: Invalid character " ++ Quoted.character (Char.ofNat byte.toNat) ++ " at position " ++
      Decimal.ofNat position
  | notNumber fault => fault.message
  | sizeOutOfRange size => "must be between 1 and 32, got " ++ Decimal.ofNat size

end PropertyFault

inductive EncryptionFault where
  | tooLong
  | other (text : String)
  deriving DecidableEq, Repr

namespace EncryptionFault

def message : EncryptionFault → String
  | tooLong => "ChaCha20-Poly1305 encryption failed: aead::Error"
  | other text => text

end EncryptionFault

inductive DecryptionFault where
  | notText
  | notBase64 (fault : Base64.Fault)
  | shorterThanNonce
  | unauthenticated
  | syntheticVectorMismatch
  | other (text : String)
  deriving DecidableEq, Repr

namespace DecryptionFault

def message : DecryptionFault → String
  | notText => "cipher value must be base64 text"
  | notBase64 fault => "invalid base64: " ++ fault.message
  | shorterThanNonce => "cipher value shorter than nonce"
  | unauthenticated => "authentication failed"
  | syntheticVectorMismatch => "AES-SIV decryption failed: aead::Error"
  | other text => text

end DecryptionFault

inductive FileFault where
  | notFound
  | isDirectory
  | notUtf8
  | other (text : String)
  deriving DecidableEq, Repr

namespace FileFault

def message : FileFault → String
  | notFound => "No such file or directory (os error 2)"
  | isDirectory => "Is a directory (os error 21)"
  | notUtf8 => "stream did not contain valid UTF-8"
  | other text => text

end FileFault

inductive Error where
  | invalidConfiguration (table column : String) (fault : ColumnFault)
  | encryptorNotFound (table column : String)
  | assistedQueryEncryptorNotFound (table column : String)
  | columnNotFound (table column : String)
  | unknownAlgorithm (name : String)
  | invalidProperty (algorithm property : String) (fault : PropertyFault)
  | invalidKeyLength (expected actual : Nat)
  | encryption (fault : EncryptionFault)
  | decryption (fault : DecryptionFault)
  | oneWay (algorithm : String)
  | malformedConfiguration
  | file (fault : FileFault)
  deriving DecidableEq, Repr

namespace Error

def message : Error → String
  | invalidConfiguration table column fault =>
    "invalid encrypt configuration for " ++ table ++ "." ++ column ++ ": " ++ fault.message
  | encryptorNotFound table column => "can not find encryptor by " ++ table ++ "." ++ column
  | assistedQueryEncryptorNotFound table column =>
    "can not find assisted query encryptor by " ++ table ++ "." ++ column
  | columnNotFound table column => "encrypt column not found: " ++ table ++ "." ++ column
  | unknownAlgorithm name => "unknown encrypt algorithm type: " ++ name
  | invalidProperty algorithm property fault =>
    "invalid property `" ++ property ++ "` for algorithm " ++ algorithm ++ ": " ++ fault.message
  | invalidKeyLength expected actual =>
    "invalid key length: expected " ++ Decimal.ofNat expected ++ " bytes, got "
      ++ Decimal.ofNat actual
  | encryption fault => "encryption failed: " ++ fault.message
  | decryption fault => "decryption failed: " ++ fault.message
  | oneWay algorithm => "unsupported operation: " ++ algorithm ++ " is a one-way algorithm"
  | malformedConfiguration => "configuration parse error"
  | file fault => "I/O error: " ++ fault.message

end Error

/-! Outcomes that pass through a function. -/

namespace Except

variable {ε ε' α β : Type}

theorem map_eq_ok_iff {f : α → β} {x : Except ε α} {b : β} :
    x.map f = .ok b ↔ ∃ a, x = .ok a ∧ f a = b := by
  cases x <;> simp [Except.map]

theorem map_eq_error_iff {f : α → β} {x : Except ε α} {e : ε} :
    x.map f = .error e ↔ x = .error e := by
  cases x <;> simp [Except.map]

theorem mapError_ok (f : ε → ε') (a : α) : (Except.ok a).mapError f = .ok a := rfl

theorem mapError_error (f : ε → ε') (e : ε) :
    (Except.error e : Except ε α).mapError f = .error (f e) := rfl

theorem mapError_eq_ok_iff {f : ε → ε'} {x : Except ε α} {a : α} :
    x.mapError f = .ok a ↔ x = .ok a := by
  cases x with
  | error e => simp [mapError_error]
  | ok b => simp [mapError_ok]

theorem mapError_eq_error_iff {f : ε → ε'} {x : Except ε α} {e : ε'} :
    x.mapError f = .error e ↔ ∃ e', x = .error e' ∧ f e' = e := by
  cases x with
  | error e' => simp [mapError_error]
  | ok b => simp [mapError_ok]

theorem bind_eq_ok_iff {x : Except ε α} {f : α → Except ε β} {b : β} :
    x >>= f = .ok b ↔ ∃ a, x = .ok a ∧ f a = .ok b := by
  cases x with
  | error e => simp [bind, Except.bind]
  | ok a => simp [bind, Except.bind]

theorem bind_eq_error_iff {x : Except ε α} {f : α → Except ε β} {e : ε} :
    x >>= f = .error e ↔ x = .error e ∨ ∃ a, x = .ok a ∧ f a = .error e := by
  cases x with
  | error e' => simp [bind, Except.bind]
  | ok a => simp [bind, Except.bind]

end Except

end ColumnCipher
