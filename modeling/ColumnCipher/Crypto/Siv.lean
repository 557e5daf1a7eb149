import ColumnCipher.Crypto.Aes
/-!
The synthetic-vector mode of AES with keys of sixty-four bytes. A code over the headers and the
message is both the authentication and the start of the counter, so equal messages under equal
headers have equal cipher texts, and a sealed text opens only if it is the seal of what it opens to.
-/
namespace ColumnCipher.Siv

open Aes

abbrev Key := Vector UInt8 64

def Key.macHalf (key : Key) : Vector UInt8 32 := Vector.ofFn fun i => key[i.val]

def Key.counterHalf (key : Key) : Vector UInt8 32 := Vector.ofFn fun i => key[i.val + 32]

/-- The block whose bytes are a number modulo `2 ^ 128`, highest first. -/
def blockOfNat (n : Nat) : Block := Bytes.vector 16 (Bytes.bigEndian 16 n)

def blockToNat (b : Block) : Nat := Bytes.ofBigEndian b.toList

/-- Twice a block in the field of `2 ^ 128` elements. -/
def double (b : Block) : Block :=
  let n := 2 * blockToNat b
  blockOfNat (if n < Nat.pow 2 128 then n else (n - Nat.pow 2 128) ^^^ 0x87)

/-- A message of less than a block, marked at its end and filled with zeros. -/
def fill (message : Bytes) : Block := Bytes.vector 16 (message ++ [0x80])

/-- The blocks before the last are chained; the last is masked by its own subkey, which tells a
whole block from a filled one. -/
def chain (encrypt : Block → Block) (whole filled : Block) (state : Block) : List Bytes → Block
  | [] => encrypt (xorBlock state (xorBlock (fill []) filled))
  | [last] =>
    let block :=
      if last.length = 16 then xorBlock (Bytes.vector 16 last) whole
      else xorBlock (fill last) filled
    encrypt (xorBlock state block)
  | piece :: rest =>
    chain encrypt whole filled (encrypt (xorBlock state (Bytes.vector 16 piece))) rest

def cmac (encrypt : Block → Block) (message : Bytes) : Block :=
  let zero := blockOfNat 0
  let whole := double (encrypt zero)
  chain encrypt whole (double whole) zero (Bytes.pieces 16 message)

def xorEnd (message : Bytes) (b : Block) : Bytes :=
  message.take (message.length - 16) ++ Bytes.xor (message.drop (message.length - 16)) b.toList

/-- The code over all headers and the message. -/
def syntheticVector (encrypt : Block → Block) (headers : List Bytes) (message : Bytes) : Block :=
  let start := cmac encrypt (blockOfNat 0).toList
  let state := headers.foldl (fun d header => xorBlock (double d) (cmac encrypt header)) start
  if 16 ≤ message.length then cmac encrypt (xorEnd message state)
  else cmac encrypt (xorBlock (double state) (fill message)).toList

/-- The first counter: the synthetic vector with two bits cleared. -/
def firstCounter (v : Block) : Nat := blockToNat v &&& 0xFFFFFFFFFFFFFFFF7FFFFFFF7FFFFFFF

def keyStream (encrypt : Block → Block) (v : Block) (length : Nat) : Bytes :=
  (List.range ((length + 15) / 16)).flatMap fun i =>
    (encrypt (blockOfNat (firstCounter v + i))).toList

@[simp] theorem length_keyStream (encrypt : Block → Block) (v : Block) (length : Nat) :
    (keyStream encrypt v length).length = (length + 15) / 16 * 16 := by
  rw [keyStream, Bytes.length_flatMap_toList, List.length_range]

def applyStream (encrypt : Block → Block) (v : Block) (message : Bytes) : Bytes :=
  Bytes.xor (keyStream encrypt v message.length) message

@[simp] theorem length_applyStream (encrypt : Block → Block) (v : Block) (message : Bytes) :
    (applyStream encrypt v message).length = message.length :=
  Bytes.length_xor (by rw [length_keyStream]; omega)

@[simp] theorem applyStream_applyStream (encrypt : Block → Block) (v : Block) (message : Bytes) :
    applyStream encrypt v (applyStream encrypt v message) = message := by
  rw [applyStream, length_applyStream]
  exact Bytes.xor_xor (by rw [length_keyStream]; omega)

/-- The synthetic vector followed by the encrypted message. -/
def sealed (key : Key) (headers : List Bytes) (message : Bytes) : Bytes :=
  let macKeys := roundKeys key.macHalf
  let counterKeys := roundKeys key.counterHalf
  let v := syntheticVector (encryptWith macKeys) headers message
  v.toList ++ applyStream (encryptWith counterKeys) v message

def opened? (key : Key) (headers : List Bytes) (text : Bytes) : Option Bytes :=
  let macKeys := roundKeys key.macHalf
  let counterKeys := roundKeys key.counterHalf
  match Bytes.vector? 16 (text.take 16) with
  | none => none
  | some v =>
    let message := applyStream (encryptWith counterKeys) v (text.drop 16)
    if syntheticVector (encryptWith macKeys) headers message = v then some message else none

@[simp] theorem length_sealed (key : Key) (headers : List Bytes) (message : Bytes) :
    (sealed key headers message).length = 16 + message.length := by
  simp [sealed]

/-- A sealed message opens. -/
@[simp] theorem opened?_sealed (key : Key) (headers : List Bytes) (message : Bytes) :
    opened? key headers (sealed key headers message) = some message := by
  have hl (v : Block) : v.toList.length = 16 := Vector.length_toList
  simp only [opened?, sealed, List.take_left' (hl _), List.drop_left' (hl _), Bytes.vector?_toList,
    applyStream_applyStream, if_true]

/-- What opens is the seal of what it opens to. -/
theorem sealed_of_opened? {key : Key} {headers : List Bytes} {text message : Bytes}
    (h : opened? key headers text = some message) : sealed key headers message = text := by
  unfold opened? at h
  split at h
  · simp at h
  · rename_i v hv
    dsimp only at h
    split at h
    · rename_i hs
      obtain rfl := Option.some.inj h
      simp only [sealed, hs, applyStream_applyStream, Bytes.toList_of_vector? hv,
        List.take_append_drop]
    · simp at h

/-- Opening is the inverse of sealing, on all texts. -/
theorem opened?_eq_some_iff {key : Key} {headers : List Bytes} {text message : Bytes} :
    opened? key headers text = some message ↔ sealed key headers message = text := by
  constructor
  · exact sealed_of_opened?
  · rintro rfl
    exact opened?_sealed key headers message

end ColumnCipher.Siv
