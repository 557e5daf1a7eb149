import ColumnCipher.Bytes
/-!
The ChaCha20 stream cipher with the Poly1305 authenticator. The first block of the stream is the key
of the authenticator, the following ones encrypt the message.
-/
namespace ColumnCipher.ChaCha20

abbrev Key := Vector UInt8 32
abbrev Nonce := Vector UInt8 12
abbrev State := Vector UInt32 16

def rotateLeft (x n : UInt32) : UInt32 := (x <<< n) ||| (x >>> (32 - n))

def quarterRound (s : State) (i j k l : Fin 16) : State :=
  let a := s.get i + s.get j
  let d := rotateLeft (s.get l ^^^ a) 16
  let c := s.get k + d
  let b := rotateLeft (s.get j ^^^ c) 12
  let a := a + b
  let d := rotateLeft (d ^^^ a) 8
  let c := c + d
  let b := rotateLeft (b ^^^ c) 7
  (((s.setIfInBounds i a).setIfInBounds j b).setIfInBounds k c).setIfInBounds l d

/-- A round over the columns and a round over the diagonals. -/
def doubleRound (s : State) : State :=
  let s := quarterRound s 0 4 8 12
  let s := quarterRound s 1 5 9 13
  let s := quarterRound s 2 6 10 14
  let s := quarterRound s 3 7 11 15
  let s := quarterRound s 0 5 10 15
  let s := quarterRound s 1 6 11 12
  let s := quarterRound s 2 7 8 13
  quarterRound s 3 4 9 14

def word (b : Bytes) : UInt32 := UInt32.ofNat (Bytes.ofLittleEndian b)

def start (key : Key) (nonce : Nonce) (counter : UInt32) : State :=
  let constants : List UInt32 := [0x61707865, 0x3320646e, 0x79622d32, 0x6b206574]
  let words := constants ++ (Bytes.pieces 4 key.toList).map word ++ [counter] ++
    (Bytes.pieces 4 nonce.toList).map word
  Vector.ofFn fun i => words.getD i 0

def block (key : Key) (nonce : Nonce) (counter : UInt32) : Vector UInt8 64 :=
  let first := start key nonce counter
  let words := Vector.zipWith (· + ·) first (Nat.repeat doubleRound 10 first)
  Vector.ofFn fun i => (words[i.val / 4] >>> UInt32.ofNat (8 * (i.val % 4))).toUInt8

/-- The key stream for a message of the given length, from the second block on. -/
def keyStream (key : Key) (nonce : Nonce) (length : Nat) : Bytes :=
  (List.range ((length + 63) / 64)).flatMap fun i => (block key nonce (UInt32.ofNat (i + 1))).toList

@[simp] theorem length_keyStream (key : Key) (nonce : Nonce) (length : Nat) :
    (keyStream key nonce length).length = (length + 63) / 64 * 64 := by
  rw [keyStream, Bytes.length_flatMap_toList, List.length_range]

def applyStream (key : Key) (nonce : Nonce) (message : Bytes) : Bytes :=
  Bytes.xor (keyStream key nonce message.length) message

@[simp] theorem length_applyStream (key : Key) (nonce : Nonce) (message : Bytes) :
    (applyStream key nonce message).length = message.length :=
  Bytes.length_xor (by rw [length_keyStream]; omega)

@[simp] theorem applyStream_applyStream (key : Key) (nonce : Nonce) (message : Bytes) :
    applyStream key nonce (applyStream key nonce message) = message := by
  rw [applyStream, length_applyStream]
  exact Bytes.xor_xor (by rw [length_keyStream]; omega)

/-- The authenticator: the message blocks as a polynomial at a secret point, modulo `2 ^ 130 -
5`. -/
def poly1305 (key : Bytes) (message : Bytes) : Vector UInt8 16 :=
  let point := Bytes.ofLittleEndian (key.take 16) &&& 0x0ffffffc0ffffffc0ffffffc0fffffff
  let mask := Bytes.ofLittleEndian ((key.drop 16).take 16)
  let value := (Bytes.pieces 16 message).foldl
    (fun sum piece =>
      (sum + Bytes.ofLittleEndian piece + Nat.pow 2 (8 * piece.length)) * point %
        (Nat.pow 2 130 - 5)) 0
  Bytes.vector 16 (Bytes.littleEndian 16 (value + mask))

def tag (key : Key) (nonce : Nonce) (associated text : Bytes) : Vector UInt8 16 :=
  poly1305 ((block key nonce 0).toList.take 32)
    (associated ++ Bytes.padding 16 associated ++ text ++ Bytes.padding 16 text ++
      Bytes.littleEndian 8 associated.length ++ Bytes.littleEndian 8 text.length)

/-- Whether a message has a block number for each of its pieces. -/
def fits (message : Bytes) : Bool := message.length / 64 < Nat.pow 2 32 - 1

/-- The encrypted message followed by its code; a message that is too long has none. -/
def sealed? (key : Key) (nonce : Nonce) (associated message : Bytes) : Option Bytes :=
  if fits message then
    let text := applyStream key nonce message
    some (text ++ (tag key nonce associated text).toList)
  else none

def opened? (key : Key) (nonce : Nonce) (associated text : Bytes) : Option Bytes :=
  if text.length < 16 then none
  else
    let body := text.take (text.length - 16)
    if fits body ∧ (tag key nonce associated body).toList = text.drop (text.length - 16) then
      some (applyStream key nonce body)
    else none

theorem length_sealed? {key : Key} {nonce : Nonce} {associated message text : Bytes}
    (h : sealed? key nonce associated message = some text) : text.length = message.length + 16 := by
  unfold sealed? at h
  split at h
  · obtain rfl := Option.some.inj h
    simp
  · simp at h

/-- A sealed message opens. -/
theorem opened?_of_sealed? {key : Key} {nonce : Nonce} {associated message text : Bytes}
    (h : sealed? key nonce associated message = some text) :
    opened? key nonce associated text = some message := by
  unfold sealed? at h
  split at h
  · rename_i hf
    obtain rfl := Option.some.inj h
    have hf' : fits (applyStream key nonce message) = true := by simpa [fits] using hf
    have hl (t : Vector UInt8 16) : t.toList.length = 16 := Vector.length_toList
    simp [opened?, hl, hf']
  · simp at h

/-- What opens is the seal of what it opens to. -/
theorem sealed?_of_opened? {key : Key} {nonce : Nonce} {associated message text : Bytes}
    (h : opened? key nonce associated text = some message) :
    sealed? key nonce associated message = some text := by
  unfold opened? at h
  split at h
  · simp at h
  · dsimp only at h
    split at h
    · rename_i hs
      obtain ⟨hf, ht⟩ := hs
      obtain rfl := Option.some.inj h
      have hf' : fits (applyStream key nonce (text.take (text.length - 16))) = true := by
        simpa [fits] using hf
      simp [sealed?, hf', ht]
    · simp at h

end ColumnCipher.ChaCha20
