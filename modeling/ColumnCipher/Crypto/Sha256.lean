import ColumnCipher.Bytes
/-!
The SHA-256 hash, and the two constructions that key it: the message authentication code HMAC and
the key derivation HKDF, of which one output block is enough here.
-/
namespace ColumnCipher.Sha256

/-- The first thirty-two bits of the fractional parts of the cube roots of the first 64 primes. -/
def roundConstants : List UInt32 :=
  [0x428a2f98, 0x71374491, 0xb5c0fbcf, 0xe9b5dba5, 0x3956c25b, 0x59f111f1, 0x923f82a4, 0xab1c5ed5,
   0xd807aa98, 0x12835b01, 0x243185be, 0x550c7dc3, 0x72be5d74, 0x80deb1fe, 0x9bdc06a7, 0xc19bf174,
   0xe49b69c1, 0xefbe4786, 0x0fc19dc6, 0x240ca1cc, 0x2de92c6f, 0x4a7484aa, 0x5cb0a9dc, 0x76f988da,
   0x983e5152, 0xa831c66d, 0xb00327c8, 0xbf597fc7, 0xc6e00bf3, 0xd5a79147, 0x06ca6351, 0x14292967,
   0x27b70a85, 0x2e1b2138, 0x4d2c6dfc, 0x53380d13, 0x650a7354, 0x766a0abb, 0x81c2c92e, 0x92722c85,
   0xa2bfe8a1, 0xa81a664b, 0xc24b8b70, 0xc76c51a3, 0xd192e819, 0xd6990624, 0xf40e3585, 0x106aa070,
   0x19a4c116, 0x1e376c08, 0x2748774c, 0x34b0bcb5, 0x391c0cb3, 0x4ed8aa4a, 0x5b9cca4f, 0x682e6ff3,
   0x748f82ee, 0x78a5636f, 0x84c87814, 0x8cc70208, 0x90befffa, 0xa4506ceb, 0xbef9a3f7, 0xc67178f2]

structure State where
  a : UInt32
  b : UInt32
  c : UInt32
  d : UInt32
  e : UInt32
  f : UInt32
  g : UInt32
  h : UInt32
  deriving DecidableEq, Repr

namespace State

def start : State :=
  ⟨0x6a09e667, 0xbb67ae85, 0x3c6ef372, 0xa54ff53a,
    0x510e527f, 0x9b05688c, 0x1f83d9ab, 0x5be0cd19⟩

def add (s t : State) : State :=
  ⟨s.a + t.a, s.b + t.b, s.c + t.c, s.d + t.d, s.e + t.e, s.f + t.f, s.g + t.g, s.h + t.h⟩

def words (s : State) : Vector UInt32 8 := #v[s.a, s.b, s.c, s.d, s.e, s.f, s.g, s.h]

end State

def rotateRight (x : UInt32) (n : UInt32) : UInt32 := (x >>> n) ||| (x <<< (32 - n))

def round (s : State) (word constant : UInt32) : State :=
  let sum1 := rotateRight s.e 6 ^^^ rotateRight s.e 11 ^^^ rotateRight s.e 25
  let choice := (s.e &&& s.f) ^^^ (~~~s.e &&& s.g)
  let t1 := s.h + sum1 + choice + constant + word
  let sum0 := rotateRight s.a 2 ^^^ rotateRight s.a 13 ^^^ rotateRight s.a 22
  let majority := (s.a &&& s.b) ^^^ (s.a &&& s.c) ^^^ (s.b &&& s.c)
  ⟨t1 + (sum0 + majority), s.a, s.b, s.c, s.d + t1, s.e, s.f, s.g⟩

def extend (schedule : Array UInt32) (t : Nat) : Array UInt32 :=
  let early := schedule.getD (t - 15) 0
  let late := schedule.getD (t - 2) 0
  let sigma0 := rotateRight early 7 ^^^ rotateRight early 18 ^^^ (early >>> 3)
  let sigma1 := rotateRight late 17 ^^^ rotateRight late 19 ^^^ (late >>> 10)
  schedule.push (sigma1 + schedule.getD (t - 7) 0 + sigma0 + schedule.getD (t - 16) 0)

def schedule (block : Bytes) : Array UInt32 :=
  let first := (Bytes.pieces 4 block).map fun w => UInt32.ofNat (Bytes.ofBigEndian w)
  (List.range' 16 48).foldl extend first.toArray

def compress (s : State) (block : Bytes) : State :=
  s.add (((schedule block).toList.zip roundConstants).foldl (fun s w => round s w.1 w.2) s)

/-- The message followed by a one bit, zeros, and its length in bits. -/
def padded (message : Bytes) : Bytes :=
  let marked := message ++ [0x80]
  marked ++ List.replicate ((120 - marked.length % 64) % 64) 0 ++
    Bytes.bigEndian 8 (8 * message.length)

def hash (message : Bytes) : Vector UInt8 32 :=
  let words := ((Bytes.pieces 64 (padded message)).foldl compress State.start).words
  Vector.ofFn fun i => (words[i.val / 4] >>> UInt32.ofNat (8 * (3 - i.val % 4))).toUInt8

/-- A key of one block: a longer one is hashed, a shorter one filled with zeros. -/
def blockKey (key : Bytes) : Bytes :=
  let short := if 64 < key.length then (hash key).toList else key
  short ++ List.replicate (64 - short.length) 0

def hmac (key message : Bytes) : Vector UInt8 32 :=
  let key := blockKey key
  hash (key.map (· ^^^ 0x5c) ++ (hash (key.map (· ^^^ 0x36) ++ message)).toList)

/-- The key of thirty-two bytes that a secret and an information text determine. -/
def deriveKey (secret : Vector UInt8 32) (info : Bytes) : Vector UInt8 32 :=
  let extracted := hmac (List.replicate 32 0) secret.toList
  hmac extracted.toList (info ++ [1])

end ColumnCipher.Sha256
