/-!
Byte strings are lists of bytes. A piece whose length is fixed by a cipher is a vector, so its
length is part of its type and is checked once, where the piece is read. Numbers enter and leave
byte strings at a fixed width, in either order.
-/
namespace ColumnCipher

abbrev Bytes := List UInt8

namespace Bytes

theorem toNat_ofNat_of_lt {n : Nat} (h : n < 256) : (UInt8.ofNat n).toNat = n := by
  simp only [UInt8.toNat_ofNat']
  omega

/-- The lowest `width` bytes of a number, lowest first. -/
def littleEndian : Nat → Nat → Bytes
  | 0, _ => []
  | width + 1, n => UInt8.ofNat n :: littleEndian width (n / 256)

def bigEndian (width n : Nat) : Bytes := (littleEndian width n).reverse

def ofLittleEndian : Bytes → Nat
  | [] => 0
  | b :: rest => b.toNat + 256 * ofLittleEndian rest

def ofBigEndian (b : Bytes) : Nat := ofLittleEndian b.reverse

@[simp] theorem length_littleEndian (width n : Nat) : (littleEndian width n).length = width := by
  induction width generalizing n with
  | zero => rfl
  | succ width ih => simp [littleEndian, ih]

@[simp] theorem length_bigEndian (width n : Nat) : (bigEndian width n).length = width := by
  simp [bigEndian]

/-- A number that fits the width is read back from its bytes. -/
theorem ofLittleEndian_littleEndian {width n : Nat} (h : n < Nat.pow 256 width) :
    ofLittleEndian (littleEndian width n) = n := by
  induction width generalizing n with
  | zero => simp at h; simp [littleEndian, ofLittleEndian, h]
  | succ width ih =>
    have hq : n / 256 < Nat.pow 256 width := by
      rw [Nat.pow_eq, Nat.pow_succ] at h
      exact Nat.div_lt_of_lt_mul (by rwa [Nat.mul_comm])
    simp only [littleEndian, ofLittleEndian, ih hq, UInt8.toNat_ofNat']
    omega

theorem ofBigEndian_bigEndian {width n : Nat} (h : n < Nat.pow 256 width) :
    ofBigEndian (bigEndian width n) = n := by
  simp [ofBigEndian, bigEndian, ofLittleEndian_littleEndian h]

/-- Byte by byte exclusive or, as long as the shorter of the two. -/
def xor (a b : Bytes) : Bytes := List.zipWith (· ^^^ ·) a b

/-- A key stream that is long enough cancels itself. -/
theorem xor_xor {stream b : Bytes} (h : b.length ≤ stream.length) :
    xor stream (xor stream b) = b := by
  induction stream generalizing b with
  | nil => cases b with
    | nil => rfl
    | cons x xs => simp at h
  | cons k stream ih => cases b with
    | nil => rfl
    | cons x xs =>
      have hx : k ^^^ (k ^^^ x) = x := by
        rw [← UInt8.xor_assoc, UInt8.xor_self, UInt8.zero_xor]
      simpa [xor, hx] using ih (by simpa using h)

@[simp] theorem length_xor {stream b : Bytes} (h : b.length ≤ stream.length) :
    (xor stream b).length = b.length := by
  simp [xor, Nat.min_eq_right h]

def piecesWithin (size : Nat) : Nat → Bytes → List Bytes
  | _, [] => []
  | 0, _ => []
  | fuel + 1, b => b.take size :: piecesWithin size fuel (b.drop size)

/-- The pieces of `size` bytes; the last may be shorter, and there is none of no bytes. -/
def pieces (size : Nat) (b : Bytes) : List Bytes := piecesWithin size b.length b

/-- Zero bytes up to the next multiple of `size`. -/
def padding (size : Nat) (b : Bytes) : Bytes :=
  List.replicate ((size - b.length % size) % size) 0

def vector? (n : Nat) (b : Bytes) : Option (Vector UInt8 n) :=
  if h : b.length = n then some ⟨b.toArray, by simp [h]⟩ else none

/-- The first `n` bytes as a piece, filled with zeros if there are fewer. -/
def vector (n : Nat) (b : Bytes) : Vector UInt8 n :=
  Vector.ofFn fun i => b.getD i 0

/-- Pieces of one size, put together, are as long as their number says. -/
theorem length_flatMap_toList {α : Type} {n : Nat} (f : α → Vector UInt8 n) (l : List α) :
    (l.flatMap fun a => (f a).toList).length = l.length * n := by
  induction l with
  | nil => simp
  | cons a l ih => simp [ih, Nat.succ_mul, Nat.add_comm]

@[simp] theorem vector?_toList {n : Nat} (v : Vector UInt8 n) : vector? n v.toList = some v := by
  rcases v with ⟨bytes, rfl⟩
  simp [vector?, Vector.toList]

theorem vector?_eq_none_iff {n : Nat} {b : Bytes} : vector? n b = none ↔ b.length ≠ n := by
  simp [vector?]

theorem toList_of_vector? {n : Nat} {b : Bytes} {v : Vector UInt8 n} (h : vector? n b = some v) :
    v.toList = b := by
  unfold vector? at h
  split at h
  · obtain rfl := Option.some.inj h
    rfl
  · simp at h

theorem exists_toList_eq {n : Nat} {b : Bytes} (h : b.length = n) :
    ∃ v : Vector UInt8 n, v.toList = b :=
  ⟨⟨b.toArray, by simpa using h⟩, rfl⟩

end Bytes

end ColumnCipher
