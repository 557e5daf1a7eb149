import ColumnCipher.Proofs.Descriptions
import ColumnCipher.Proofs.RandomizedTexts
/-!
Algorithms by the bytes that they are built from. Where such bytes are used each step has a check of
its own: a key may have the wrong length, an expansion may be too long, and a code too short for the
size to which it is cut. What is checked when an algorithm is built rules all of this out. So it
encrypts whatever is not too long for its cipher, to a length that the number of plain bytes fixes.
-/
namespace ColumnCipher

namespace Sha256

/-- The blocks of an expansion, from a number on. Each is the code of the block before it, the
information and its number. -/
def expansion (key info : Bytes) : Nat → Nat → Bytes → Bytes
  | 0, _, _ => []
  | blocks + 1, number, before =>
    let block := (hmac key (before ++ info ++ [UInt8.ofNat number])).toList
    block ++ expansion key info blocks (number + 1) block

/-- The first bytes of an expansion, which has no more than 255 blocks. -/
def expand? (key info : Bytes) (length : Nat) : Option Bytes :=
  if length ≤ 255 * 32 then
    some ((expansion key info ((length + 31) / 32) 1 []).take length)
  else none

/-- One block of the expansion is the derived key. -/
theorem expand?_eq_deriveKey (secret : Vector UInt8 32) (info : Bytes) :
    expand? (hmac (List.replicate 32 0) secret.toList).toList info 32 =
      some (deriveKey secret info).toList := by
  rw [expand?, if_pos (by decide)]
  change some ((_ ++ []).take 32) = _
  rw [List.append_nil, List.take_of_length_le (by rw [Vector.length_toList])]
  rfl

/-- A key of any length fits into one block. -/
@[simp] theorem length_blockKey (key : Bytes) : (blockKey key).length = 64 := by
  simp only [blockKey, List.length_append, List.length_replicate]
  split
  · rw [Vector.length_toList]
  · omega

end Sha256

/-- What an algorithm is built from: a key, or a pepper and the size of an index. -/
inductive KeyMaterial where
  | aesSiv (key : Bytes)
  | chaCha20Poly1305 (masterKey : Bytes)
  | hmacSha256 (pepper : Bytes) (size : Nat)

/-- How an encryption ends without a result: with an error, or where bytes are cut past their end. -/
inductive Abort where
  | failed (e : Error)
  | cutPastEnd (size length : Nat)

namespace KeyMaterial

open Algorithm (sivHeaders)

def build : KeyMaterial → Except Error Algorithm
  | aesSiv key => Algorithm.ofAesKey key
  | chaCha20Poly1305 masterKey => Algorithm.ofMasterKey masterKey
  | hmacSha256 pepper size => Algorithm.ofPepper pepper size

def outputLength : KeyMaterial → Nat → Nat
  | aesSiv _, length => length + 16
  | chaCha20Poly1305 _, length => length + 28
  | hmacSha256 _ size, _ => size

def stop (message : String) : Except Abort Bytes := .error (.failed (.encryption (.other message)))

/-- Encrypts with the bytes alone, of which nothing is known. -/
def encryptBytes (nonce : ChaCha20.Nonce) (plain : Bytes) (context : Context) :
    KeyMaterial → Except Abort Bytes
  | aesSiv key =>
    match Bytes.vector? 64 key with
    | none => stop "Failed to create AES-SIV cipher: Invalid Length"
    | some key =>
      -- A synthetic vector is defined for no more than 126 headers.
      if (sivHeaders context).length ≤ 126 then .ok (Siv.sealed key (sivHeaders context) plain)
      else stop "AES-SIV encryption failed: aead::Error"
  | chaCha20Poly1305 masterKey =>
    let extracted := (Sha256.hmac (List.replicate 32 0) masterKey).toList
    match Sha256.expand? extracted context.associatedData 32 with
    | none => stop "key derivation failed"
    | some dataKey =>
      match Bytes.vector? 32 dataKey with
      | none => stop "Invalid data key: Invalid Length"
      | some dataKey =>
        match ChaCha20.sealed? dataKey nonce context.associatedData plain with
        | none => .error (.failed (.encryption .tooLong))
        | some text => .ok (nonce.toList ++ text)
  | hmacSha256 pepper size =>
    match Bytes.vector? 64 (Sha256.blockKey pepper) with
    | none => stop "Invalid pepper: Invalid Length"
    | some _ =>
      let code := (Sha256.hmac pepper (BlindIndex.input plain context)).toList
      if size ≤ code.length then .ok (code.take size) else .error (.cutPastEnd size code.length)

variable {m : KeyMaterial} {a : Algorithm} {nonce : ChaCha20.Nonce} {plain : Bytes}
  {context : Context}

/-- For an algorithm that was built the checks of the single steps make no difference. -/
theorem encryptBytes_of_build (h : m.build = .ok a) :
    m.encryptBytes nonce plain context =
      (a.encryptBytes nonce plain context).mapError .failed := by
  cases m with
  | aesSiv key =>
    obtain ⟨k, rfl, rfl⟩ := Algorithm.ofKey_eq_ok_iff.mp h
    have hheaders : (sivHeaders context).length ≤ 126 := by simp [sivHeaders]
    simp only [encryptBytes, Bytes.vector?_toList]
    rw [if_pos hheaders]
    rfl
  | chaCha20Poly1305 masterKey =>
    obtain ⟨k, rfl, rfl⟩ := Algorithm.ofKey_eq_ok_iff.mp h
    simp only [encryptBytes, Sha256.expand?_eq_deriveKey, Bytes.vector?_toList,
      Algorithm.encryptBytes, Algorithm.dataKey]
    cases ChaCha20.sealed? (Sha256.deriveKey k context.associatedData) nonce
      context.associatedData plain with
    | none => rfl
    | some text => rfl
  | hmacSha256 pepper size =>
    obtain ⟨x, rfl, rfl, rfl⟩ := Algorithm.ofPepper_eq_ok_iff.mp h
    obtain ⟨block, hblock⟩ := Bytes.exists_toList_eq (Sha256.length_blockKey x.pepper)
    have hcut : x.size ≤ (Sha256.hmac x.pepper (BlindIndex.input plain context)).toList.length :=
      Nat.le_trans x.size_le (Nat.le_of_eq Vector.length_toList.symm)
    simp only [encryptBytes, ← hblock, Bytes.vector?_toList]
    rw [if_pos hcut]
    rfl

/-- The index of a built algorithm is not empty and no longer than a whole code. -/
theorem size_of_build {pepper : Bytes} {size : Nat} (h : (hmacSha256 pepper size).build = .ok a) :
    1 ≤ size ∧ size ≤ 32 := by
  obtain ⟨x, -, rfl, -⟩ := Algorithm.ofPepper_eq_ok_iff.mp h
  exact ⟨x.one_le_size, x.size_le⟩

theorem outputLength_of_build (h : m.build = .ok a) : a.outputLength = m.outputLength := by
  cases m with
  | aesSiv key =>
    obtain ⟨k, -, rfl⟩ := Algorithm.ofKey_eq_ok_iff.mp h
    rfl
  | chaCha20Poly1305 masterKey =>
    obtain ⟨k, -, rfl⟩ := Algorithm.ofKey_eq_ok_iff.mp h
    rfl
  | hmacSha256 pepper size =>
    obtain ⟨x, -, rfl, rfl⟩ := Algorithm.ofPepper_eq_ok_iff.mp h
    rfl

end KeyMaterial

namespace Algorithm

variable {a : Algorithm} {nonce : ChaCha20.Nonce} {plain : Bytes} {context : Context}

/-- What is not too long for the stream cipher is encrypted by every algorithm. -/
theorem exists_encryptBytes (h : plain.length < 64 * (Nat.pow 2 32 - 1)) :
    ∃ b, a.encryptBytes nonce plain context = .ok b := by
  cases a with
  | aesSiv key => exact ⟨_, rfl⟩
  | chaCha20Poly1305 masterKey =>
    obtain ⟨text, htext⟩ := ChaCha20.exists_sealed?_iff.mpr h
    exact ⟨_, encryptBytes_chaCha20Poly1305_eq_ok_iff.mpr ⟨text, htext, rfl⟩⟩
  | hmacSha256 x => exact ⟨_, rfl⟩

end Algorithm

namespace AlgorithmConfig

open Algorithm

inductive HasMaterial (c : AlgorithmConfig) : KeyMaterial → Prop where
  | aesSiv {key : Bytes} : c.kind = aesSivType → c.HasKey key → HasMaterial c (.aesSiv key)
  | chaCha20Poly1305 {masterKey : Bytes} : c.kind = chaCha20Poly1305Type → c.HasKey masterKey →
      HasMaterial c (.chaCha20Poly1305 masterKey)
  | hmacSha256 {pepper : Bytes} {size : Nat} : c.kind = hmacSha256Type → c.HasKey pepper →
      c.HasIndexSize size → HasMaterial c (.hmacSha256 pepper size)

/-- A configured algorithm is built from what its configuration spells. -/
theorem exists_material {c : AlgorithmConfig} {a : Algorithm} (h : ofConfig c = .ok a) :
    ∃ m, c.HasMaterial m ∧ m.build = .ok a := by
  cases ofConfig_eq_ok_iff.mp h with
  | aesSiv hkind hkey =>
    exact ⟨_, .aesSiv hkind hkey, ofKey_eq_ok_iff.mpr ⟨_, rfl, rfl⟩⟩
  | chaCha20Poly1305 hkind hkey =>
    exact ⟨_, .chaCha20Poly1305 hkind hkey, ofKey_eq_ok_iff.mpr ⟨_, rfl, rfl⟩⟩
  | hmacSha256 hkind hkey hsize =>
    exact ⟨_, .hmacSha256 hkind hkey hsize, ofPepper_eq_ok_iff.mpr ⟨_, rfl, rfl, rfl⟩⟩

end AlgorithmConfig

namespace KeyMaterial

/-- Of the checks of the single steps only that of the length can fail, and no bytes are cut past
their end. -/
theorem abort_of_encryptBytes {m : KeyMaterial} {a : Algorithm} {nonce : ChaCha20.Nonce}
    {plain : Bytes} {context : Context} {abort : Abort} (h : m.build = .ok a)
    (habort : m.encryptBytes nonce plain context = .error abort) :
    abort = .failed (.encryption .tooLong) := by
  rw [encryptBytes_of_build h, Except.mapError_eq_error_iff] at habort
  obtain ⟨e, he, rfl⟩ := habort
  rw [Algorithm.encryptBytes_error he]

/-- An algorithm that was built encrypts every value whose plain bytes are not too long for the
stream cipher, under every nonce and at every place, to a text of as many bytes as their number
fixes. Whatever the length is, no other check of a step fails. The algorithms that are configured
are built from what their configuration spells. -/
theorem encryption_never_fails {v : Value} (h : v.plainBytes.length < 64 * (Nat.pow 2 32 - 1))
    (nonce : ChaCha20.Nonce) (context : Context) :
    (∀ m a, build m = .ok a → ∃ t b, a.encrypt nonce v context = .ok (.text t) ∧
      Base64.decode t = .ok b ∧ b.length = m.outputLength v.plainBytes.length ∧
      m.encryptBytes nonce v.plainBytes context = .ok b) ∧
    (∀ m a, build m = .ok a → ∀ plain abort,
      m.encryptBytes nonce plain context = .error abort → abort = .failed (.encryption .tooLong)) ∧
    (∀ pepper size a, build (.hmacSha256 pepper size) = .ok a → 1 ≤ size ∧ size ≤ 32) ∧
    ∀ config a, Algorithm.ofConfig config = .ok a →
      ∃ m, config.HasMaterial m ∧ m.build = .ok a := by
  refine ⟨fun m a hbuild => ?_, fun _ _ hbuild _ _ => abort_of_encryptBytes hbuild,
    fun _ _ _ => size_of_build, fun _ _ => AlgorithmConfig.exists_material⟩
  obtain ⟨b, hb⟩ : ∃ b, a.encryptBytes nonce v.plainBytes context = .ok b :=
    Algorithm.exists_encryptBytes h
  refine ⟨Base64.encode b, b, Except.map_eq_ok_iff.mpr ⟨b, hb, rfl⟩, Base64.decode_encode b, ?_, ?_⟩
  · rw [← outputLength_of_build hbuild]
    exact Algorithm.length_encryptBytes hb
  · rw [encryptBytes_of_build hbuild, hb, Except.mapError_ok]

/-- The stream cipher with a key of zeros makes thirty-one bytes out of three. -/
theorem encryption_never_fails_three_bytes :
    (Value.text "abc").plainBytes.length < 64 * (Nat.pow 2 32 - 1) ∧
      ∃ t b, (Algorithm.chaCha20Poly1305 (.replicate 32 0)).encrypt (.replicate 12 0) (.text "abc")
          ⟨"db", "public", "users", "phone"⟩ = .ok (.text t) ∧
        Base64.decode t = .ok b ∧ b.length = 31 := by
  have h : (Value.text "abc").plainBytes.length < 64 * (Nat.pow 2 32 - 1) := by decide
  have hbuild : build (.chaCha20Poly1305 (List.replicate 32 0)) =
      .ok (.chaCha20Poly1305 (.replicate 32 0)) := by rfl
  obtain ⟨t, b, ht, hb, hlength, -⟩ := (encryption_never_fails h (.replicate 12 0)
    ⟨"db", "public", "users", "phone"⟩).1 _ _ hbuild
  exact ⟨h, t, b, ht, hb, hlength⟩

end KeyMaterial

end ColumnCipher
