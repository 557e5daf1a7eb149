import ColumnCipher.Algorithm.Basic
import Mathlib.Logic.ExistsUnique
/-!
Cipher texts and the values behind them. The text form of bytes is exact, so a readable algorithm
can be studied on bytes: decryption undoes encryption, and the deterministic cipher accepts no text
but those that it writes.
-/
namespace ColumnCipher

/-- A cipher value is decoded exactly to the bytes that it is the text form of. -/
theorem decodeCipher_eq_ok_iff {c : Value} {b : Bytes} :
    decodeCipher c = .ok b ↔ c = encodeCipher b := by
  cases c with
  | text s =>
    rw [decodeCipher, Except.mapError_eq_ok_iff, Base64.decode_eq_ok_iff, encodeCipher,
      Value.text.injEq]
    exact eq_comm
  | _ => simp [decodeCipher, encodeCipher]

@[simp] theorem decodeCipher_encodeCipher (b : Bytes) : decodeCipher (encodeCipher b) = .ok b :=
  decodeCipher_eq_ok_iff.mpr rfl

namespace Algorithm

/-- What was encrypted can be decrypted, except for a blind index. -/
theorem decryptBytes_encryptBytes {a : Algorithm} {nonce : ChaCha20.Nonce} {plain b : Bytes}
    {context : Context} (ha : ∀ x, a ≠ .hmacSha256 x)
    (h : a.encryptBytes nonce plain context = .ok b) : a.decryptBytes b context = .ok plain := by
  cases a with
  | aesSiv key =>
    obtain rfl := Except.ok.inj h
    simp [decryptBytes]
  | chaCha20Poly1305 masterKey =>
    simp only [encryptBytes] at h
    split at h
    · rename_i text hseal
      obtain rfl := Except.ok.inj h
      have hlen : nonce.toList.length = 12 := Vector.length_toList
      have hopen := ChaCha20.opened?_of_sealed? hseal
      simp only [decryptBytes, List.take_left' hlen, List.drop_left' hlen, Bytes.vector?_toList,
        hopen]
    · simp at h
  | hmacSha256 x => exact absurd rfl (ha x)

/-- An encrypted value decrypts to its canonical form. -/
theorem decrypt_encrypt {a : Algorithm} {nonce : ChaCha20.Nonce} {v c : Value} {context : Context}
    (ha : ∀ x, a ≠ .hmacSha256 x) (h : a.encrypt nonce v context = .ok c) :
    a.decrypt c context = .ok v.canonical := by
  obtain ⟨b, hb, rfl⟩ := Except.map_eq_ok_iff.mp h
  rw [decrypt_eq ha, decodeCipher_encodeCipher]
  exact Except.map_eq_ok_iff.mpr ⟨v.plainBytes, decryptBytes_encryptBytes ha hb, rfl⟩

def outputLength : Algorithm → Nat → Nat
  | aesSiv _, length => length + 16
  | chaCha20Poly1305 _, length => length + 28
  | hmacSha256 x, _ => x.size

theorem length_encryptBytes {a : Algorithm} {nonce : ChaCha20.Nonce} {plain b : Bytes}
    {context : Context} (h : a.encryptBytes nonce plain context = .ok b) :
    b.length = a.outputLength plain.length := by
  cases a with
  | aesSiv key =>
    obtain rfl := Except.ok.inj h
    rw [Siv.length_sealed, outputLength, Nat.add_comm]
  | chaCha20Poly1305 masterKey =>
    simp only [encryptBytes] at h
    split at h
    · rename_i text hseal
      obtain rfl := Except.ok.inj h
      rw [List.length_append, Vector.length_toList, ChaCha20.length_sealed? hseal, outputLength]
      omega
    · simp at h
  | hmacSha256 x =>
    obtain rfl := Except.ok.inj h
    rw [BlindIndex.index, List.length_take, Vector.length_toList, outputLength]
    exact Nat.min_eq_left x.size_le

/-- A readable algorithm reads a cipher value as `v` if it decrypts the bytes behind it to the bytes
of `v` and `v` is what these are read as. -/
theorem decrypt_eq_ok_iff {a : Algorithm} (ha : ∀ x, a ≠ .hmacSha256 x) {c v : Value}
    {context : Context} : a.decrypt c context = .ok v ↔
      ∃ b, c = encodeCipher b ∧ a.decryptBytes b context = .ok v.plainBytes ∧
        v = v.canonical := by
  rw [decrypt_eq ha]
  constructor
  · intro h
    split at h
    · simp at h
    · rename_i b hdecode
      obtain ⟨plain, hplain, hv⟩ := Except.map_eq_ok_iff.mp h
      obtain ⟨hbytes, hcanonical⟩ := Value.ofPlainBytes_eq_iff.mp hv
      refine ⟨b, decodeCipher_eq_ok_iff.mp hdecode, ?_, hcanonical⟩
      rw [hbytes]
      exact hplain
  · rintro ⟨b, rfl, hplain, hcanonical⟩
    rw [decodeCipher_encodeCipher]
    refine Except.map_eq_ok_iff.mpr ⟨v.plainBytes, hplain, ?_⟩
    exact Value.ofPlainBytes_eq_iff.mpr ⟨rfl, hcanonical⟩

theorem decryptBytes_aesSiv_eq_ok_iff {key : Siv.Key} {b plain : Bytes} {context : Context} :
    (aesSiv key).decryptBytes b context = .ok plain ↔
      Siv.sealed key (sivHeaders context) plain = b := by
  rw [← Siv.opened?_eq_some_iff, decryptBytes]
  cases Siv.opened? key (sivHeaders context) b <;> simp

/-- The deterministic cipher reads a cipher value as `v` if the bytes of `v` seal to it and `v` is
what these bytes are read as. -/
theorem decrypt_aesSiv_eq_ok_iff {key : Siv.Key} {c v : Value} {context : Context} :
    (aesSiv key).decrypt c context = .ok v ↔
      c = encodeCipher (Siv.sealed key (sivHeaders context) v.plainBytes) ∧ v = v.canonical := by
  rw [decrypt_eq_ok_iff (by simp)]
  simp only [decryptBytes_aesSiv_eq_ok_iff]
  constructor
  · rintro ⟨b, rfl, rfl, hcanonical⟩
    exact ⟨rfl, hcanonical⟩
  · rintro ⟨rfl, hcanonical⟩
    exact ⟨_, rfl, rfl, hcanonical⟩

/-- The deterministic cipher writes the seal of the plain bytes, whatever nonce it is offered. -/
theorem encrypt_aesSiv (key : Siv.Key) (nonce : ChaCha20.Nonce) (v : Value) (context : Context) :
    (aesSiv key).encrypt nonce v context =
      .ok (encodeCipher (Siv.sealed key (sivHeaders context) v.plainBytes)) := rfl

/-- The deterministic cipher accepts a text exactly as the canonical value that it encrypts to this
text. So each byte string has one accepted text at each place, and a decrypted value encrypts to the
text that it was read from. -/
theorem aesSiv_accepts_what_it_writes (key : Siv.Key) (context : Context)
    (nonce : ChaCha20.Nonce) :
    (∀ (t : String) (v : Value), (aesSiv key).decrypt (.text t) context = .ok v ↔
      (aesSiv key).encrypt nonce v context = .ok (.text t) ∧ v = v.canonical) ∧
    (∀ b : Bytes, ∃! t : String, ∃ v : Value,
      (aesSiv key).decrypt (.text t) context = .ok v ∧ v.plainBytes = b) ∧
    (∀ (t : String) (v : Value), (aesSiv key).decrypt (.text t) context = .ok v →
      (aesSiv key).encrypt nonce v context = .ok (.text t)) := by
  have accepts : ∀ (t : String) (v : Value), (aesSiv key).decrypt (.text t) context = .ok v ↔
      (aesSiv key).encrypt nonce v context = .ok (.text t) ∧ v = v.canonical := by
    intro t v
    rw [decrypt_aesSiv_eq_ok_iff, encrypt_aesSiv, Except.ok.injEq, eq_comm]
  refine ⟨accepts, ?_, fun t v h => ((accepts t v).mp h).1⟩
  intro b
  let written := Siv.sealed key (sivHeaders context) b
  have hplain : (Value.ofPlainBytes b).plainBytes = b := Value.plainBytes_ofPlainBytes b
  refine ⟨Base64.encode written, ⟨.ofPlainBytes b, ?_, hplain⟩, ?_⟩
  · have hb := (Value.ofPlainBytes_eq_iff (b := b) (v := .ofPlainBytes b)).mp rfl
    rw [decrypt_aesSiv_eq_ok_iff, hplain]
    exact ⟨rfl, hb.2⟩
  · rintro t ⟨v, hv, hvb⟩
    obtain ⟨ht, -⟩ := decrypt_aesSiv_eq_ok_iff.mp hv
    rw [hvb] at ht
    exact Value.text.inj ht

end Algorithm

end ColumnCipher
