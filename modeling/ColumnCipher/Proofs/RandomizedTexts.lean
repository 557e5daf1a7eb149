import ColumnCipher.Proofs.CipherText
import ColumnCipher.Proofs.Encryptors
/-!
The texts of the randomized cipher. One value has many texts at one place, but each text begins with
the nonce under which it was written. So a text is accepted exactly if sealing what it opens to,
under the nonce that it begins with, gives the text again.
-/
namespace ColumnCipher

namespace ChaCha20

variable {key : Key} {nonce : Nonce} {associated text message : Bytes}

/-- Opening is the inverse of sealing, on all texts and under each nonce. -/
theorem opened?_eq_some_iff : opened? key nonce associated text = some message ↔
    sealed? key nonce associated message = some text :=
  ⟨sealed?_of_opened?, opened?_of_sealed?⟩

/-- A message fits if its pieces are fewer than the block numbers that are left for them. -/
theorem fits_iff : fits message ↔ message.length < 64 * (Nat.pow 2 32 - 1) := by
  rw [fits, decide_eq_true_eq, Nat.div_lt_iff_lt_mul (by decide), Nat.mul_comm]

theorem exists_sealed?_iff :
    (∃ text, sealed? key nonce associated message = some text) ↔
      message.length < 64 * (Nat.pow 2 32 - 1) := by
  rw [← fits_iff]
  by_cases hfits : fits message
  · simp [sealed?, hfits]
  · simp [sealed?, hfits]

/-- A text has room for its code. -/
theorem opened?_of_length_lt (h : text.length < 16) :
    opened? key nonce associated text = none := by
  rw [opened?, if_pos h]

end ChaCha20

namespace Algorithm

variable {key : ChaCha20.Key} {nonce : ChaCha20.Nonce} {context : Context} {plain b : Bytes}

/-- What the randomized cipher writes is the nonce and then the sealed bytes. -/
theorem encryptBytes_chaCha20Poly1305_eq_ok_iff :
    (chaCha20Poly1305 key).encryptBytes nonce plain context = .ok b ↔
      ∃ text, ChaCha20.sealed? (dataKey key context) nonce context.associatedData plain =
        some text ∧ nonce.toList ++ text = b := by
  rw [encryptBytes]
  cases ChaCha20.sealed? (dataKey key context) nonce context.associatedData plain <;> simp

theorem take_of_encryptBytes
    (h : (chaCha20Poly1305 key).encryptBytes nonce plain context = .ok b) :
    b.take 12 = nonce.toList := by
  obtain ⟨text, -, rfl⟩ := encryptBytes_chaCha20Poly1305_eq_ok_iff.mp h
  exact List.take_left' Vector.length_toList

/-- Bytes are decrypted exactly to the plain bytes that some nonce encrypts to them. -/
theorem decryptBytes_chaCha20Poly1305_eq_ok_iff :
    (chaCha20Poly1305 key).decryptBytes b context = .ok plain ↔
      ∃ nonce, (chaCha20Poly1305 key).encryptBytes nonce plain context = .ok b := by
  constructor
  · intro h
    rw [decryptBytes] at h
    split at h
    · simp at h
    · rename_i nonce hnonce
      split at h
      · rename_i opened hopened
        obtain rfl := Except.ok.inj h
        refine ⟨nonce, encryptBytes_chaCha20Poly1305_eq_ok_iff.mpr
          ⟨_, ChaCha20.opened?_eq_some_iff.mp hopened, ?_⟩⟩
        rw [Bytes.toList_of_vector? hnonce, List.take_append_drop]
      · simp at h
  · rintro ⟨nonce, h⟩
    exact decryptBytes_encryptBytes (by simp) h

/-- Too few bytes for a nonce are told apart from bytes that are not authentic. -/
theorem decryptBytes_of_length_lt (h : b.length < 12) :
    (chaCha20Poly1305 key).decryptBytes b context = .error (.decryption .shorterThanNonce) := by
  have hshort : Bytes.vector? 12 (b.take 12) = none := by
    rw [Bytes.vector?_eq_none_iff, List.length_take]
    omega
  rw [decryptBytes, hshort]

theorem decryptBytes_of_length_lt_overhead (h : 12 ≤ b.length) (hlt : b.length < 28) :
    (chaCha20Poly1305 key).decryptBytes b context = .error (.decryption .unauthenticated) := by
  obtain ⟨nonce, hnonce⟩ : ∃ nonce, Bytes.vector? 12 (b.take 12) = some nonce := by
    apply Option.ne_none_iff_exists'.mp
    rw [Ne, Bytes.vector?_eq_none_iff, List.length_take, Decidable.not_not]
    omega
  have hopened : ChaCha20.opened? (dataKey key context) nonce context.associatedData
      (b.drop 12) = none := by
    apply ChaCha20.opened?_of_length_lt
    rw [List.length_drop]
    omega
  simp only [decryptBytes, hnonce, hopened]

/-- A text is what is written for a value if it is the text form of what is written for its plain
bytes. -/
theorem encrypt_eq_ok_text_iff {a : Algorithm} {v : Value} {t : String} :
    a.encrypt nonce v context = .ok (.text t) ↔
      ∃ b, a.encryptBytes nonce v.plainBytes context = .ok b ∧ decodeCipher (.text t) = .ok b := by
  simp only [encrypt, Except.map_eq_ok_iff, decodeCipher_eq_ok_iff, @eq_comm _ (Value.text t)]

/-- The randomized cipher reads a text as `v` if `v` is what its plain bytes are read as and some
nonce encrypts it to this text. -/
theorem decrypt_chaCha20Poly1305_eq_ok_iff {t : String} {v : Value} :
    (chaCha20Poly1305 key).decrypt (.text t) context = .ok v ↔
      v = v.canonical ∧ ∃ nonce, (chaCha20Poly1305 key).encrypt nonce v context = .ok (.text t) := by
  simp only [decrypt_eq_ok_iff (a := chaCha20Poly1305 key) (by simp), encrypt_eq_ok_text_iff,
    decryptBytes_chaCha20Poly1305_eq_ok_iff, ← decodeCipher_eq_ok_iff]
  constructor
  · rintro ⟨b, hdecode, ⟨nonce, hwritten⟩, hcanonical⟩
    exact ⟨hcanonical, nonce, b, hwritten, hdecode⟩
  · rintro ⟨hcanonical, nonce, b, hwritten, hdecode⟩
    exact ⟨b, hdecode, ⟨nonce, hwritten⟩, hcanonical⟩

theorem take_of_encrypt {v : Value} {t : String}
    (h : (chaCha20Poly1305 key).encrypt nonce v context = .ok (.text t))
    (hdecode : decodeCipher (.text t) = .ok b) : b.take 12 = nonce.toList := by
  obtain ⟨b', hwritten, hdecode'⟩ := encrypt_eq_ok_text_iff.mp h
  obtain rfl := Except.ok.inj (hdecode'.symm.trans hdecode)
  exact take_of_encryptBytes hwritten

/-- A value is encrypted exactly if its plain bytes are within the limit of the cipher. -/
theorem exists_encrypt_chaCha20Poly1305_iff {v : Value} :
    (∃ t, (chaCha20Poly1305 key).encrypt nonce v context = .ok (.text t)) ↔
      v.plainBytes.length < 64 * (Nat.pow 2 32 - 1) := by
  have hlimit : (∃ text, ChaCha20.sealed? (dataKey key context) nonce context.associatedData
      v.plainBytes = some text) ↔ _ := ChaCha20.exists_sealed?_iff
  rw [← hlimit]
  constructor
  · rintro ⟨t, h⟩
    obtain ⟨b, hwritten, -⟩ := encrypt_eq_ok_text_iff.mp h
    obtain ⟨text, hsealed, -⟩ := encryptBytes_chaCha20Poly1305_eq_ok_iff.mp hwritten
    exact ⟨text, hsealed⟩
  · rintro ⟨text, hsealed⟩
    refine ⟨Base64.encode (nonce.toList ++ text), Except.map_eq_ok_iff.mpr ⟨_, ?_, rfl⟩⟩
    exact encryptBytes_chaCha20Poly1305_eq_ok_iff.mpr ⟨text, hsealed, rfl⟩

theorem decryptBytes_chaCha20Poly1305_error {e : Error}
    (h : (chaCha20Poly1305 key).decryptBytes b context = .error e) :
    ∃ fault, e = .decryption fault := by
  simp only [decryptBytes] at h
  split at h
  · exact ⟨_, (Except.error.inj h).symm⟩
  · split at h
    · simp at h
    · exact ⟨_, (Except.error.inj h).symm⟩

/-- A text that no nonce writes for any value is a failed decryption. -/
theorem decrypt_of_not_written {t : String}
    (h : ∀ nonce v, (chaCha20Poly1305 key).encrypt nonce v context ≠ .ok (.text t)) :
    ∃ fault, (chaCha20Poly1305 key).decrypt (.text t) context = .error (.decryption fault) := by
  cases hresult : (chaCha20Poly1305 key).decrypt (.text t) context with
  | ok v =>
    obtain ⟨-, nonce, hwritten⟩ := decrypt_chaCha20Poly1305_eq_ok_iff.mp hresult
    exact absurd hwritten (h nonce v)
  | error e =>
    rw [decrypt_eq (by simp)] at hresult
    split at hresult
    · rename_i e' hdecode
      obtain rfl := Except.error.inj hresult
      obtain ⟨fault, rfl⟩ := decodeCipher_error hdecode
      exact ⟨fault, rfl⟩
    · obtain ⟨fault, rfl⟩ :=
        decryptBytes_chaCha20Poly1305_error (Except.map_eq_error_iff.mp hresult)
      exact ⟨fault, rfl⟩

theorem decrypt_of_decryptBytes_error {t : String} {e : Error}
    (hdecode : decodeCipher (.text t) = .ok b)
    (h : (chaCha20Poly1305 key).decryptBytes b context = .error e) :
    (chaCha20Poly1305 key).decrypt (.text t) context = .error e := by
  rw [decrypt_eq (by simp), hdecode]
  exact Except.map_eq_error_iff.mpr h

/-- The randomized cipher accepts a text exactly as the canonical value that it encrypts to this text
under one nonce, which is the first twelve of the decoded bytes. Every value within the limit of the
cipher is encrypted under each nonce, and no other value is. A text that is not written for any value
is a failed decryption; so is each text of fewer than twelve bytes, and each of fewer than
twenty-eight, which has no room for its nonce and its code. -/
theorem chaCha20Poly1305_accepts_what_it_writes (key : ChaCha20.Key) (context : Context) :
    (∀ (t : String) (v : Value), (chaCha20Poly1305 key).decrypt (.text t) context = .ok v ↔
      v = v.canonical ∧
        ∃! nonce, (chaCha20Poly1305 key).encrypt nonce v context = .ok (.text t)) ∧
    (∀ (t : String) (v : Value) (nonce : ChaCha20.Nonce),
      (chaCha20Poly1305 key).encrypt nonce v context = .ok (.text t) →
        ∃ b, decodeCipher (.text t) = .ok b ∧ b.take 12 = nonce.toList) ∧
    (∀ (v : Value) (nonce : ChaCha20.Nonce),
      (∃ t, (chaCha20Poly1305 key).encrypt nonce v context = .ok (.text t)) ↔
        v.plainBytes.length < 64 * (Nat.pow 2 32 - 1)) ∧
    (∀ t : String,
      (∀ nonce v, (chaCha20Poly1305 key).encrypt nonce v context ≠ .ok (.text t)) →
        ∃ fault,
          (chaCha20Poly1305 key).decrypt (.text t) context = .error (.decryption fault)) ∧
    (∀ (t : String) (b : Bytes), decodeCipher (.text t) = .ok b → b.length < 28 →
      (chaCha20Poly1305 key).decrypt (.text t) context = .error (.decryption
        (if b.length < 12 then .shorterThanNonce else .unauthenticated))) := by
  refine ⟨?_, ?_, fun _ _ => exists_encrypt_chaCha20Poly1305_iff,
    fun _ => decrypt_of_not_written, ?_⟩
  · intro t v
    rw [decrypt_chaCha20Poly1305_eq_ok_iff]
    refine and_congr_right fun _ => ⟨?_, ExistsUnique.exists⟩
    rintro ⟨nonce, h⟩
    obtain ⟨b, -, hdecode⟩ := encrypt_eq_ok_text_iff.mp h
    refine ⟨nonce, h, fun nonce' h' => Vector.toList_inj.mp ?_⟩
    rw [← take_of_encrypt h hdecode, ← take_of_encrypt h' hdecode]
  · intro t v nonce h
    obtain ⟨b, -, hdecode⟩ := encrypt_eq_ok_text_iff.mp h
    exact ⟨b, hdecode, take_of_encrypt h hdecode⟩
  · intro t b hdecode hlength
    apply decrypt_of_decryptBytes_error hdecode
    split
    · rename_i hshort
      exact decryptBytes_of_length_lt hshort
    · rename_i hlong
      exact decryptBytes_of_length_lt_overhead (Nat.le_of_not_lt hlong) hlength

end Algorithm

end ColumnCipher
