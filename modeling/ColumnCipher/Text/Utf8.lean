import ColumnCipher.Bytes
/-!
Texts as byte strings. A text is its well-formed UTF-8 encoding, so encoding loses nothing and
decoding accepts exactly the encodings of texts: no overlong form, no surrogate, no cut sequence.
-/
namespace ColumnCipher.Utf8

def encode (s : String) : Bytes := s.toByteArray.data.toList

def decode? (b : Bytes) : Option String := String.fromUTF8? ⟨b.toArray⟩

@[simp] theorem decode?_encode (s : String) : decode? (encode s) = some s := by
  have hb : (⟨(encode s).toArray⟩ : ByteArray) = s.toByteArray := by simp [encode]
  unfold decode?
  rw [hb, String.fromUTF8?, dif_pos s.isValidUTF8]
  rfl

theorem encode_of_decode? {b : Bytes} {s : String} (h : decode? b = some s) : encode s = b := by
  simp only [decode?, String.fromUTF8?] at h
  split at h
  · obtain rfl := Option.some.inj h
    rfl
  · simp at h

/-- A byte string reads as a text exactly when it is that text's encoding. -/
theorem decode?_eq_some_iff {b : Bytes} {s : String} : decode? b = some s ↔ encode s = b :=
  ⟨encode_of_decode?, fun h => h ▸ decode?_encode s⟩

theorem encode_injective {s t : String} (h : encode s = encode t) : s = t := by
  have := congrArg decode? h
  simpa using this

end ColumnCipher.Utf8
