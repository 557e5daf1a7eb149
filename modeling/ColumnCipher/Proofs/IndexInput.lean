import ColumnCipher.Proofs.DomainSeparation
/-!
What a blind index authenticates. The length of the plain bytes comes first and is eight bytes wide,
so the message says by itself where the value ends and the place of the column begins. Reading it
gives back both, and no two pairs of a value and a place share a message.
-/
namespace ColumnCipher

namespace BlindIndex

/-- Takes an authenticated message apart: the first eight bytes are the length of the value. -/
def readInput (message : Bytes) : Bytes × Bytes :=
  let length := Bytes.ofBigEndian (message.take 8)
  let rest := message.drop 8
  (rest.take length, rest.drop length)

/-- The value and the place are read back from the message that they make. -/
theorem readInput_input {plain : Bytes} (h : plain.length < Nat.pow 2 64) (context : Context) :
    readInput (input plain context) = (plain, context.associatedData) := by
  have hwidth : (Bytes.bigEndian 8 plain.length).length = 8 := Bytes.length_bigEndian 8 _
  have hlength : Bytes.ofBigEndian (Bytes.bigEndian 8 plain.length) = plain.length :=
    Bytes.ofBigEndian_bigEndian h
  rw [readInput, input, List.append_assoc, List.take_left' hwidth, List.drop_left' hwidth, hlength,
    List.take_left' rfl, List.drop_left' rfl]

/-- A message is made by one value and one place, as far as their bytes go. -/
theorem input_injective {p q : Bytes} {a b : Context} (hp : p.length < Nat.pow 2 64)
    (hq : q.length < Nat.pow 2 64) (h : input p a = input q b) :
    p = q ∧ a.associatedData = b.associatedData := by
  have hread := congrArg readInput h
  rw [readInput_input hp, readInput_input hq] at hread
  exact Prod.mk.inj hread

end BlindIndex

namespace Context

/-- The bytes that are authenticated for a place tell its display. -/
theorem associatedData_eq_iff_display {a b : Context} :
    a.associatedData = b.associatedData ↔ a.display = b.display :=
  ⟨Utf8.encode_injective, congrArg Utf8.encode⟩

end Context

namespace BlindIndex

/-- Two values at two places are authenticated by one message exactly if they have the same plain
bytes and the places have the same display. The message is the length of the plain bytes in eight
bytes, the plain bytes and the display; its code under the pepper, cut to the size of the index, is
what encryption writes. -/
theorem input_is_unambiguous {v w : Value} (hv : v.plainBytes.length < Nat.pow 2 64)
    (hw : w.plainBytes.length < Nat.pow 2 64) (a b : Context) :
    (∀ (x : BlindIndex) (nonce : ChaCha20.Nonce),
      (Algorithm.hmacSha256 x).encrypt nonce v a =
        .ok (encodeCipher ((Sha256.hmac x.pepper (input v.plainBytes a)).toList.take x.size))) ∧
    input v.plainBytes a =
      Bytes.bigEndian 8 v.plainBytes.length ++ v.plainBytes ++ Utf8.encode a.display ∧
    (input v.plainBytes a = input w.plainBytes b ↔
      v.plainBytes = w.plainBytes ∧ a.display = b.display) := by
  refine ⟨fun _ _ => rfl, rfl, ?_, ?_⟩
  · intro h
    obtain ⟨hplain, hplace⟩ := input_injective hv hw h
    exact ⟨hplain, Context.associatedData_eq_iff_display.mp hplace⟩
  · rintro ⟨hplain, hplace⟩
    rw [hplain, input_eq_iff]
    exact Context.associatedData_eq_iff_display.mpr hplace

/-- A letter that moves from the end of the value to the beginning of the database name is noticed,
although the value and the place have the same bytes in a row. -/
theorem input_is_unambiguous_moved_letter :
    let v : Value := .text "ad"
    let w : Value := .text "a"
    let a : Context := ⟨"b", "s", "t", "c"⟩
    let b : Context := ⟨"db", "s", "t", "c"⟩
    v.plainBytes ++ a.associatedData = w.plainBytes ++ b.associatedData ∧
      input v.plainBytes a ≠ input w.plainBytes b := by
  intro v w a b
  have hv : v.plainBytes.length < Nat.pow 2 64 := by decide
  have hw : w.plainBytes.length < Nat.pow 2 64 := by decide
  have hne : ¬(v.plainBytes = w.plainBytes ∧ a.display = b.display) := by decide
  obtain ⟨-, -, hiff⟩ := input_is_unambiguous hv hw a b
  exact ⟨by decide, fun h => hne (hiff.mp h)⟩

end BlindIndex

end ColumnCipher
