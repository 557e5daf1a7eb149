import ColumnCipher.Proofs.FloatTexts
import ColumnCipher.Proofs.WellFormedBytes
import ColumnCipher.Value
/-!
Plain bytes. Values of one kind have the same plain bytes only if they are the same, bit for bit, if
they are floats; only floats that are no numbers share one text. Reading plain bytes loses none of
them: well-formed bytes are a text and all others stay bytes, so what is read is the one value that
stands for all values with these plain bytes.
-/
namespace ColumnCipher.Value

inductive SameKind : Value → Value → Prop where
  | bool (a b : Bool) : SameKind (bool a) (bool b)
  | int (m n : Int64) : SameKind (int m) (int n)
  | float (a b : UInt64) : SameKind (float a) (float b)
  | text (s t : String) : SameKind (text s) (text t)
  | bytes (a b : Bytes) : SameKind (bytes a) (bytes b)

def isNaN : Value → Bool
  | float bits => Float64.isNaN bits
  | _ => false

theorem boolText_injective {a b : Bool} (h : boolText a = boolText b) : a = b := by
  cases a <;> cases b <;> first | rfl | exact absurd h (by decide)

theorem ofInt_injective {m n : Int64} (h : Decimal.ofInt m.toInt = Decimal.ofInt n.toInt) :
    m = n := by
  have hread := congrArg (fun s : String => Decimal.readInt64? s.toList) h
  simpa [Decimal.readInt64?_ofInt] using hread

/-- Values of one kind have the same plain bytes only if they are the same. -/
theorem plain_bytes_tell_apart {v w : Value} (hkind : SameKind v w) (hv : v.isNaN = false)
    (hw : w.isNaN = false) : v.plainBytes = w.plainBytes ↔ v = w := by
  refine ⟨fun h => ?_, fun h => h ▸ rfl⟩
  cases hkind with
  | bool a b => exact congrArg bool (boolText_injective (Utf8.encode_injective h))
  | int m n => exact congrArg int (ofInt_injective (Utf8.encode_injective h))
  | float a b => exact congrArg float (Float64.render_inj hv hw (Utf8.encode_injective h))
  | text s t => exact congrArg text (Utf8.encode_injective h)
  | bytes a b => exact congrArg bytes h

/-- The two zeros, the least floats above them, and the least and the greatest integer are told
apart. -/
theorem plain_bytes_tell_apart_near_zero :
    (float 0x8000000000000000).plainBytes ≠ (float 0).plainBytes ∧
    (float 1).plainBytes ≠ (float 2).plainBytes ∧
    (int Int64.minValue).plainBytes ≠ (int Int64.maxValue).plainBytes :=
  ⟨(plain_bytes_tell_apart (.float _ _) (by decide) (by decide)).not.mpr (by decide),
    (plain_bytes_tell_apart (.float _ _) (by decide) (by decide)).not.mpr (by decide),
    (plain_bytes_tell_apart (.int _ _) (by decide) (by decide)).not.mpr (by decide)⟩

/-- Bytes are read as a text exactly if they are well formed. -/
theorem exists_ofPlainBytes_eq_text_iff {b : Bytes} :
    (∃ s, ofPlainBytes b = text s) ↔ Utf8.WellFormed b := by
  rw [← Utf8.exists_decode?_iff, ofPlainBytes]
  cases Utf8.decode? b <;> simp

theorem ofPlainBytes_eq_bytes_iff {b : Bytes} :
    ofPlainBytes b = bytes b ↔ ¬Utf8.WellFormed b := by
  rw [← Utf8.exists_decode?_iff, ofPlainBytes]
  cases Utf8.decode? b <;> simp

theorem plainBytes_canonical (v : Value) : v.canonical.plainBytes = v.plainBytes :=
  plainBytes_ofPlainBytes v.plainBytes

/-- The canonical value stands for exactly the values with its plain bytes. -/
theorem canonical_eq_iff {v w : Value} :
    v.canonical = w.canonical ↔ v.plainBytes = w.plainBytes := by
  constructor
  · intro h
    rw [← plainBytes_canonical v, ← plainBytes_canonical w, h]
  · intro h
    rw [canonical, canonical, h]

/-- No plain bytes are lost when they are read, and they are a text exactly if they are well formed.
So the value that comes back from the plain bytes of a value has the same plain bytes and comes back
itself, texts come back as they were, and so do exactly the bytes that are not well formed, and two
values come back as one exactly if they have the same plain bytes. -/
theorem plain_bytes_read_back :
    (∀ b, (ofPlainBytes b).plainBytes = b) ∧
    (∀ b, (∃ s, ofPlainBytes b = text s) ↔ Utf8.WellFormed b) ∧
    (∀ v : Value, v.canonical.plainBytes = v.plainBytes ∧ v.canonical.canonical = v.canonical) ∧
    (∀ s, (text s).canonical = text s) ∧
    (∀ b, (bytes b).canonical = bytes b ↔ ¬Utf8.WellFormed b) ∧
    ∀ v w : Value, v.canonical = w.canonical ↔ v.plainBytes = w.plainBytes := by
  refine ⟨plainBytes_ofPlainBytes, fun _ => exists_ofPlainBytes_eq_text_iff, fun v => ?_,
    canonical_text, fun _ => ofPlainBytes_eq_bytes_iff, fun _ _ => canonical_eq_iff⟩
  exact ⟨plainBytes_canonical v, canonical_eq_iff.mpr (plainBytes_canonical v)⟩

end ColumnCipher.Value
