import ColumnCipher.Text.Utf8
/-!
The order of texts and the order of their bytes. Texts are ordered by their characters, from the
first on; UTF-8 keeps this order, so the keys of a dictionary are in the order of their bytes.
-/
namespace ColumnCipher.Utf8

/-- The bytes of a text are those of its characters, one after the other. -/
theorem encode_eq_flatMap (s : String) : encode s = s.toList.flatMap String.utf8EncodeChar := by
  have hbytes : s.toList.utf8Encode = s.toByteArray := String.utf8Encode_toList
  rw [encode, ← hbytes, List.utf8Encode]
  simp

/-- Of two characters the smaller one has the smaller bytes, whatever follows. -/
theorem utf8EncodeChar_append_lt {c d : Char} (h : c < d) (x y : List UInt8) :
    String.utf8EncodeChar c ++ x < String.utf8EncodeChar d ++ y := by
  have hlt : c.val.toNat < d.val.toNat := UInt32.lt_iff_toNat_lt.mp h
  have hd : d.val.toNat < 0x110000 := by
    rcases d.valid with hd | ⟨-, hd⟩
    · exact Nat.lt_trans hd (by decide)
    · exact hd
  unfold String.utf8EncodeChar
  generalize c.val.toNat = n at *
  generalize d.val.toNat = m at *
  -- The quotients are taken one after the other, so that the digits of six bits are seen.
  have hquotients (k : Nat) : k / 4096 = k / 64 / 64 ∧ k / 262144 = k / 64 / 64 / 64 := by omega
  have hcontinuation (k : Nat) : (k % 64 + 128) % 256 = k % 64 + 128 := by omega
  dsimp only
  repeat' split
  all_goals
    simp only [List.cons_append, List.nil_append, List.cons_lt_cons_iff, UInt8.lt_iff_toNat_lt,
      ← UInt8.toNat_inj, UInt8.toNat_ofNat', Nat.reducePow, hcontinuation, hquotients]
    omega

theorem flatMap_utf8EncodeChar_lt {l m : List Char} (h : l < m) :
    l.flatMap String.utf8EncodeChar < m.flatMap String.utf8EncodeChar := by
  induction l generalizing m with
  | nil =>
    obtain ⟨d, rest, rfl⟩ := List.exists_cons_of_ne_nil (fun hm => List.lt_irrefl _ (hm ▸ h))
    have hbytes : String.utf8EncodeChar d ≠ [] := by
      rw [← List.length_pos_iff, String.length_utf8EncodeChar]
      exact d.utf8Size_pos
    rw [List.flatMap_nil, List.flatMap_cons]
    cases hb : String.utf8EncodeChar d with
    | nil => exact absurd hb hbytes
    | cons b others => exact List.nil_lt_cons b _
  | cons c rest ih =>
    cases m with
    | nil => exact absurd h (List.not_lt_nil _)
    | cons d others =>
      rw [List.flatMap_cons, List.flatMap_cons]
      rcases List.cons_lt_cons_iff.mp h with h | ⟨rfl, hrest⟩
      · exact utf8EncodeChar_append_lt h _ _
      · exact List.append_left_lt (ih hrest)

/-- The order of texts is that of their bytes. -/
theorem encode_lt_iff {s t : String} : encode s < encode t ↔ s < t := by
  have hmono {s t : String} (h : s < t) : encode s < encode t := by
    rw [encode_eq_flatMap, encode_eq_flatMap]
    exact flatMap_utf8EncodeChar_lt (String.lt_iff.mp h)
  refine ⟨fun h => ?_, hmono⟩
  apply Decidable.byContradiction
  intro hnot
  rcases Decidable.em (s = t) with rfl | hne
  · exact List.lt_irrefl _ h
  · have hts : t < s := Decidable.byContradiction fun hn =>
      hne (String.le_antisymm (String.not_lt.mp hn) (String.not_lt.mp hnot))
    exact List.lt_asymm h (hmono hts)

end ColumnCipher.Utf8
