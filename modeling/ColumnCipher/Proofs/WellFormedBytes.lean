import ColumnCipher.Proofs.ByteOrder
/-!
Well-formed bytes. The bytes of a text are sequences of one to four bytes, one sequence for each
character: the first byte tells how many bytes follow it, and all of them hold the digits of one
number. Bytes read as a text exactly if they are such sequences of which none is longer than its
number needs, and none holds half of a surrogate pair or a number beyond the last character.
-/
namespace ColumnCipher.Utf8

def Continues (b : UInt8) : Prop := 0x80 ≤ b.toNat ∧ b.toNat < 0xC0

/-- A first byte and all the bytes that it asks for, with the number that they hold. -/
inductive Holds : Bytes → Nat → Prop where
  | one {a : UInt8} {n : Nat} : a.toNat < 0x80 → a.toNat = n → Holds [a] n
  | two {a b : UInt8} {n : Nat} : 0xC0 ≤ a.toNat → a.toNat < 0xE0 → Continues b →
      (a.toNat - 0xC0) * 64 + (b.toNat - 0x80) = n → Holds [a, b] n
  | three {a b c : UInt8} {n : Nat} : 0xE0 ≤ a.toNat → a.toNat < 0xF0 → Continues b →
      Continues c → ((a.toNat - 0xE0) * 64 + (b.toNat - 0x80)) * 64 + (c.toNat - 0x80) = n →
      Holds [a, b, c] n
  | four {a b c d : UInt8} {n : Nat} : 0xF0 ≤ a.toNat → a.toNat < 0xF8 → Continues b →
      Continues c → Continues d →
      (((a.toNat - 0xF0) * 64 + (b.toNat - 0x80)) * 64 + (c.toNat - 0x80)) * 64 +
        (d.toNat - 0x80) = n →
      Holds [a, b, c, d] n

def least : Nat → Nat
  | 0 | 1 => 0
  | 2 => 0x80
  | 3 => 0x800
  | _ => 0x10000

structure IsCharacter (s : Bytes) (n : Nat) : Prop where
  holds : Holds s n
  notOverlong : least s.length ≤ n
  notSurrogate : ¬(0xD800 ≤ n ∧ n < 0xE000)
  inRange : n < 0x110000

/-- Bytes that are the sequences of some characters, one after the other. -/
inductive WellFormed : Bytes → Prop where
  | nil : WellFormed []
  | cons {s rest : Bytes} {n : Nat} : IsCharacter s n → WellFormed rest → WellFormed (s ++ rest)

theorem holds_utf8EncodeChar (c : Char) :
    Holds (String.utf8EncodeChar c) c.toNat ∧
      least (String.utf8EncodeChar c).length ≤ c.toNat := by
  have hbound : c.toNat < 0x110000 := by
    have hvalid : c.toNat < 0xD800 ∨ 0xDFFF < c.toNat ∧ c.toNat < 0x110000 := c.valid
    omega
  have hbyte (k : Nat) : (UInt8.ofNat k).toNat = k % 256 := UInt8.toNat_ofNat'
  unfold String.utf8EncodeChar
  change c.val.toNat < _ at hbound
  change Holds _ c.val.toNat ∧ _ ≤ c.val.toNat
  generalize c.val.toNat = n at *
  dsimp only
  split
  · exact ⟨.one (by simp only [hbyte]; omega) (by simp only [hbyte]; omega), Nat.zero_le n⟩
  split
  · constructor
    · refine .two ?_ ?_ ⟨?_, ?_⟩ ?_ <;> simp only [hbyte] <;> omega
    · change 0x80 ≤ n
      omega
  split
  · constructor
    · refine .three ?_ ?_ ⟨?_, ?_⟩ ⟨?_, ?_⟩ ?_ <;> simp only [hbyte] <;> omega
    · change 0x800 ≤ n
      omega
  · constructor
    · refine .four ?_ ?_ ⟨?_, ?_⟩ ⟨?_, ?_⟩ ⟨?_, ?_⟩ ?_ <;> simp only [hbyte] <;> omega
    · change 0x10000 ≤ n
      omega

theorem isCharacter_utf8EncodeChar (c : Char) :
    IsCharacter (String.utf8EncodeChar c) c.toNat := by
  obtain ⟨hholds, hleast⟩ := holds_utf8EncodeChar c
  have hvalid : c.toNat < 0xD800 ∨ 0xDFFF < c.toNat ∧ c.toNat < 0x110000 := c.valid
  exact ⟨hholds, hleast, by omega, by omega⟩

theorem IsCharacter.exists_utf8EncodeChar {s : Bytes} {n : Nat} (h : IsCharacter s n) :
    ∃ c, String.utf8EncodeChar c = s := by
  obtain ⟨hholds, hleast, hsurrogate, hrange⟩ := h
  have hvalid : n.isValidChar := by
    rw [Nat.isValidChar]
    omega
  refine ⟨.ofNatAux n hvalid, ?_⟩
  have hn : (Char.ofNatAux n hvalid).val.toNat = n := rfl
  have hbyte (k : Nat) : (UInt8.ofNat k).toNat = k % 256 := UInt8.toNat_ofNat'
  rw [String.utf8EncodeChar, hn]
  cases hholds with
  | one ha hsum =>
    rw [if_pos (by omega)]
    simp only [List.cons.injEq, ← UInt8.toNat_inj, hbyte, and_true]
    omega
  | two _ _ hb hsum =>
    obtain ⟨hb, hb'⟩ := hb
    change 0x80 ≤ n at hleast
    rw [if_neg (by omega), if_pos (by omega)]
    simp only [List.cons.injEq, ← UInt8.toNat_inj, hbyte, and_true]
    omega
  | three _ _ hb hc hsum =>
    obtain ⟨hb, hb'⟩ := hb
    obtain ⟨hc, hc'⟩ := hc
    change 0x800 ≤ n at hleast
    rw [if_neg (by omega), if_neg (by omega), if_pos (by omega)]
    simp only [List.cons.injEq, ← UInt8.toNat_inj, hbyte, and_true]
    omega
  | four _ _ hb hc hd hsum =>
    obtain ⟨hb, hb'⟩ := hb
    obtain ⟨hc, hc'⟩ := hc
    obtain ⟨hd, hd'⟩ := hd
    change 0x10000 ≤ n at hleast
    rw [if_neg (by omega), if_neg (by omega), if_neg (by omega)]
    simp only [List.cons.injEq, ← UInt8.toNat_inj, hbyte, and_true]
    omega

theorem wellFormed_encode (s : String) : WellFormed (encode s) := by
  rw [encode_eq_flatMap]
  generalize s.toList = l
  induction l with
  | nil => exact .nil
  | cons c l ih => exact .cons (isCharacter_utf8EncodeChar c) ih

theorem WellFormed.exists_encode {b : Bytes} (h : WellFormed b) : ∃ s, encode s = b := by
  have hchars : ∃ l : List Char, l.flatMap String.utf8EncodeChar = b := by
    induction h with
    | nil => exact ⟨[], rfl⟩
    | cons hfirst _ ih =>
      obtain ⟨c, rfl⟩ := hfirst.exists_utf8EncodeChar
      obtain ⟨l, rfl⟩ := ih
      exact ⟨c :: l, rfl⟩
  obtain ⟨l, rfl⟩ := hchars
  exact ⟨String.ofList l, by rw [encode_eq_flatMap, String.toList_ofList]⟩

/-- Bytes read as a text exactly if they are well formed. -/
theorem exists_decode?_iff {b : Bytes} : (∃ s, decode? b = some s) ↔ WellFormed b := by
  simp only [decode?_eq_some_iff]
  constructor
  · rintro ⟨s, rfl⟩
    exact wellFormed_encode s
  · exact WellFormed.exists_encode

end ColumnCipher.Utf8
