import ColumnCipher.Proofs.CipherText
/-!
Which columns share their associated data. A place is known to the algorithms by the pieces of its
names between bars, so a bar that moves from one name to the next goes unnoticed. Places whose names
have their bars at the same names are told apart.
-/
namespace ColumnCipher

namespace Context

/-- The pieces of the four names between bars, in one row. -/
def pieces (c : Context) : List (List Char) :=
  [c.database, c.schema, c.table, c.column].flatMap fun name => name.toList.splitOn '|'

def bars (name : String) : Nat := name.toList.count '|'

theorem splitOn_display (c : Context) : c.display.toList.splitOn '|' = c.pieces := by
  have hbar : "|".toList = ['|'] := rfl
  simp only [display, String.toList_append, hbar, List.append_assoc, List.cons_append,
    List.nil_append, List.splitOn_append_cons_self, pieces, List.flatMap_cons, List.flatMap_nil,
    List.append_nil]

theorem splitOn_injective {s t : List Char} (h : s.splitOn '|' = t.splitOn '|') : s = t := by
  have hjoin := congrArg ['|'].intercalate h
  rwa [List.intercalate_splitOn, List.intercalate_splitOn] at hjoin

/-- Places share their associated data exactly if they have the same pieces between bars. -/
theorem associatedData_eq_iff {a b : Context} :
    a.associatedData = b.associatedData ↔ a.pieces = b.pieces := by
  rw [← splitOn_display, ← splitOn_display]
  constructor
  · intro h
    rw [Utf8.encode_injective h]
  · intro h
    rw [associatedData, associatedData, String.toList_inj.mp (splitOn_injective h)]

theorem length_splitOn_bar (s : List Char) : (s.splitOn '|').length = s.count '|' + 1 := by
  induction s with
  | nil => simp
  | cons c s ih =>
    rw [List.splitOn_cons_eq_if_modifyHead, List.count_cons]
    split <;> simp_all

/-- Pieces of names with equally many bars are those of one name. -/
theorem name_eq_of_pieces {s t : String} {rest rest' : List (List Char)} (hbars : bars s = bars t)
    (h : s.toList.splitOn '|' ++ rest = t.toList.splitOn '|' ++ rest') : s = t ∧ rest = rest' := by
  have hlength : (s.toList.splitOn '|').length = (t.toList.splitOn '|').length := by
    rw [length_splitOn_bar, length_splitOn_bar]
    exact congrArg (· + 1) hbars
  obtain ⟨hname, hrest⟩ := List.append_inj h hlength
  exact ⟨String.toList_inj.mp (splitOn_injective hname), hrest⟩

/-- The associated data tells places apart whose bars are at the same names. -/
theorem eq_of_associatedData {a b : Context} (hdatabase : bars a.database = bars b.database)
    (hschema : bars a.schema = bars b.schema) (htable : bars a.table = bars b.table)
    (h : a.associatedData = b.associatedData) : a = b := by
  have hpieces := associatedData_eq_iff.mp h
  simp only [pieces, List.flatMap_cons, List.flatMap_nil, List.append_nil] at hpieces
  obtain ⟨h1, hpieces⟩ := name_eq_of_pieces hdatabase hpieces
  obtain ⟨h2, hpieces⟩ := name_eq_of_pieces hschema hpieces
  obtain ⟨h3, hpieces⟩ := name_eq_of_pieces htable hpieces
  have h4 := String.toList_inj.mp (splitOn_injective hpieces)
  cases a
  cases b
  simp_all

end Context

namespace BlindIndex

/-- For one value the input of an index depends on the associated data, and shows it. -/
theorem input_eq_iff {plain : Bytes} {a b : Context} :
    input plain a = input plain b ↔ a.associatedData = b.associatedData := by
  rw [input, input, List.append_cancel_left_eq]

end BlindIndex

namespace Algorithm

/-- Of a place an algorithm sees the associated data only. -/
theorem encrypt_congr {a b : Context} (h : a.associatedData = b.associatedData) (x : Algorithm)
    (nonce : ChaCha20.Nonce) (v : Value) : x.encrypt nonce v a = x.encrypt nonce v b := by
  cases x <;>
    simp only [encrypt, encryptBytes, sivHeaders, dataKey, BlindIndex.index, BlindIndex.input, h]

theorem decrypt_congr {a b : Context} (h : a.associatedData = b.associatedData) (x : Algorithm)
    (c : Value) : x.decrypt c a = x.decrypt c b := by
  cases x <;> simp only [decrypt, decryptBytes, sivHeaders, dataKey, h]

end Algorithm

namespace Context

/-- Two places share their associated data exactly if their names have the same pieces between bars.
So different places have different associated data, and different index inputs for one value, if as
many bars stand in the database, the schema and the table of one as in those of the other; and
places with the same associated data are one place to every algorithm. -/
theorem associatedData_separates (a b : Context) :
    (a.associatedData = b.associatedData ↔ a.pieces = b.pieces) ∧
    (bars a.database = bars b.database → bars a.schema = bars b.schema →
      bars a.table = bars b.table → a ≠ b → a.associatedData ≠ b.associatedData ∧
        ∀ plain, BlindIndex.input plain a ≠ BlindIndex.input plain b) ∧
    (a.associatedData = b.associatedData → ∀ (x : Algorithm) (nonce : ChaCha20.Nonce) (v : Value),
      x.encrypt nonce v a = x.encrypt nonce v b ∧ x.decrypt v a = x.decrypt v b) := by
  refine ⟨associatedData_eq_iff, ?_, ?_⟩
  · intro hdatabase hschema htable hne
    have hdata : a.associatedData ≠ b.associatedData :=
      fun h => hne (eq_of_associatedData hdatabase hschema htable h)
    exact ⟨hdata, fun plain h => hdata (BlindIndex.input_eq_iff.mp h)⟩
  · intro h x nonce v
    exact ⟨x.encrypt_congr h nonce v, x.decrypt_congr h v⟩

/-- Two columns of one schema are told apart although bars stand in its name and in one of theirs. -/
theorem associatedData_separates_columns :
    let a : Context := ⟨"db", "s|1", "users", "phone"⟩
    let b : Context := ⟨"db", "s|1", "users", "pho|ne"⟩
    bars a.schema = 1 ∧ a.associatedData ≠ b.associatedData ∧
      ∀ plain, BlindIndex.input plain a ≠ BlindIndex.input plain b := by
  intro a b
  exact ⟨by decide +kernel, (associatedData_separates a b).2.1 rfl rfl rfl (by decide)⟩

/-- A bar at the end of the database name or at the beginning of the schema name makes no
difference: the two columns share associated data, derived data keys and index inputs, and what is
encrypted for one can be decrypted for the other. -/
theorem associatedData_not_injective :
    let a : Context := ⟨"a|b", "c", "t", "x"⟩
    let b : Context := ⟨"a", "b|c", "t", "x"⟩
    a ≠ b ∧ a.associatedData = b.associatedData ∧
      (∀ key, Algorithm.dataKey key a = Algorithm.dataKey key b) ∧
      (∀ plain, BlindIndex.input plain a = BlindIndex.input plain b) ∧
      ∀ (x : Algorithm) (nonce : ChaCha20.Nonce) (v c : Value), (∀ y, x ≠ .hmacSha256 y) →
        x.encrypt nonce v a = .ok c → x.decrypt c b = .ok v.canonical := by
  intro a b
  have hdata : a.associatedData = b.associatedData := by decide +kernel
  refine ⟨by decide, hdata, ?_, fun plain => BlindIndex.input_eq_iff.mpr hdata, ?_⟩
  · intro key
    rw [Algorithm.dataKey, Algorithm.dataKey, hdata]
  · intro x nonce v c hx h
    rw [← x.decrypt_congr hdata]
    exact Algorithm.decrypt_encrypt hx h

end Context

end ColumnCipher
