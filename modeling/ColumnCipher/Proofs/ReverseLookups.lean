import ColumnCipher.Proofs.ListedColumns
import Mathlib.Data.List.Pairwise
/-!
Reverse look-ups. From a physical column a table finds the logical column that is kept there, by a
scan of its list, and from a logical column the physical one, through its index. Several columns may
be kept in one physical column, and then the first of them is found; otherwise the two look-ups are
inverse. Cipher columns and index columns are looked up in the same way; a column may have no index
column.
-/
namespace ColumnCipher

/-- A column is kept in a physical column if its physical name is there and is a spelling of the name
of that one. -/
def Column.KeptIn (physical : Column → Option String) (place : String) (x : Column) : Prop :=
  ∃ name, physical x = some name ∧ Case.lower name = Case.lower place

namespace Table

/-- A reverse look-up of physical names, beside the look-up of which it is the reverse. -/
structure ReverseLookup (t : Table) (physical : Column → Option String)
    (forward reverse : String → Option String) : Prop where
  /-- It finds the name of the first column that is kept there. -/
  first : ∀ place name, reverse place = some name ↔ ∃ before x after,
    t.columns.list = before ++ x :: after ∧ (∀ y ∈ before, ¬y.KeptIn physical place) ∧
      x.KeptIn physical place ∧ x.logicColumn = name
  /-- It finds a name exactly where some column is kept. -/
  found : ∀ place, (reverse place).isSome ↔ ∃ x ∈ t.columns.list, x.KeptIn physical place
  /-- The name that it finds leads back, to some spelling of where it was found. -/
  back : ∀ place name, reverse place = some name →
    ∃ spelling, forward name = some spelling ∧ Case.lower spelling = Case.lower place
  /-- Where the physical names are distinct in lower case, each spelling of a column's name leads to
  its physical column and from there to its configured name. -/
  inverse : ((t.columns.list.filterMap physical).map Case.lower).Nodup →
    ∀ x ∈ t.columns.list, ∀ place, physical x = some place →
      ∀ name, Case.lower name = Case.lower x.logicColumn →
        forward name = some place ∧ reverse place = some x.logicColumn

def keptIn? (t : Table) (physical : Column → Option String) (place : String) : Option Column :=
  t.columns.list.find? fun x => (physical x).any fun name => Case.lower name == Case.lower place

variable {t : Table} {physical : Column → Option String} {place : String} {x y : Column}

theorem any_iff_keptIn : ((physical x).any fun name => Case.lower name == Case.lower place) = true ↔
    x.KeptIn physical place := by
  simp only [Option.any_eq_true, beq_iff_eq, Column.KeptIn]

theorem keptIn?_eq_some_iff : t.keptIn? physical place = some x ↔ ∃ before after,
    t.columns.list = before ++ x :: after ∧ (∀ y ∈ before, ¬y.KeptIn physical place) ∧
      x.KeptIn physical place := by
  rw [keptIn?, List.find?_eq_some_iff_append]
  simp only [← any_iff_keptIn, Bool.not_eq_true, Bool.not_eq_true']
  constructor
  · rintro ⟨hx, before, after, hlist, hbefore⟩
    exact ⟨before, after, hlist, hbefore, hx⟩
  · rintro ⟨before, after, hlist, hbefore, hx⟩
    exact ⟨hx, before, after, hlist, hbefore⟩

/-- Where the physical names are distinct only one column is kept in each physical column. -/
theorem eq_of_keptIn (hdistinct : ((t.columns.list.filterMap physical).map Case.lower).Nodup)
    (hx : x ∈ t.columns.list) (hy : y ∈ t.columns.list) (hxplace : x.KeptIn physical place)
    (hyplace : y.KeptIn physical place) : x = y := by
  obtain ⟨name, hname, hlower⟩ := hxplace
  obtain ⟨name', hname', hlower'⟩ := hyplace
  -- Which of the two columns comes first is not known, so the relation has to be symmetric.
  have hapart : t.columns.list.Pairwise fun x y => ∀ a b, physical x = some a →
      physical y = some b → Case.lower a ≠ Case.lower b := by
    refine (List.pairwise_filterMap.mp (List.pairwise_map.mp hdistinct)).imp ?_
    exact fun h a b ha hb => h a ha b hb
  have hsymm : Std.Symm fun x y : Column => ∀ a b, physical x = some a → physical y = some b →
      Case.lower a ≠ Case.lower b :=
    ⟨fun _ _ h a b ha hb heq => h b a hb ha heq.symm⟩
  by_contra hne
  exact hapart.forall hx hy hne name name' hname hname' (hlower.trans hlower'.symm)

/-- Scanning for a physical name reverses the look-up of this name. -/
theorem reverseLookup_keptIn? (c : TableConfig) (physical : Column → Option String) :
    (ofConfig c).ReverseLookup physical
      (fun name => ((ofConfig c).findColumn? name).bind physical)
      (fun place => ((ofConfig c).keptIn? physical place).map Column.logicColumn) where
  first := by
    intro place name
    rw [Option.map_eq_some_iff]
    simp only [keptIn?_eq_some_iff]
    constructor
    · rintro ⟨x, ⟨before, after, hlist, hbefore, hx⟩, hname⟩
      exact ⟨before, x, after, hlist, hbefore, hx, hname⟩
    · rintro ⟨before, x, after, hlist, hbefore, hx, hname⟩
      exact ⟨x, ⟨before, after, hlist, hbefore, hx⟩, hname⟩
  found := by
    intro place
    rw [Option.isSome_map, keptIn?, List.find?_isSome]
    simp only [any_iff_keptIn]
  back := by
    intro place name hname
    obtain ⟨x, hx, rfl⟩ := Option.map_eq_some_iff.mp hname
    obtain ⟨before, after, hlist, -, spelling, hspelling, hlower⟩ := keptIn?_eq_some_iff.mp hx
    have hmem : x ∈ (ofConfig c).columns.list := by simp [hlist]
    refine ⟨spelling, ?_, hlower⟩
    rw [findColumn?_of_mem hmem rfl, Option.bind_some, hspelling]
  inverse := by
    intro hdistinct x hx place hplace name hname
    have hkept : x.KeptIn physical place := ⟨place, hplace, rfl⟩
    have hfound : ((ofConfig c).keptIn? physical place).isSome := by
      rw [keptIn?, List.find?_isSome]
      exact ⟨x, hx, any_iff_keptIn.mpr hkept⟩
    obtain ⟨y, hy⟩ := Option.isSome_iff_exists.mp hfound
    obtain ⟨before, after, hlist, -, hykept⟩ := keptIn?_eq_some_iff.mp hy
    have hymem : y ∈ (ofConfig c).columns.list := by simp [hlist]
    obtain rfl := eq_of_keptIn hdistinct hx hymem hkept hykept
    rw [findColumn?_of_mem hx hname, Option.bind_some, hy, Option.map_some]
    exact ⟨hplace, rfl⟩

/-- Reverse look-ups invert the look-ups of cipher columns and of index columns, and a physical column
holds cipher texts exactly if a logical column is found for it. -/
theorem reverse_lookups_invert (c : TableConfig) :
    (ofConfig c).ReverseLookup (fun x => some x.cipherColumn) (ofConfig c).cipherColumn?
      (ofConfig c).logicColumnByCipher? ∧
    (ofConfig c).ReverseLookup Column.assistedQueryColumn (ofConfig c).assistedQueryColumn?
      (ofConfig c).logicColumnByAssistedQuery? ∧
    ∀ place, (ofConfig c).isCipherColumn place =
      ((ofConfig c).logicColumnByCipher? place).isSome := by
  have hcipher := reverseLookup_keptIn? c fun x => some x.cipherColumn
  refine ⟨?_, reverseLookup_keptIn? c Column.assistedQueryColumn, fun place => ?_⟩
  · have hforward : (ofConfig c).cipherColumn? =
        fun name => ((ofConfig c).findColumn? name).bind fun x => some x.cipherColumn := by
      funext name
      rw [cipherColumn?, Option.map_eq_bind]
      rfl
    rw [hforward]
    exact hcipher
  · rw [logicColumnByCipher?, Option.isSome_map, isCipherColumn, List.isSome_find?]

/-- A table whose cipher columns are distinct while its two index columns are one, in two spellings: the
cipher column of a column leads back to its configured name, and the index column to the first of the
two columns. -/
theorem reverse_lookups_invert_shared_index :
    let street : ColumnConfig := ⟨"Straße", "c1", none, none, "aes", none, none⟩
    let phone : ColumnConfig := ⟨"tel", "c2", some "IDX", none, "aes", some "aes", none⟩
    let again : ColumnConfig := ⟨"STRAßE", "C3", some "Idx", none, "aes", some "aes", none⟩
    let t := ofConfig ⟨"Kunde", [street, phone, again], none⟩
    ((t.columns.list.filterMap fun x => some x.cipherColumn).map Case.lower).Nodup ∧
    t.cipherColumn? "straße" = some "C3" ∧
    t.logicColumnByCipher? "C3" = some "STRAßE" ∧
    t.logicColumnByAssistedQuery? "idx" = some "STRAßE" ∧
    ∃ spelling, t.assistedQueryColumn? "STRAßE" = some spelling ∧
      Case.lower spelling = Case.lower "idx" := by
  intro street phone again t
  obtain ⟨hlist, hdistinct, hname, hindex⟩ :
      t.columns.list = [.ofConfig again, .ofConfig phone] ∧
      ((t.columns.list.filterMap fun x => some x.cipherColumn).map Case.lower).Nodup ∧
      Case.lower "straße" = Case.lower "STRAßE" ∧ Case.lower "Idx" = Case.lower "idx" := by
    decide +kernel
  obtain ⟨hcipher, hassisted, -⟩ := reverse_lookups_invert ⟨"Kunde", [street, phone, again], none⟩
  have hmem : Column.ofConfig again ∈ t.columns.list := by
    rw [hlist]
    exact .head _
  have hfirst : t.logicColumnByAssistedQuery? "idx" = some "STRAßE" :=
    (hassisted.first "idx" "STRAßE").mpr
      ⟨[], .ofConfig again, [.ofConfig phone], hlist, by simp, ⟨"Idx", rfl, hindex⟩, rfl⟩
  obtain ⟨hforward, hreverse⟩ := hcipher.inverse hdistinct _ hmem "C3" rfl "straße" hname
  exact ⟨hdistinct, hforward, hreverse, hfirst, hassisted.back _ _ hfirst⟩

end Table

end ColumnCipher
