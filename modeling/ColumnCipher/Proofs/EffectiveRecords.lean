import ColumnCipher.Rule.Basic
/-!
Records that replace each other. Of all records with one key the last counts, at the place of the
first one. The columns of a table come to this through an index of places that is kept in step with
their list, and the tables of a rule through a dictionary.
-/
namespace ColumnCipher

section

variable {α β : Type} (key : α → String)

/-- The last record with the key of `a`, among `a` and the records after it. -/
def lastDefinition (a : α) (rest : List α) : α :=
  (rest.reverse.find? fun b => key b == key a).getD a

/-- The records that count, in the order in which their keys occur first. -/
def effective : List α → List α
  | [] => []
  | a :: rest => lastDefinition key a rest :: (effective rest).filter fun b => key b != key a

theorem key_lastDefinition (a : α) (rest : List α) : key (lastDefinition key a rest) = key a := by
  unfold lastDefinition
  cases h : rest.reverse.find? fun b => key b == key a with
  | none => rfl
  | some b => simpa using List.find?_some h

theorem lastDefinition_append_singleton (a c : α) (rest : List α) :
    lastDefinition key a (rest ++ [c]) =
      if key c = key a then c else lastDefinition key a rest := by
  unfold lastDefinition
  rw [List.reverse_append, List.reverse_singleton, List.singleton_append]
  by_cases h : key c = key a
  · simp [h]
  · have hne : (key c == key a) = false := beq_eq_false_iff_ne.mpr h
    simp [hne, h]

/-- Each key counts once. -/
theorem nodup_keys_effective (l : List α) : ((effective key l).map key).Nodup := by
  induction l with
  | nil => exact .nil
  | cons a rest ih =>
    rw [effective, List.map_cons, key_lastDefinition key a rest]
    refine List.nodup_cons.mpr ⟨?_, ih.sublist (List.filter_sublist.map key)⟩
    simp

/-- What counts under a key is the last record with this key. -/
theorem find?_effective (k : String) (l : List α) :
    (effective key l).find? (fun b => key b == k) = l.reverse.find? fun b => key b == k := by
  induction l with
  | nil => rfl
  | cons a rest ih =>
    rw [effective, List.find?_cons, key_lastDefinition key a rest, List.reverse_cons,
      List.find?_append]
    by_cases hk : key a = k
    · subst hk
      cases h : rest.reverse.find? fun b => key b == key a <;> simp [lastDefinition, h]
    · have hfilter : ((effective key rest).filter fun b => key b != key a).find?
          (fun b => key b == k) = (effective key rest).find? fun b => key b == k := by
        rw [List.find?_filter]
        congr 1
        funext b
        by_cases hb : key b = k <;> simp [hb, Ne.symm hk]
      have hne : (key a == k) = false := beq_eq_false_iff_ne.mpr hk
      simp [hne, hfilter, ih]

/-- Where keys are distinct a record is found under its key. -/
theorem find?_eq_some_iff_of_nodup_keys {l : List α} (hl : (l.map key).Nodup) {a : α} {k : String} :
    l.find? (fun b => key b == k) = some a ↔ a ∈ l ∧ key a = k := by
  constructor
  · intro h
    exact ⟨List.mem_of_find?_eq_some h, by simpa using List.find?_some h⟩
  · rintro ⟨ha, rfl⟩
    induction l with
    | nil => simp at ha
    | cons b rest ih =>
      obtain ⟨hb, hrest⟩ := List.nodup_cons.mp hl
      rcases List.mem_cons.mp ha with rfl | ha
      · simp
      · have hne : key b ≠ key a := fun h => hb (h ▸ List.mem_map_of_mem ha)
        simp [hne, ih hrest ha]

/-- A record counts if no record with its key follows. -/
theorem mem_effective_iff {l : List α} {a : α} : a ∈ effective key l ↔
    ∃ before after, l = before ++ a :: after ∧ ∀ b ∈ after, key b ≠ key a := by
  have hfind : a ∈ effective key l ↔ l.reverse.find? (fun b => key b == key a) = some a := by
    rw [← find?_effective, find?_eq_some_iff_of_nodup_keys key (nodup_keys_effective key l)]
    simp
  rw [hfind, List.find?_eq_some_iff_append]
  simp only [beq_self_eq_true, true_and, Bool.not_eq_true', beq_eq_false_iff_ne, ne_eq]
  constructor
  · rintro ⟨after, before, hl, hafter⟩
    refine ⟨before.reverse, after.reverse, ?_, by simpa using hafter⟩
    simpa using congrArg List.reverse hl
  · rintro ⟨before, after, rfl, hafter⟩
    exact ⟨after.reverse, before.reverse, by simp, by simpa using hafter⟩

theorem mem_keys_effective {l : List α} {k : String} :
    k ∈ (effective key l).map key ↔ k ∈ l.map key := by
  have hsome {m : List α} : (m.find? fun b => key b == k).isSome ↔ k ∈ m.map key := by
    simp [List.mem_map]
  rw [← hsome, find?_effective, hsome, List.map_reverse, List.mem_reverse]

def replaceKey (c : α) (l : List α) : List α := l.map fun b => if key b = key c then c else b

theorem filter_replaceKey (a c : α) (l : List α) :
    (replaceKey key c l).filter (fun b => key b != key a) =
      replaceKey key c (l.filter fun b => key b != key a) := by
  have hkey (b : α) : key (if key b = key c then c else b) = key b := by
    split
    · rename_i h
      exact h.symm
    · rfl
  simp only [replaceKey, List.filter_map, Function.comp_def, hkey]

theorem replaceKey_of_not_mem {c : α} {l : List α} (h : ∀ b ∈ l, key b ≠ key c) :
    replaceKey key c l = l := by
  have hkept : ∀ b ∈ l, (if key b = key c then c else b) = id b := fun b hb => if_neg (h b hb)
  exact (List.map_congr_left hkept).trans (List.map_id l)

/-- A further record takes the place of the one with its key, or else comes at the end. -/
theorem effective_append_singleton (l : List α) (c : α) :
    effective key (l ++ [c]) =
      if key c ∈ l.map key then replaceKey key c (effective key l) else effective key l ++ [c] := by
  induction l with
  | nil => rfl
  | cons a rest ih =>
    rw [List.cons_append, effective, lastDefinition_append_singleton, ih, effective, List.map_cons]
    by_cases h : key c = key a
    · -- The further record takes the first place, and no other one has its key.
      have hothers : ∀ b ∈ (effective key rest).filter (fun b => key b != key a),
          key b ≠ key c := by
        intro b hb
        rw [h]
        simpa using (List.mem_filter.mp hb).2
      have hfilter : (if key c ∈ rest.map key then replaceKey key c (effective key rest)
          else effective key rest ++ [c]).filter (fun b => key b != key a) =
            (effective key rest).filter fun b => key b != key a := by
        split
        · rw [filter_replaceKey, replaceKey_of_not_mem key hothers]
        · simp [List.filter_append, h]
      have hfirst : key (lastDefinition key a rest) = key c := by
        rw [key_lastDefinition key a rest, h]
      have hkept := replaceKey_of_not_mem key hothers
      rw [replaceKey] at hkept
      rw [if_pos h, hfilter, if_pos (by simp [h]), replaceKey, List.map_cons, if_pos hfirst, hkept]
    · have hfirst : key (lastDefinition key a rest) ≠ key c := by
        rw [key_lastDefinition key a rest]
        exact Ne.symm h
      rw [if_neg h]
      by_cases hrest : key c ∈ rest.map key
      · rw [if_pos hrest, if_pos (List.mem_cons_of_mem _ hrest), filter_replaceKey, replaceKey,
          replaceKey, List.map_cons, if_neg hfirst]
      · rw [if_neg hrest, if_neg (by simp [h, hrest]), List.filter_append]
        simp [h]

/-- Where keys are distinct all records count. -/
theorem effective_eq_self {l : List α} (h : (l.map key).Nodup) : effective key l = l := by
  induction l with
  | nil => rfl
  | cons a rest ih =>
    obtain ⟨ha, hrest⟩ := List.nodup_cons.mp h
    have hne : ∀ b ∈ rest, key b ≠ key a := fun b hb heq => ha (heq ▸ List.mem_map_of_mem hb)
    have hlast : lastDefinition key a rest = a := by
      have hnone : rest.reverse.find? (fun b => key b == key a) = none := by
        simpa using hne
      rw [lastDefinition, hnone]
      rfl
    rw [effective, hlast, ih hrest, List.filter_eq_self.mpr (by simpa using hne)]

theorem effective_map (f : β → α) (l : List β) :
    effective key (l.map f) = (effective (fun b => key (f b)) l).map f := by
  induction l with
  | nil => rfl
  | cons a rest ih =>
    have hlast : lastDefinition key (f a) (rest.map f) =
        f (lastDefinition (fun b => key (f b)) a rest) := by
      unfold lastDefinition
      rw [← List.map_reverse, List.find?_map]
      change ((rest.reverse.find? fun b => key (f b) == key (f a)).map f).getD (f a) = _
      rw [Option.getD_map]
    rw [List.map_cons, effective, effective, List.map_cons, hlast, ih, List.filter_map]
    rfl

end

/-! Columns. -/

namespace Column

def key (c : Column) : String := Case.lower c.logicColumn

end Column

namespace Columns

/-- The index leads from each lower-case name to the one place where its column is. -/
def Indexed (cs : Columns) : Prop :=
  ∀ key place, cs.index.find? key = some place ↔ (cs.list[place]?).map Column.key = some key

theorem indexed_empty : empty.Indexed := by
  intro key place
  simp [empty]

/-- A column that is put in the place of another has its name; one that is added has a name and a
place that are new. -/
theorem Indexed.add {cs : Columns} (h : cs.Indexed) (c : Column) : (cs.add c).Indexed := by
  intro key place
  unfold Columns.add
  dsimp only
  split
  · rename_i old hold
    have hplace : (cs.list[old]?).map Column.key = some c.key := (h _ _).mp hold
    rw [h, List.getElem?_set]
    split
    · rename_i heq
      subst heq
      obtain ⟨b, hb, -⟩ := Option.map_eq_some_iff.mp hplace
      rw [hplace, if_pos (List.getElem?_eq_some_iff.mp hb).1, Option.map_some]
    · rfl
  · rename_i hnew
    have hfresh (place : Nat) : (cs.list[place]?).map Column.key ≠ some c.key := by
      rw [Ne, ← h, Column.key, hnew]
      simp
    rw [Dict.find?_insert]
    rcases Nat.lt_trichotomy place cs.list.length with hlt | rfl | hgt
    · rw [List.getElem?_append_left hlt]
      split
      · rename_i hkey
        subst hkey
        have hne : cs.list.length ≠ place := by omega
        simp only [Option.some.injEq, hne, false_iff]
        exact hfresh place
      · exact h key place
    · rw [List.getElem?_concat_length, Option.map_some, Option.some.injEq]
      split
      · rename_i hkey
        simp [Column.key, hkey]
      · rename_i hkey
        have hne : c.key ≠ key := hkey
        simp [h key, hne]
    · rw [List.getElem?_eq_none (by simp; omega)]
      split
      · simp
        omega
      · rw [h, List.getElem?_eq_none (by omega)]

theorem indexed_foldl {cs : Columns} (h : cs.Indexed) (l : List Column) :
    (l.foldl Columns.add cs).Indexed := by
  induction l generalizing cs with
  | nil => exact h
  | cons c rest ih => exact ih (h.add c)

theorem indexed_ofList (l : List Column) : (ofList l).Indexed := indexed_foldl indexed_empty l

/-- A further column takes the place of the one with its name, or else comes at the end. -/
theorem Indexed.list_add {cs : Columns} (h : cs.Indexed) (c : Column) :
    (cs.add c).list =
      if c.key ∈ cs.list.map Column.key then replaceKey Column.key c cs.list
      else cs.list ++ [c] := by
  have hmem : c.key ∈ cs.list.map Column.key ↔ ∃ place, cs.index.find? c.key = some place := by
    simp only [h c.key, ← List.getElem?_map, List.mem_iff_getElem?]
  unfold Columns.add
  dsimp only
  split
  · rename_i place hfound
    have hplace : (cs.list[place]?).map Column.key = some c.key := (h _ _).mp hfound
    rw [if_pos (hmem.mpr ⟨place, hfound⟩)]
    -- No other place has the name, so what is replaced by name is what is replaced by place.
    apply List.ext_getElem?
    intro i
    rw [List.getElem?_set, replaceKey, List.getElem?_map]
    split
    · rename_i heq
      subst heq
      obtain ⟨b, hb, hkey⟩ := Option.map_eq_some_iff.mp hplace
      rw [if_pos (List.getElem?_eq_some_iff.mp hb).1, hb, Option.map_some, if_pos hkey]
    · rename_i hne
      cases hb : cs.list[i]? with
      | none => rfl
      | some b =>
        have hkey : b.key ≠ c.key := by
          intro hkey
          have hi : cs.index.find? c.key = some i := (h _ _).mpr (by rw [hb, Option.map_some, hkey])
          exact hne (Option.some.inj (hfound.symm.trans hi))
        rw [Option.map_some, if_neg hkey]
  · rename_i hnew
    rw [if_neg]
    rw [hmem]
    rintro ⟨place, hfound⟩
    exact absurd (hnew.symm.trans hfound) (by simp)

theorem list_foldl {cs : Columns} (h : cs.Indexed) {seen : List Column}
    (hlist : cs.list = effective Column.key seen) (l : List Column) :
    (l.foldl Columns.add cs).list = effective Column.key (seen ++ l) := by
  induction l generalizing cs seen with
  | nil => rw [List.foldl_nil, List.append_nil, hlist]
  | cons c rest ih =>
    have hadd : (cs.add c).list = effective Column.key (seen ++ [c]) := by
      rw [h.list_add, effective_append_singleton, hlist]
      simp only [mem_keys_effective]
    rw [List.foldl_cons, ih (h.add c) hadd, List.append_assoc, List.singleton_append]

/-- The columns of a table are those that count. -/
theorem list_ofList (l : List Column) : (ofList l).list = effective Column.key l :=
  list_foldl indexed_empty (show empty.list = effective Column.key [] from rfl) l

/-- A column is found under any spelling of its name. -/
theorem Indexed.find?_eq_some_iff {cs : Columns} (h : cs.Indexed) {name : String} {c : Column} :
    cs.find? name = some c ↔ c ∈ cs.list ∧ c.key = Case.lower name := by
  rw [Columns.find?, Option.bind_eq_some_iff]
  constructor
  · rintro ⟨place, hfound, hplace⟩
    have hkey := (h _ _).mp hfound
    rw [hplace, Option.map_some] at hkey
    exact ⟨List.mem_of_getElem? hplace, Option.some.inj hkey⟩
  · rintro ⟨hmem, hkey⟩
    obtain ⟨place, hplace⟩ := List.mem_iff_getElem?.mp hmem
    exact ⟨place, (h _ _).mpr (by rw [hplace, Option.map_some, hkey]), hplace⟩

end Columns

namespace Table

theorem list_ofConfig (t : TableConfig) : (ofConfig t).columns.list =
    (effective (fun c => Case.lower c.logicColumn) t.columns).map Column.ofConfig := by
  rw [ofConfig, Columns.list_ofList, effective_map]
  rfl

/-- A column of a built table is found under any spelling of its name. -/
theorem findColumn?_ofConfig_eq_some_iff {t : TableConfig} {name : String} {c : Column} :
    (ofConfig t).findColumn? name = some c ↔
      c ∈ (ofConfig t).columns.list ∧ Case.lower c.logicColumn = Case.lower name :=
  (Columns.indexed_ofList _).find?_eq_some_iff

end Table

/-! Dictionaries. -/

namespace Dict

variable {α : Type}

theorem lookup_eq_some_iff_find? {key : String} {a : α} {l : List (String × α)} :
    l.lookup key = some a ↔ l.find? (fun e => e.1 == key) = some (key, a) := by
  rw [lookup_eq_map_find?, Option.map_eq_some_iff]
  constructor
  · rintro ⟨⟨k, b⟩, hfound, rfl⟩
    obtain rfl : k = key := by simpa using List.find?_some hfound
    exact hfound
  · exact fun hfound => ⟨_, hfound, rfl⟩

/-- A dictionary holds the entries that count. -/
theorem entries_ofList_perm (l : List (String × α)) :
    (ofList l).entries.Perm (effective Prod.fst l) := by
  have hnodup : (effective Prod.fst l).Nodup :=
    List.Pairwise.of_map Prod.fst (fun _ _ hne heq => hne (congrArg Prod.fst heq))
      (nodup_keys_effective Prod.fst l)
  refine (List.perm_ext_iff_of_nodup (ofList l).nodup_entries hnodup).mpr fun e => ?_
  obtain ⟨key, a⟩ := e
  rw [← find?_eq_some_iff, find?_ofList, lookup_eq_some_iff_find?, ← find?_effective,
    find?_eq_some_iff_of_nodup_keys _ (nodup_keys_effective Prod.fst l)]
  simp

/-- A dictionary holds all entries if their keys are distinct. -/
theorem entries_ofList_of_nodup {l : List (String × α)} (hdistinct : (l.map Prod.fst).Nodup) :
    (ofList l).entries.Perm l := by
  have hentries := entries_ofList_perm l
  rwa [effective_eq_self Prod.fst hdistinct] at hentries

/-- Entries with distinct keys make one dictionary in whatever order they are set. -/
theorem ofList_eq_of_perm {l m : List (String × α)} (h : l.Perm m)
    (hdistinct : (m.map Prod.fst).Nodup) : ofList l = ofList m :=
  ofList_of_perm (h.trans (entries_ofList_of_nodup hdistinct).symm)

end Dict

namespace Rule

variable {σ : Type}

/-- The tables of a rule are those that count, under their lower-case names. -/
theorem entries_tables_perm (c : RuleConfig) (g : Registry σ) :
    (build c g).tables.entries.Perm ((effective (fun t => Case.lower t.name) c.tables).map
      fun t => (Case.lower t.name, Table.ofConfig t)) := by
  have hperm := Dict.entries_ofList_perm
    (c.tables.map fun t => (Case.lower t.name, Table.ofConfig t))
  rwa [effective_map] at hperm

end Rule

end ColumnCipher
