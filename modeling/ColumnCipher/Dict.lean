/-!
Dictionaries with text keys. The entries are kept in the order of their keys, which is the order of
the keys' UTF-8 bytes, so two dictionaries are equal exactly when they answer every look-up alike.
-/
namespace ColumnCipher

/-- Entries in strictly increasing order of their keys. -/
structure Dict (α : Type) where
  entries : List (String × α)
  sorted : entries.Pairwise fun a b => a.1 < b.1

namespace Dict

variable {α β : Type}

def empty : Dict α := ⟨[], .nil⟩

instance : EmptyCollection (Dict α) := ⟨empty⟩

instance : Inhabited (Dict α) := ⟨empty⟩

/-- Dictionaries with the same entries are equal. -/
theorem eq_of_entries : {a b : Dict α} → a.entries = b.entries → a = b
  | ⟨_, _⟩, ⟨_, _⟩, rfl => rfl

instance [DecidableEq α] : DecidableEq (Dict α) := fun a b =>
  decidable_of_iff (a.entries = b.entries) ⟨eq_of_entries, fun h => h ▸ rfl⟩

/-- Puts an entry at its place in an ordered list, over an entry with the same key. -/
def insertSorted (key : String) (a : α) : List (String × α) → List (String × α)
  | [] => [(key, a)]
  | (k, b) :: rest =>
    if key < k then (key, a) :: (k, b) :: rest
    else if k = key then (key, a) :: rest
    else (k, b) :: insertSorted key a rest

theorem mem_insertSorted {key : String} {a : α} {l : List (String × α)} {e : String × α}
    (h : e ∈ insertSorted key a l) : e = (key, a) ∨ e ∈ l := by
  induction l with
  | nil => simpa [insertSorted] using h
  | cons x rest ih =>
    obtain ⟨k, b⟩ := x
    simp only [insertSorted] at h
    split at h
    · simpa using h
    · split at h
      · rcases List.mem_cons.mp h with h | h
        · exact .inl h
        · exact .inr (.tail _ h)
      · rcases List.mem_cons.mp h with h | h
        · exact .inr (h ▸ .head _)
        · exact (ih h).imp_right (.tail _)

theorem insertSorted_sorted (key : String) (a : α) {l : List (String × α)}
    (h : l.Pairwise fun a b => a.1 < b.1) :
    (insertSorted key a l).Pairwise fun a b => a.1 < b.1 := by
  induction l with
  | nil => simp [insertSorted]
  | cons x rest ih =>
    obtain ⟨k, b⟩ := x
    obtain ⟨hx, hrest⟩ := List.pairwise_cons.mp h
    simp only [insertSorted]
    split
    · rename_i hlt
      refine List.pairwise_cons.mpr ⟨fun e he => ?_, h⟩
      rcases List.mem_cons.mp he with he | he
      · exact he ▸ hlt
      · exact String.lt_trans hlt (hx e he)
    · split
      · rename_i _ heq
        subst heq
        exact List.pairwise_cons.mpr ⟨hx, hrest⟩
      · rename_i hnlt hne
        refine List.pairwise_cons.mpr ⟨fun e he => ?_, ih hrest⟩
        rcases mem_insertSorted he with he | he
        · subst he
          exact Decidable.byContradiction fun hn =>
            hne (String.le_antisymm (String.not_lt.mp hnlt) (String.not_lt.mp hn))
        · exact hx e he

def insert (d : Dict α) (key : String) (a : α) : Dict α :=
  ⟨insertSorted key a d.entries, insertSorted_sorted key a d.sorted⟩

/-- Entries are set one after the other, so the last one with a key counts. -/
def ofList (l : List (String × α)) : Dict α :=
  l.foldl (fun d e => d.insert e.1 e.2) empty

def find? (d : Dict α) (key : String) : Option α := d.entries.lookup key

def contains (d : Dict α) (key : String) : Bool := (d.find? key).isSome

def size (d : Dict α) : Nat := d.entries.length

def isEmpty (d : Dict α) : Bool := d.entries.isEmpty

def keys (d : Dict α) : List String := d.entries.map Prod.fst

def map (f : α → β) (d : Dict α) : Dict β :=
  ⟨d.entries.map fun e => (e.1, f e.2), List.pairwise_map.mpr d.sorted⟩

/-- An order in which the entries of dictionaries are met. -/
structure Walk (α : Type) where
  entries : Dict α → List (String × α)
  perm : ∀ d, (entries d).Perm d.entries

def Walk.byKey : Walk α := ⟨Dict.entries, fun _ => .refl _⟩

@[simp] theorem find?_empty (key : String) : (empty : Dict α).find? key = none := rfl

theorem lookup_cons_eq_ite (e : String × α) (l : List (String × α)) (k : String) :
    (e :: l).lookup k = if e.1 = k then some e.2 else l.lookup k := by
  rw [List.lookup_cons]
  by_cases h : e.1 = k
  · simp [h]
  · rw [beq_eq_false_iff_ne.mpr (Ne.symm h), if_neg h]

theorem lookup_insertSorted (key k : String) (a : α) (l : List (String × α)) :
    (insertSorted key a l).lookup k = if key = k then some a else l.lookup k := by
  induction l with
  | nil => exact lookup_cons_eq_ite (key, a) [] k
  | cons x rest ih =>
    obtain ⟨j, b⟩ := x
    simp only [insertSorted]
    split
    · exact lookup_cons_eq_ite (key, a) ((j, b) :: rest) k
    · split
      · rename_i hjk
        subst hjk
        simp only [lookup_cons_eq_ite]
        split
        · rfl
        · rfl
      · rename_i hne
        simp only [lookup_cons_eq_ite, ih]
        by_cases hj : j = k
        · subst hj
          simp [Ne.symm hne]
        · simp [hj]

/-- A look-up after setting a key finds the new value there and the old value elsewhere. -/
theorem find?_insert (d : Dict α) (key k : String) (a : α) :
    (d.insert key a).find? k = if key = k then some a else d.find? k :=
  lookup_insertSorted key k a d.entries

@[simp] theorem find?_insert_self (d : Dict α) (key : String) (a : α) :
    (d.insert key a).find? key = some a := by
  simp [find?_insert]

/-- A look-up in a list of pairs is a search in the list that they are made from. -/
theorem lookup_map_pairs (key : β → String) (f : β → α) (k : String) (l : List β) :
    (l.map fun b => (key b, f b)).lookup k = (l.find? fun b => key b == k).map f := by
  induction l with
  | nil => rfl
  | cons b rest ih =>
    rw [List.map_cons, lookup_cons_eq_ite, List.find?_cons, ih]
    by_cases h : key b = k
    · simp [h]
    · simp only [h, if_false, beq_eq_false_iff_ne.mpr h]

theorem lookup_eq_map_find? (k : String) (l : List (String × α)) :
    l.lookup k = (l.find? fun e => e.1 == k).map Prod.snd := by
  rw [← lookup_map_pairs Prod.fst Prod.snd, List.map_id'']
  exact fun _ => rfl

theorem lookup_map (f : α → β) (k : String) (l : List (String × α)) :
    (l.map fun e => (e.1, f e.2)).lookup k = (l.lookup k).map f := by
  rw [lookup_map_pairs Prod.fst (fun e => f e.2), lookup_eq_map_find?, Option.map_map]
  rfl

theorem find?_map (f : α → β) (d : Dict α) (key : String) :
    (d.map f).find? key = (d.find? key).map f :=
  lookup_map f key d.entries

theorem mem_of_lookup {key : String} {a : α} {l : List (String × α)} (h : l.lookup key = some a) :
    (key, a) ∈ l := by
  obtain ⟨before, after, rfl, -⟩ := List.lookup_eq_some_iff.mp h
  simp

/-- No entry hides another where keys are distinct. -/
theorem lookup_of_mem {key : String} {a : α} {l : List (String × α)}
    (hdistinct : (l.map Prod.fst).Nodup) (h : (key, a) ∈ l) : l.lookup key = some a := by
  induction l with
  | nil => simp at h
  | cons e rest ih =>
    obtain ⟨hfirst, hrest⟩ := List.nodup_cons.mp hdistinct
    rcases List.mem_cons.mp h with rfl | h
    · exact List.lookup_cons_self
    · have hne : e.1 ≠ key := fun he => hfirst (he ▸ List.mem_map_of_mem h)
      rw [lookup_cons_eq_ite, if_neg hne]
      exact ih hrest h

theorem nodup_keys (d : Dict α) : d.keys.Nodup := by
  apply List.pairwise_map.mpr
  refine d.sorted.imp fun {e f} hlt heq => ?_
  rw [heq] at hlt
  exact String.lt_irrefl _ hlt

theorem nodup_entries (d : Dict α) : d.entries.Nodup :=
  List.Pairwise.of_map Prod.fst (fun _ _ hne heq => hne (congrArg Prod.fst heq)) d.nodup_keys

/-- A look-up finds exactly the entries. -/
theorem find?_eq_some_iff {d : Dict α} {key : String} {a : α} :
    d.find? key = some a ↔ (key, a) ∈ d.entries :=
  ⟨mem_of_lookup, lookup_of_mem d.nodup_keys⟩

/-- Dictionaries that answer every look-up alike are equal. -/
theorem eq_of_find? {a b : Dict α} (h : ∀ key, a.find? key = b.find? key) : a = b := by
  have hmem (e : String × α) : e ∈ a.entries ↔ e ∈ b.entries := by
    obtain ⟨key, value⟩ := e
    rw [← find?_eq_some_iff, ← find?_eq_some_iff, h]
  have hperm : a.entries.Perm b.entries :=
    (List.perm_ext_iff_of_nodup a.nodup_entries b.nodup_entries).mpr hmem
  exact eq_of_entries (hperm.eq_of_pairwise
    (fun x y _ _ hxy hyx => absurd (String.lt_trans hxy hyx) (String.lt_irrefl _))
    a.sorted b.sorted)

theorem contains_iff {d : Dict α} {key : String} : d.contains key ↔ key ∈ d.keys := by
  rw [contains, find?, List.lookup_isSome_iff, keys, List.mem_map]
  simp only [beq_iff_eq, @eq_comm _ key]

theorem find?_foldl_insert (l : List (String × α)) (d : Dict α) (key : String) :
    (l.foldl (fun d e => d.insert e.1 e.2) d).find? key =
      (l.reverse.lookup key).or (d.find? key) := by
  induction l generalizing d with
  | nil => rfl
  | cons e rest ih =>
    rw [List.foldl_cons, ih, find?_insert, List.reverse_cons, List.lookup_append, Option.or_assoc,
      lookup_cons_eq_ite]
    by_cases h : e.1 = key
    · simp [h]
    · simp [h]

/-- The last entry with a key counts. -/
theorem find?_ofList (l : List (String × α)) (key : String) :
    (ofList l).find? key = l.reverse.lookup key := by
  simp [ofList, find?_foldl_insert]

theorem mem_of_find?_ofList {l : List (String × α)} {key : String} {a : α}
    (h : (ofList l).find? key = some a) : (key, a) ∈ l :=
  List.mem_reverse.mp (mem_of_lookup (find?_ofList l key ▸ h))

theorem contains_ofList {l : List (String × α)} {key : String} :
    (ofList l).contains key ↔ key ∈ l.map Prod.fst := by
  rw [contains, find?_ofList, List.lookup_isSome_iff, List.mem_map]
  simp only [List.mem_reverse, beq_iff_eq, @eq_comm _ key]

/-- The entries of a dictionary make it again in whatever order they are set. -/
theorem ofList_of_perm {d : Dict α} {l : List (String × α)} (h : l.Perm d.entries) :
    ofList l = d := by
  have hreverse : l.reverse.Perm d.entries := l.reverse_perm.trans h
  have hdistinct : (l.reverse.map Prod.fst).Nodup := (hreverse.map _).nodup_iff.mpr d.nodup_keys
  apply eq_of_find?
  intro key
  rw [find?_ofList]
  apply Option.ext
  intro a
  rw [find?_eq_some_iff, ← hreverse.mem_iff]
  exact ⟨mem_of_lookup, lookup_of_mem hdistinct⟩

end Dict

end ColumnCipher
