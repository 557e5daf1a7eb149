import ColumnCipher.Document.Basic
import ColumnCipher.Proofs.EffectiveRecords
import Mathlib.Data.List.Nodup
import Mathlib.Data.List.Perm.Basic
/-!
Edits that leave what is read as it is. A record may be written with its members in any order, with
members that are no fields of it, with or without fields that say what their absence says, or as the
list of all its fields; a map with distinct keys may be written in any order. Lists, maps and records
are edited inside as well. What was read before such an edit is read after it.
-/
namespace ColumnCipher.Document

/-- A field of a record: the document that says what its absence says, if it may be absent, and the
edits of its value. -/
structure Field where
  name : String
  absent : Option Document
  edit : Document → Document → Prop

/-- An edit of a record with the given fields, in their declared order. -/
inductive RecordEdit (fields : List Field) : Document → Document → Prop where
  | reorder {members members' : List (Option String × Document)} :
      members.Perm members' → RecordEdit fields (.record members) (.record members')
  /-- A member that is no field is added. -/
  | addOther {before after : List (Option String × Document)} {key : String} (d : Document) :
      key ∉ fields.map Field.name →
      RecordEdit fields (.record (before ++ after)) (.record (before ++ (some key, d) :: after))
  /-- An absent field is added with what its absence says. -/
  | add {before after : List (Option String × Document)} {x : Field} {d : Document} :
      x ∈ fields → x.absent = some d → (∀ m ∈ before ++ after, m.1 ≠ some x.name) →
      RecordEdit fields (.record (before ++ after)) (.record (before ++ (some x.name, d) :: after))
  /-- A field that says what its absence says is removed. -/
  | remove {before after : List (Option String × Document)} {x : Field} {d : Document} :
      x ∈ fields → x.absent = some d →
      RecordEdit fields (.record (before ++ (some x.name, d) :: after)) (.record (before ++ after))
  /-- All fields are listed; an absent field is listed as what its absence says. -/
  | toList {members : List (Option String × Document)} {items : List Document} :
      fields.map (fun x => (member? x.name members).or x.absent) = items.map some →
      RecordEdit fields (.record members) (.list items)
  /-- A field is edited, among members. -/
  | member {before after : List (Option String × Document)} {x : Field} {d d' : Document} :
      x ∈ fields → x.edit d d' →
      RecordEdit fields (.record (before ++ (some x.name, d) :: after))
        (.record (before ++ (some x.name, d') :: after))
  /-- A field is edited, at its place in a list. -/
  | item {before after : List Document} {x : Field} {d d' : Document} :
      fields[before.length]? = some x → x.edit d d' →
      RecordEdit fields (.list (before ++ d :: after)) (.list (before ++ d' :: after))

inductive ListEdit (edit : Document → Document → Prop) : Document → Document → Prop where
  | item {before after : List Document} {d d' : Document} :
      edit d d' → ListEdit edit (.list (before ++ d :: after)) (.list (before ++ d' :: after))

/-- A map with distinct keys is reordered, or the document of one key is edited. -/
inductive MapEdit (edit : Document → Document → Prop) : Document → Document → Prop where
  | reorder {members members' : List (Option String × Document)} :
      (members.map Prod.fst).Nodup → members.Perm members' →
      MapEdit edit (.record members) (.record members')
  | member {before after : List (Option String × Document)} {key : Option String}
      {d d' : Document} :
      edit d d' →
      MapEdit edit (.record (before ++ (key, d) :: after)) (.record (before ++ (key, d') :: after))

/-! Members with one name. -/

def named (name : String) (members : List (Option String × Document)) :
    List (Option String × Document) :=
  members.filter fun m => m.1 == some name

section

variable {name : String} {key : Option String} {d : Document}
variable {members members' before after : List (Option String × Document)}

theorem member?_eq (name : String) (members : List (Option String × Document)) :
    member? name members = (named name members).head?.map Prod.snd := by
  induction members with
  | nil => rfl
  | cons m members ih =>
    rw [member?, named, List.filter_cons]
    by_cases h : m.1 = some name
    · simp [h]
    · rw [named] at ih
      simp [h, ih]

theorem named_insert_same : named name (before ++ (some name, d) :: after) =
    named name before ++ (some name, d) :: named name after := by
  simp [named]

theorem named_append_eq_nil_iff : named name (before ++ after) = [] ↔
    named name before = [] ∧ named name after = [] := by
  rw [named, List.filter_append, List.append_eq_nil_iff]
  rfl

/-- Where at most one member has a name and one is known, no other member has it. -/
theorem named_eq_nil_of_insert
    (hone : (named name (before ++ (some name, d) :: after)).length ≤ 1) :
    named name (before ++ after) = [] := by
  rw [named_insert_same, List.length_append, List.length_cons] at hone
  exact named_append_eq_nil_iff.mpr ⟨List.length_eq_zero_iff.mp (by omega),
    List.length_eq_zero_iff.mp (by omega)⟩

theorem named_insert_of_none (h : named name (before ++ after) = []) (d : Document) :
    named name (before ++ (some name, d) :: after) = [(some name, d)] := by
  obtain ⟨hbefore, hafter⟩ := named_append_eq_nil_iff.mp h
  rw [named_insert_same, hbefore, hafter, List.nil_append]

theorem named_insert_other (h : key ≠ some name) :
    named name (before ++ (key, d) :: after) = named name (before ++ after) := by
  simp [named, h]

theorem named_eq_nil (h : ∀ m ∈ members, m.1 ≠ some name) : named name members = [] := by
  simpa [named] using h

/-- Where at most one member has a name, the order of the members does not matter. -/
theorem named_eq_of_perm (h : members.Perm members') (hone : (named name members).length ≤ 1) :
    named name members' = named name members := by
  have hperm : (named name members').Perm (named name members) := h.symm.filter _
  match hnamed : named name members, hone with
  | [], _ => exact List.perm_nil.mp (hnamed ▸ hperm)
  | [m], _ => exact List.perm_singleton.mp (hnamed ▸ hperm)

end

theorem fields?_record_eq_some_iff {surplus : Surplus} {names : List String}
    {members : List (Option String × Document)} {f : Fields} :
    fields? surplus names (.record members) = some f ↔
      ((∀ m ∈ members, m.1.isSome) ∧ ∀ name ∈ names, (named name members).length ≤ 1) ∧
        (fun name => member? name members) = f := by
  rw [fields?, Option.ite_none_right_eq_some, Option.some.injEq]
  simp only [distinctOn, Bool.and_eq_true, List.all_eq_true, decide_eq_true_eq]
  rfl

theorem fields?_list_eq_some_iff {names : List String} {items : List Document} {f : Fields} :
    fields? .refused names (.list items) = some f ↔
      items.length ≤ names.length ∧ (fun name => itemAt? name names items) = f := by
  simp [fields?]

/-- The field of a list of items is the one at the place of its name. -/
theorem itemAt?_eq {names : List String} (hnames : names.Nodup) {name : String} {i : Nat}
    (h : names[i]? = some name) (items : List Document) : itemAt? name names items = items[i]? := by
  induction names generalizing i items with
  | nil => simp at h
  | cons n names ih =>
    obtain ⟨hfirst, hnames⟩ := List.nodup_cons.mp hnames
    cases items with
    | nil => simp [itemAt?]
    | cons d items =>
      rw [itemAt?]
      cases i with
      | zero =>
        rw [List.getElem?_cons_zero, Option.some.injEq] at h
        simp [h]
      | succ i =>
        rw [List.getElem?_cons_succ] at h
        have hne : n ≠ name := fun heq => hfirst (heq ▸ List.mem_of_getElem? h)
        rw [if_neg hne, List.getElem?_cons_succ]
        exact ih hnames h items

inductive Field.Alike (x : Field) : Option Document → Option Document → Prop where
  | same (d : Option Document) : Alike x d d
  | added {d : Document} : x.absent = some d → Alike x none (some d)
  | removed {d : Document} : x.absent = some d → Alike x (some d) none
  | edited {d d' : Document} : x.edit d d' → Alike x (some d) (some d')

/-! What fields say after each edit of their record. -/

section

variable {fields : List Field} {f : Fields}

/-- The fields of a record can be read and say what other fields say. -/
def Says (fields : List Field) (f : Fields) (d : Document) : Prop :=
  ∃ f', fields? .refused (fields.map Field.name) d = some f' ∧
    ∀ x ∈ fields, x.Alike (f x.name) (f' x.name)

variable {members members' before after : List (Option String × Document)}

theorem says_of_members
    (hf : fields? .refused (fields.map Field.name) (.record members) = some f)
    (hkeys : (∀ m ∈ members, m.1.isSome) → ∀ m ∈ members', m.1.isSome)
    (hnamed : ∀ x ∈ fields, (named x.name members).length ≤ 1 →
      (named x.name members').length ≤ 1 ∧
        x.Alike (member? x.name members) (member? x.name members')) :
    Says fields f (.record members') := by
  obtain ⟨⟨hsome, hone⟩, rfl⟩ := fields?_record_eq_some_iff.mp hf
  have hfield (x : Field) (hx : x ∈ fields) := hnamed x hx (hone x.name (List.mem_map_of_mem hx))
  refine ⟨_, fields?_record_eq_some_iff.mpr ⟨⟨hkeys hsome, ?_⟩, rfl⟩, fun x hx => (hfield x hx).2⟩
  intro name hname
  obtain ⟨x, hx, rfl⟩ := List.mem_map.mp hname
  exact (hfield x hx).1

theorem says_of_same_named
    (hf : fields? .refused (fields.map Field.name) (.record members) = some f)
    (hkeys : (∀ m ∈ members, m.1.isSome) → ∀ m ∈ members', m.1.isSome)
    (hsame : ∀ x ∈ fields, (named x.name members).length ≤ 1 →
      named x.name members' = named x.name members) : Says fields f (.record members') := by
  refine says_of_members hf hkeys fun x hx hone => ?_
  rw [member?_eq, member?_eq, hsame x hx hone]
  exact ⟨hone, .same _⟩

/-- An edit of one field leaves the members of the others as they are. -/
theorem says_of_field {x : Field} (hnames : (fields.map Field.name).Nodup) (hx : x ∈ fields)
    (hf : fields? .refused (fields.map Field.name) (.record members) = some f)
    (hkeys : (∀ m ∈ members, m.1.isSome) → ∀ m ∈ members', m.1.isSome)
    (hothers : ∀ name, name ≠ x.name → named name members' = named name members)
    (hfield : (named x.name members).length ≤ 1 → (named x.name members').length ≤ 1 ∧
      x.Alike (member? x.name members) (member? x.name members')) :
    Says fields f (.record members') := by
  refine says_of_members hf hkeys fun y hy hone => ?_
  by_cases hyx : y.name = x.name
  · obtain rfl := List.inj_on_of_nodup_map hnames hy hx hyx
    exact hfield hone
  · rw [hothers y.name hyx, member?_eq, member?_eq, hothers y.name hyx]
    exact ⟨hone, .same _⟩

theorem says_toList (hnames : (fields.map Field.name).Nodup)
    (hf : fields? .refused (fields.map Field.name) (.record members) = some f)
    {items : List Document}
    (hitems : fields.map (fun x => (member? x.name members).or x.absent) = items.map some) :
    Says fields f (.list items) := by
  obtain ⟨-, rfl⟩ := fields?_record_eq_some_iff.mp hf
  have hlength : fields.length = items.length := by simpa using congrArg List.length hitems
  refine ⟨_, fields?_list_eq_some_iff.mpr ⟨by simp [hlength], rfl⟩, fun x hx => ?_⟩
  obtain ⟨i, hi⟩ := List.mem_iff_getElem?.mp hx
  have hname : (fields.map Field.name)[i]? = some x.name := by
    rw [List.getElem?_map, hi, Option.map_some]
  have hitem : some ((member? x.name members).or x.absent) = items[i]?.map some := by
    have hplace := congrArg (·[i]?) hitems
    simpa only [List.getElem?_map, hi, Option.map_some] using hplace
  dsimp only
  rw [itemAt?_eq hnames hname]
  cases hvalue : items[i]? with
  | none => simp [hvalue] at hitem
  | some value =>
    rw [hvalue, Option.map_some, Option.some.injEq] at hitem
    cases hmember : member? x.name members with
    | some d =>
      rw [hmember, Option.some_or] at hitem
      exact hitem ▸ .same _
    | none =>
      rw [hmember, Option.none_or] at hitem
      exact .added hitem

theorem says_of_item {x : Field} {d d' : Document} {before after : List Document}
    (hnames : (fields.map Field.name).Nodup) (hx : fields[before.length]? = some x)
    (hedit : x.edit d d')
    (hf : fields? .refused (fields.map Field.name) (.list (before ++ d :: after)) = some f) :
    Says fields f (.list (before ++ d' :: after)) := by
  obtain ⟨hlength, rfl⟩ := fields?_list_eq_some_iff.mp hf
  refine ⟨_, fields?_list_eq_some_iff.mpr ⟨by simpa using hlength, rfl⟩, fun y hy => ?_⟩
  obtain ⟨i, hi⟩ := List.mem_iff_getElem?.mp hy
  have hname : (fields.map Field.name)[i]? = some y.name := by
    rw [List.getElem?_map, hi, Option.map_some]
  dsimp only
  rw [itemAt?_eq hnames hname, itemAt?_eq hnames hname]
  by_cases hplace : i = before.length
  · subst hplace
    obtain rfl := Option.some.inj (hi.symm.trans hx)
    simpa using .edited hedit
  · have hsame : (before ++ d' :: after)[i]? = (before ++ d :: after)[i]? := by
      rw [List.getElem?_append, List.getElem?_append, List.getElem?_cons, List.getElem?_cons]
      split
      · rfl
      · rw [if_neg (by omega), if_neg (by omega)]
    exact hsame ▸ .same _

/-- After an edit of a record that can be read, its fields can be read and say what they said. -/
theorem says_of_recordEdit (hnames : (fields.map Field.name).Nodup) {d d' : Document}
    (h : RecordEdit fields d d') (hf : fields? .refused (fields.map Field.name) d = some f) :
    Says fields f d' := by
  cases h with
  | reorder hperm =>
    exact says_of_same_named hf (fun hkeys m hm => hkeys m (hperm.mem_iff.mpr hm))
      fun x _ hone => named_eq_of_perm hperm hone
  | addOther d hkey =>
    refine says_of_same_named hf (by simp +contextual [or_imp, forall_and]) fun x hx _ => ?_
    exact named_insert_other fun heq => hkey (Option.some.inj heq ▸ List.mem_map_of_mem hx)
  | add hx habsent hnew =>
    refine says_of_field hnames hx hf (by simp +contextual [or_imp, forall_and])
      (fun _ hname => named_insert_other (by simpa using Ne.symm hname)) fun _ => ?_
    have hnone := named_eq_nil hnew
    rw [member?_eq, member?_eq, hnone, named_insert_of_none hnone]
    exact ⟨Nat.le_refl 1, .added habsent⟩
  | remove hx habsent =>
    refine says_of_field hnames hx hf (by simp +contextual [or_imp, forall_and])
      (fun _ hname => (named_insert_other (by simpa using Ne.symm hname)).symm) fun hone => ?_
    have hnone := named_eq_nil_of_insert hone
    rw [member?_eq, member?_eq, hnone, named_insert_of_none hnone]
    exact ⟨Nat.zero_le 1, .removed habsent⟩
  | toList hitems => exact says_toList hnames hf hitems
  | member hx hedit =>
    refine says_of_field hnames hx hf (by simp +contextual [or_imp, forall_and])
      (fun _ hname => ?_) fun hone => ?_
    · rw [named_insert_other (by simpa using Ne.symm hname),
        named_insert_other (by simpa using Ne.symm hname)]
    · have hnone := named_eq_nil_of_insert hone
      rw [member?_eq, member?_eq, named_insert_of_none hnone, named_insert_of_none hnone]
      exact ⟨Nat.le_refl 1, .edited hedit⟩
  | item hx hedit => exact says_of_item hnames hx hedit hf

end

/-- What is read from a document is read from it after an edit. -/
def Keeps {α : Type} (edit : Document → Document → Prop) (read : Document → Option α) : Prop :=
  ∀ d d', edit d d' → ∀ a, read d = some a → read d' = some a

/-- No edit changes a document that is neither a list nor a map nor a record. -/
def unedited : Document → Document → Prop := fun _ _ => False

section

variable {α : Type} {edit : Document → Document → Prop} {read : Document → Option α}

theorem each?_eq_some_iff {items : List Document} {l : List α} :
    each? read items = some l ↔ items.map read = l.map some := by
  induction items generalizing l with
  | nil => cases l <;> simp [each?]
  | cons d items ih =>
    rw [each?, List.map_cons]
    cases l with
    | nil => split <;> simp
    | cons a l =>
      rw [List.map_cons, List.cons.injEq, ← ih]
      split <;> simp_all

theorem eachMember?_eq_some_iff {members : List (Option String × Document)}
    {l : List (String × α)} : eachMember? read members = some l ↔
      members.map (fun m => (m.1, read m.2)) = l.map fun e => (some e.1, some e.2) := by
  induction members generalizing l with
  | nil => cases l <;> simp [eachMember?]
  | cons m members ih =>
    obtain ⟨key, d⟩ := m
    cases l with
    | nil => cases key <;> cases hd : read d <;> cases hrest : eachMember? read members <;>
        simp [eachMember?, hd, hrest]
    | cons e l =>
      rw [List.map_cons, List.map_cons, List.cons.injEq, ← ih]
      cases key <;> cases hd : read d <;> cases hrest : eachMember? read members <;>
        simp [eachMember?, hd, hrest, Prod.ext_iff]

theorem keeps_unedited (read : Document → Option α) : Keeps unedited read :=
  fun _ _ h => h.elim

/-- What is read from an edited document is what was read before. -/
theorem Keeps.read_eq (h : Keeps edit read) {d d' : Document} (hedit : edit d d') {a : α}
    (hread : read d = some a) : read d' = read d :=
  (h d d' hedit a hread).trans hread.symm

theorem keeps_listEdit (h : Keeps edit read) : Keeps (ListEdit edit) (list? read) := by
  rintro _ _ ⟨hedit⟩ l hread
  rename_i before after d d'
  rw [list?, each?_eq_some_iff] at hread ⊢
  have hitem : read d ∈ l.map some := hread ▸ List.mem_map_of_mem (by simp)
  obtain ⟨a, -, ha⟩ := List.mem_map.mp hitem
  rw [← hread, List.map_append, List.map_append, List.map_cons, List.map_cons,
    h.read_eq hedit ha.symm]

theorem keeps_mapEdit (h : Keeps edit read) : Keeps (MapEdit edit) (map? read) := by
  intro d d' hedit entries hread
  cases hedit with
  | reorder hdistinct hperm =>
    rename_i members members'
    obtain ⟨l, hl, rfl⟩ := Option.map_eq_some_iff.mp hread
    rw [eachMember?_eq_some_iff] at hl
    have hkeys : members.map Prod.fst = (l.map Prod.fst).map some := by
      simpa [List.map_map, Function.comp_def] using congrArg (List.map Prod.fst) hl
    have hl' := hl ▸ (hperm.map fun m : Option String × Document => (m.1, read m.2)).symm
    obtain ⟨l', hmap, hl'⟩ := (congrFun₂ (List.eq_map_comp_perm _) _ _).mpr hl'
    rw [map?, eachMember?_eq_some_iff.mpr hmap, Option.map_some,
      Dict.ofList_eq_of_perm hl' (.of_map some (hkeys ▸ hdistinct))]
  | member hedit =>
    rename_i before after key d d'
    obtain ⟨l, hl, rfl⟩ := Option.map_eq_some_iff.mp hread
    rw [eachMember?_eq_some_iff] at hl
    have hitem : (key, read d) ∈ l.map fun e => (some e.1, some e.2) := by
      rw [← hl]
      exact List.mem_map.mpr ⟨(key, d), by simp, rfl⟩
    obtain ⟨e, -, he⟩ := List.mem_map.mp hitem
    have hl' : (before ++ (key, d') :: after).map (fun m => (m.1, read m.2)) =
        l.map fun e => (some e.1, some e.2) := by
      rw [← hl, List.map_append, List.map_append, List.map_cons, List.map_cons,
        h.read_eq hedit (congrArg Prod.snd he).symm]
    rw [map?, eachMember?_eq_some_iff.mpr hl', Option.map_some]

/-! What is read from a field after an edit. -/

variable {x : Field} {f f' : Fields}

theorem required_of_alike (hrequired : x.absent = none) (h : x.Alike (f x.name) (f' x.name)) {a : α}
    (hread : required read f x.name = some a) (hkeeps : Keeps x.edit read) :
    required read f' x.name = some a := by
  unfold required at *
  generalize f x.name = before at *
  generalize f' x.name = after at *
  cases h with
  | same => exact hread
  | added => simp at hread
  | removed habsent => simp [hrequired] at habsent
  | edited hedit => exact hkeeps _ _ hedit a hread

theorem defaulted_of_alike {d : Document} {default : α} (habsent : x.absent = some d)
    (h : x.Alike (f x.name) (f' x.name)) {a : α}
    (hread : defaulted read default f x.name = some a) (hkeeps : Keeps x.edit read)
    (hdefault : read d = some default) : defaulted read default f' x.name = some a := by
  unfold defaulted at *
  generalize f x.name = before at *
  generalize f' x.name = after at *
  cases h with
  | same => exact hread
  | added hadded =>
    obtain rfl := Option.some.inj (habsent.symm.trans hadded)
    exact hdefault.trans hread
  | removed hremoved =>
    obtain rfl := Option.some.inj (habsent.symm.trans hremoved)
    exact hdefault.symm.trans hread
  | edited hedit => exact hkeeps _ _ hedit a hread

theorem optional_of_alike (hnull : x.absent = some .null) (h : x.Alike (f x.name) (f' x.name))
    {a : Option α} (hread : optional read f x.name = some a) (hunedited : x.edit = unedited) :
    optional read f' x.name = some a := by
  unfold optional at *
  generalize f x.name = before at *
  generalize f' x.name = after at *
  cases h with
  | same => exact hread
  | added hadded =>
    obtain rfl := Option.some.inj (hnull.symm.trans hadded)
    exact hread
  | removed hremoved =>
    obtain rfl := Option.some.inj (hnull.symm.trans hremoved)
    exact hread
  | edited hedit =>
    rw [hunedited] at hedit
    exact hedit.elim

end

end ColumnCipher.Document
