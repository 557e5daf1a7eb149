import ColumnCipher.Toml.Line
/-!
The tables that written lines make. A written text is a few fields and then blocks, each a header
with the fields of its own table; a block adds its table at the end of an array, or beside the
tables of an outer one, and leaves all other entries as they are.
-/
namespace ColumnCipher.Toml

def fieldLines (fields : List (String × Literal)) : List Line :=
  fields.map fun f => .assign f.1 f.2

def assignments (fields : List (String × Literal)) : List Assignment :=
  fields.map fun f => ⟨[], f.1, f.2.document⟩

def fieldEntries (fields : List (String × Literal)) : Entries :=
  fields.map fun f => (f.1, .value f.2.document)

@[simp] theorem fieldLines_append (a b : List (String × Literal)) :
    fieldLines (a ++ b) = fieldLines a ++ fieldLines b :=
  List.map_append

@[simp] theorem fieldEntries_nil : fieldEntries [] = [] := rfl

@[simp] theorem fieldEntries_cons (f : String × Literal) (fields : List (String × Literal)) :
    fieldEntries (f :: fields) = (f.1, .value f.2.document) :: fieldEntries fields := rfl

@[simp] theorem fieldEntries_append (a b : List (String × Literal)) :
    fieldEntries (a ++ b) = fieldEntries a ++ fieldEntries b :=
  List.map_append

structure Block where
  header : Header
  fields : List (String × Literal)

namespace Block

def lines (b : Block) : List Line := .header b.header :: fieldLines b.fields

def contents (b : Block) : Header × List Assignment := (b.header, assignments b.fields)

end Block

theorem sections_fieldLines (fields : List (String × Literal)) (rest : List Statement) :
    sections ((fieldLines fields).map Line.statement ++ rest) =
      (assignments fields ++ (sections rest).1, (sections rest).2) := by
  induction fields with
  | nil => rfl
  | cons f fields ih =>
    simp only [fieldLines, List.map_cons, List.cons_append, Line.statement, sections] at ih ⊢
    rw [ih]
    rfl

theorem sections_blocks (blocks : List Block) :
    sections ((blocks.flatMap Block.lines).map Line.statement) =
      ([], blocks.map Block.contents) := by
  induction blocks with
  | nil => rfl
  | cons b blocks ih =>
    simp only [List.flatMap_cons, Block.lines, List.cons_append, List.map_cons, List.map_append,
      Line.statement, sections, sections_fieldLines, ih, List.append_nil]
    rfl

@[simp] theorem Node.document_value (d : Document) : (Node.value d).document = d := rfl

namespace Entries

def keys (entries : Entries) : List String := entries.map Prod.fst

@[simp] theorem keys_nil : keys [] = [] := rfl

@[simp] theorem keys_cons (e : String × Node) (entries : Entries) :
    keys (e :: entries) = e.1 :: keys entries := rfl

@[simp] theorem keys_append (a b : Entries) : keys (a ++ b) = keys a ++ keys b :=
  List.map_append

@[simp] theorem keys_fieldEntries (fields : List (String × Literal)) :
    keys (fieldEntries fields) = fields.map Prod.fst := by
  simp [keys, fieldEntries]

variable {key : String} {base : Entries}

theorem find?_append (key : String) (a b : Entries) :
    find? key (a ++ b) = (find? key a).or (find? key b) := by
  induction a with
  | nil => rfl
  | cons e a ih =>
    simp only [List.cons_append, find?, ih]
    split <;> rfl

theorem find?_eq_none (h : key ∉ keys base) : find? key base = none := by
  induction base with
  | nil => rfl
  | cons e base ih =>
    obtain ⟨hne, hrest⟩ := List.ne_and_not_mem_of_not_mem_cons h
    rw [find?, if_neg (Ne.symm hne), ih hrest]

/-- A new key is looked up behind the entries that do not have it. -/
theorem find?_append_of_new (h : key ∉ keys base) (entries : Entries) :
    find? key (base ++ entries) = find? key entries := by
  rw [find?_append, find?_eq_none h, Option.none_or]

theorem replace_append (h : key ∉ keys base) (node : Node) (entries : Entries) :
    replace key node (base ++ entries) = base ++ replace key node entries := by
  induction base with
  | nil => rfl
  | cons e base ih =>
    obtain ⟨hne, hrest⟩ := List.ne_and_not_mem_of_not_mem_cons h
    rw [List.cons_append, replace, if_neg (Ne.symm hne), ih hrest, List.cons_append]

theorem remove_eq_self (h : key ∉ keys base) : remove key base = base := by
  apply List.filter_eq_self.mpr
  intro e he
  have hne : e.1 ≠ key := fun heq => h (heq ▸ List.mem_map_of_mem he)
  simpa using hne

/-! Fields. -/

theorem assign_new (h : key ∉ keys base) (d : Document) :
    assign base ⟨[], key, d⟩ = some (base ++ [(key, .value d)]) := by
  simp [assign, modify, find?_eq_none h]

/-- New and distinct fields are added one after the other. -/
theorem assignAll_assignments {fields : List (String × Literal)}
    (hdistinct : (fields.map Prod.fst).Nodup) (hnew : ∀ f ∈ fields, f.1 ∉ keys base) :
    assignAll base (assignments fields) = some (base ++ fieldEntries fields) := by
  induction fields generalizing base with
  | nil => simp [assignAll, assignments, fieldEntries]
  | cons f fields ih =>
    obtain ⟨hf, hdistinct⟩ := List.nodup_cons.mp hdistinct
    obtain ⟨hfirst, hnew⟩ := List.forall_mem_cons.mp hnew
    have hrest : assignAll (base ++ [(f.1, .value f.2.document)]) (assignments fields) =
        some (base ++ [(f.1, .value f.2.document)] ++ fieldEntries fields) := by
      refine ih hdistinct fun g hg hmem => ?_
      rw [keys_append, List.mem_append] at hmem
      rcases hmem with hmem | hmem
      · exact hnew g hg hmem
      · have heq : g.1 = f.1 := by simpa using hmem
        exact hf (heq ▸ List.mem_map_of_mem hg)
    rw [assignAll, assignments, List.map_cons, List.foldlM_cons, assign_new hfirst]
    rw [List.append_assoc] at hrest
    exact hrest

theorem assignAll_nil {fields : List (String × Literal)} (h : (fields.map Prod.fst).Nodup) :
    assignAll [] (assignments fields) = some (fieldEntries fields) :=
  assignAll_assignments h fun _ _ => List.not_mem_nil

/-! Arrays. -/

/-- An array under its key, once it has a table. -/
def arrayAt (key : String) (tables : List Entries) : Entries :=
  if tables = [] then [] else [(key, .array tables)]

theorem arrayAt_nil (key : String) : arrayAt key [] = [] := rfl

theorem addElement_arrayAt (hkey : key ∉ keys base) (tables : List Entries)
    {fields : List (String × Literal)} (hdistinct : (fields.map Prod.fst).Nodup) :
    addElement key (assignments fields) (base ++ arrayAt key tables) =
      some (base ++ arrayAt key (tables ++ [fieldEntries fields])) := by
  rw [addElement, assignAll_nil hdistinct]
  dsimp only
  cases tables with
  | nil => simp [arrayAt, find?_eq_none hkey]
  | cons t tables => simp [arrayAt, find?_append_of_new hkey, replace_append hkey, find?, replace]

/-- A path that begins with the key of an array goes on in its last table. -/
theorem modify_arrayAt (hkey : key ∉ keys base) (dotted : Bool)
    (change : Origin → Entries → Option Entries) (origin : Origin) (path : List String)
    (tables : List Entries) (last : Entries) :
    modify dotted change origin (key :: path) (base ++ arrayAt key (tables ++ [last])) =
      (modify dotted change .header path last).map fun last =>
        base ++ arrayAt key (tables ++ [last]) := by
  have hfind : find? key (base ++ arrayAt key (tables ++ [last])) =
      some (.array (tables ++ [last])) := by
    simp [arrayAt, find?_append_of_new hkey, find?]
  rw [modify, hfind]
  simp only [List.getLast?_concat, List.dropLast_concat]
  congr 1
  funext last'
  simp [arrayAt, replace_append hkey, replace]

/-! Tables. -/

/-- A table that holds the tables of longer headers, once it has one. -/
def innerAt (key : String) (entries : Entries) : Entries :=
  if entries = [] then [] else [(key, .table .inner entries)]

/-- A path that begins with the key of such a table goes on in it. -/
theorem modify_innerAt (hkey : key ∉ keys base) (change : Origin → Entries → Option Entries)
    (origin : Origin) (path : List String) (entries : Entries) :
    modify false change origin (key :: path) (base ++ innerAt key entries) =
      (modify false change .inner path entries).map fun entries =>
        base ++ [(key, .table .inner entries)] := by
  unfold innerAt
  split
  · rename_i h
    subst h
    simp [modify, find?_eq_none hkey]
  · simp [modify, find?_append_of_new hkey, replace_append hkey, find?, replace]

theorem modify_header (hkey : key ∉ keys base) (change : Origin → Entries → Option Entries)
    (origin : Origin) (path : List String) (entries : Entries) :
    modify false change origin (key :: path) (base ++ [(key, .table .header entries)]) =
      (modify false change .header path entries).map fun entries =>
        base ++ [(key, .table .header entries)] := by
  simp [modify, find?_append_of_new hkey, replace_append hkey, find?, replace]

theorem addTable_new (hkey : key ∉ keys base) {fields : List (String × Literal)}
    (hdistinct : (fields.map Prod.fst).Nodup) :
    addTable key (assignments fields) base =
      some (base ++ [(key, .table .header (fieldEntries fields))]) := by
  rw [addTable, opened?, find?_eq_none hkey]
  simp [assignAll_nil hdistinct, remove_eq_self hkey]

/-! Headers. -/

section

variable {outer : String} {fields : List (String × Literal)}
  (hdistinct : (fields.map Prod.fst).Nodup)

include hdistinct

/-- The header of an element adds a table to an array. -/
theorem addSection_element (hkey : key ∉ keys base) (tables : List Entries) :
    addSection (base ++ arrayAt key tables) (⟨[], key, true⟩, assignments fields) =
      some (base ++ arrayAt key (tables ++ [fieldEntries fields])) :=
  addElement_arrayAt hkey tables hdistinct

/-- The header of an inner element adds a table to an array in the last table of another array. -/
theorem addSection_innerElement (houter : outer ∉ keys base) (tables : List Entries)
    {own : Entries} (hkey : key ∉ keys own) (inside : List Entries) :
    addSection (base ++ arrayAt outer (tables ++ [own ++ arrayAt key inside]))
        (⟨[outer], key, true⟩, assignments fields) =
      some (base ++
        arrayAt outer (tables ++ [own ++ arrayAt key (inside ++ [fieldEntries fields])])) := by
  rw [addSection]
  dsimp only
  rw [modify_arrayAt houter, modify, if_pos rfl, addElement_arrayAt hkey inside hdistinct]
  rfl

/-- The header of a table puts it beside the tables of an outer one. -/
theorem addSection_table (houter : outer ∉ keys base) {inside : Entries}
    (hkey : key ∉ keys inside) :
    addSection (base ++ innerAt outer inside) (⟨[outer], key, false⟩, assignments fields) =
      some (base ++ innerAt outer (inside ++ [(key, .table .header (fieldEntries fields))])) := by
  rw [addSection]
  dsimp only
  rw [modify_innerAt houter, modify, if_neg Bool.false_ne_true, addTable_new hkey hdistinct]
  simp [innerAt]

/-- The header of an inner table puts it into the last of the tables of an outer one. -/
theorem addSection_innerTable {name : String} (houter : outer ∉ keys base) {inside : Entries}
    (hname : name ∉ keys inside) {own : Entries} (hkey : key ∉ keys own) :
    addSection (base ++ innerAt outer (inside ++ [(name, .table .header own)]))
        (⟨[outer, name], key, false⟩, assignments fields) =
      some (base ++ innerAt outer (inside ++
        [(name, .table .header (own ++ [(key, .table .header (fieldEntries fields))]))])) := by
  rw [addSection]
  dsimp only
  rw [modify_innerAt houter, modify_header hname, modify, if_neg Bool.false_ne_true,
    addTable_new hkey hdistinct]
  simp [innerAt]

end

/-! Blocks. -/

def addBlocks (entries : Entries) (blocks : List Block) : Option Entries :=
  (blocks.map Block.contents).foldlM addSection entries

@[simp] theorem addBlocks_nil (entries : Entries) : addBlocks entries [] = some entries := rfl

theorem addBlocks_cons {entries next : Entries} {b : Block}
    (h : addSection entries b.contents = some next) (blocks : List Block) :
    addBlocks entries (b :: blocks) = addBlocks next blocks := by
  rw [addBlocks, List.map_cons, List.foldlM_cons, h]
  rfl

theorem addBlocks_append {entries next : Entries} {a : List Block}
    (h : addBlocks entries a = some next) (b : List Block) :
    addBlocks entries (a ++ b) = addBlocks next b := by
  rw [addBlocks] at h
  rw [addBlocks, List.map_append, List.foldlM_append, h]
  rfl

/-! Finished tables. -/

theorem members_eq_map (entries : Entries) :
    members entries = entries.map fun e => (some e.1, e.2.document) := by
  induction entries with
  | nil => rfl
  | cons e entries ih => rw [members, ih, List.map_cons]

theorem records_eq_map (tables : List Entries) :
    records tables = tables.map fun entries => .record (members entries) := by
  induction tables with
  | nil => rfl
  | cons entries tables ih => rw [records, ih, List.map_cons]

/-- As many members as entries have a name. -/
theorem length_filter_members (name : String) (entries : Entries) :
    ((members entries).filter fun m => m.1 == some name).length = (keys entries).count name := by
  induction entries with
  | nil => rfl
  | cons e entries ih =>
    simp only [members, List.filter_cons, keys, List.map_cons, List.count_cons] at ih ⊢
    by_cases h : e.1 = name
    · simp [h, ih]
    · simp [h, ih]

def field? (entries : Entries) : Document.Fields :=
  fun name => (find? name entries).map Node.document

@[simp] theorem field?_nil (name : String) : field? [] name = none := rfl

@[simp] theorem field?_cons (e : String × Node) (entries : Entries) (name : String) :
    field? (e :: entries) name = if e.1 = name then some e.2.document else field? entries name := by
  simp only [field?, find?]
  split <;> rfl

@[simp] theorem field?_append (a b : Entries) (name : String) :
    field? (a ++ b) name = (field? a name).or (field? b name) := by
  simp only [field?, find?_append, Option.map_or]

theorem member?_members (name : String) (entries : Entries) :
    Document.member? name (members entries) = field? entries name := by
  induction entries with
  | nil => rfl
  | cons e entries ih =>
    simp only [members, Document.member?, field?_cons, Option.some.injEq, ih]

/-- A finished table whose keys are distinct is read by its fields. -/
theorem fields?_members {entries : Entries} (h : (keys entries).Nodup) (surplus : Surplus)
    (names : List String) :
    Document.fields? surplus names (.record (members entries)) = some (field? entries) := by
  have hnamed : (members entries).all fun m => m.1.isSome := by
    simp [members_eq_map]
  have hdistinct : Document.distinctOn names (members entries) := by
    apply List.all_eq_true.mpr
    intro name _
    rw [length_filter_members]
    exact decide_eq_true (List.nodup_iff_count.mp h name)
  simp [Document.fields?, hnamed, hdistinct, member?_members]

/-- An array is a field once it has a table. -/
@[simp] theorem field?_arrayAt (tables : List Entries) (name : String) :
    field? (arrayAt key tables) name =
      if key = name ∧ tables ≠ [] then
        some (.list (tables.map fun entries => .record (members entries)))
      else none := by
  cases tables with
  | nil => simp [arrayAt]
  | cons t tables => simp [arrayAt, Node.document, records_eq_map]

end Entries

/-- The statements of fields and blocks make the record of their tables. -/
theorem ofStatements_blocks {fields : List (String × Literal)} {blocks : List Block}
    {entries : Entries} (hdistinct : (fields.map Prod.fst).Nodup)
    (h : Entries.addBlocks (fieldEntries fields) blocks = some entries) :
    ofStatements ((fieldLines fields ++ blocks.flatMap Block.lines).map Line.statement) =
      some (.record (Entries.members entries)) := by
  rw [Entries.addBlocks] at h
  rw [ofStatements, List.map_append, sections_fieldLines, sections_blocks, List.append_nil,
    recordOf, Entries.assignAll_nil hdistinct]
  simp only [Option.bind_eq_bind, Option.bind_some, h]
  rfl

end ColumnCipher.Toml
