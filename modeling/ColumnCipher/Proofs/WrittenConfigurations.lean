import ColumnCipher.Config.Reader
import ColumnCipher.Config.Writer
import ColumnCipher.Proofs.WrittenLines
import ColumnCipher.Proofs.WrittenTables
/-!
Written configurations. The lines of a configuration are blocks whose tables nest as the
configuration does, and each part is read back from its own table, so a configuration is read back
from its text, in whatever order the encryptors and their properties were listed.
-/
namespace ColumnCipher

open Toml Document

/-! Reading parts that all can be read. -/

namespace Document

variable {α β : Type} {read : Document → Option α}

theorem each?_map {document : α → Document} (h : ∀ a, read (document a) = some a) (l : List α) :
    each? read (l.map document) = some l := by
  induction l with
  | nil => rfl
  | cons a l ih =>
    rw [List.map_cons, each?, h, ih]

theorem eachMember?_map {document : β → Document} {entry : β → String × α}
    (h : ∀ b, read (document b) = some (entry b).2) (l : List β) :
    eachMember? read (l.map fun b => (some (entry b).1, document b)) = some (l.map entry) := by
  induction l with
  | nil => rfl
  | cons b l ih => simp only [List.map_cons, eachMember?, h, ih]

end Document

/-! Lines that are short enough to be read. -/

namespace Toml

theorem isShort_fieldLines (fields : List (String × Literal)) :
    ∀ line ∈ fieldLines fields, line.IsShort := by
  intro line h
  obtain ⟨f, -, rfl⟩ := List.mem_map.mp h
  trivial

theorem Block.isShort_lines (b : Block) (h : b.header.path.length < depthLimit - 1) :
    ∀ line ∈ b.lines, line.IsShort :=
  List.forall_mem_cons.mpr ⟨h, isShort_fieldLines b.fields⟩

end Toml

/-! Optional fields. -/

def optionalField {α : Type} (key : String) (literal : α → Literal) :
    Option α → List (String × Literal)
  | some a => [(key, literal a)]
  | none => []

/-- No written value is null, so an optional field is read back, absent or present. -/
theorem optional_eq_some {α : Type} {read : Document → Option α} (literal : α → Literal)
    (h : ∀ a, read (literal a).document = some a) {f : Fields} {name : String} {part : Option α}
    (hfield : f name = part.map fun a => (literal a).document) :
    Document.optional read f name = some part := by
  cases part with
  | none => simp [Document.optional, hfield]
  | some a =>
    have hread := h a
    rw [Option.map_some] at hfield
    cases hliteral : literal a <;> simp_all [Document.optional, Literal.document]

section

variable {α : Type} (key : String) (literal : α → Literal) (part : Option α)

theorem fieldLines_optionalField :
    fieldLines (optionalField key literal part) = optionalLine key literal part := by
  cases part <;> rfl

theorem optionalField_sublist :
    ((optionalField key literal part).map Prod.fst).Sublist [key] := by
  cases part with
  | none => exact List.nil_sublist _
  | some a => exact List.Sublist.refl _

@[simp] theorem field?_optionalField (name : String) :
    (fieldEntries (optionalField key literal part)).field? name =
      if key = name then part.map fun a => (literal a).document else none := by
  cases part with
  | none => simp [optionalField, fieldEntries]
  | some a => simp [optionalField, fieldEntries, Node.document]

end

/-! Lists that are a field only if they are empty, and have tables if they are not. -/

def emptyField {α : Type} (key : String) (l : List α) : List (String × Literal) :=
  if l.isEmpty then [(key, .emptyList)] else []

section

variable {α : Type} (key : String) (l : List α)

theorem fieldLines_emptyField :
    fieldLines (emptyField key l) = if l.isEmpty then [.assign key .emptyList] else [] := by
  rw [emptyField]
  split <;> rfl

@[simp] theorem field?_emptyField (name : String) :
    (fieldEntries (emptyField key l)).field? name =
      if key = name ∧ l = [] then some (.list []) else none := by
  cases l with
  | nil => simp [emptyField, Literal.document]
  | cons a l => simp [emptyField]

end

/-! Columns. -/

namespace ColumnConfig

def fields (c : ColumnConfig) : List (String × Literal) :=
  [("logic_column", .text c.logicColumn), ("cipher_column", .text c.cipherColumn)] ++
  optionalField "assisted_query_column" .text c.assistedQueryColumn ++
  optionalField "plain_column" .text c.plainColumn ++
  [("encryptor_name", .text c.encryptorName)] ++
  optionalField "assisted_query_encryptor_name" .text c.assistedQueryEncryptorName ++
  optionalField "query_with_cipher_column" .bool c.queryWithCipherColumn

def block (c : ColumnConfig) : Block := ⟨⟨["tables"], "columns", true⟩, c.fields⟩

theorem lines_eq (c : ColumnConfig) : c.lines = c.block.lines := by
  simp only [lines, Block.lines, block, fields, fieldLines_append, fieldLines_optionalField]
  rfl

theorem fields_sublist (c : ColumnConfig) : (c.fields.map Prod.fst).Sublist fieldNames := by
  have hnames : fieldNames = ["logic_column", "cipher_column"] ++ ["assisted_query_column"] ++
      ["plain_column"] ++ ["encryptor_name"] ++ ["assisted_query_encryptor_name"] ++
      ["query_with_cipher_column"] := rfl
  simp only [fields, List.map_append, hnames]
  exact (List.Sublist.refl _).append (optionalField_sublist ..)
    |>.append (optionalField_sublist ..)
    |>.append (List.Sublist.refl _)
    |>.append (optionalField_sublist ..)
    |>.append (optionalField_sublist ..)

theorem fields_nodup (c : ColumnConfig) : (c.fields.map Prod.fst).Nodup :=
  c.fields_sublist.nodup (by decide)

def entries (c : ColumnConfig) : Entries := fieldEntries c.fields

theorem ofDocument_entries (surplus : Surplus) (c : ColumnConfig) :
    ofDocument surplus (.record (Entries.members c.entries)) = some c := by
  have hkeys : (Entries.keys c.entries).Nodup := by
    rw [entries, Entries.keys_fieldEntries]
    exact c.fields_nodup
  have hfields := Entries.fields?_members hkeys surplus fieldNames
  have hlogic : required text? c.entries.field? "logic_column" = some c.logicColumn := by
    simp [required, entries, fields, Literal.document, text?]
  have hcipher : defaulted text? "" c.entries.field? "cipher_column" = some c.cipherColumn := by
    simp [defaulted, entries, fields, Literal.document, text?]
  have hassisted : Document.optional text? c.entries.field? "assisted_query_column" =
      some c.assistedQueryColumn :=
    optional_eq_some .text (fun _ => rfl) (by simp [entries, fields])
  have hplain : Document.optional text? c.entries.field? "plain_column" = some c.plainColumn :=
    optional_eq_some .text (fun _ => rfl) (by simp [entries, fields])
  have hencryptor : defaulted text? "" c.entries.field? "encryptor_name" =
      some c.encryptorName := by
    simp [defaulted, entries, fields, Literal.document, text?]
  have hassistedEncryptor : Document.optional text? c.entries.field?
      "assisted_query_encryptor_name" = some c.assistedQueryEncryptorName :=
    optional_eq_some .text (fun _ => rfl) (by simp [entries, fields])
  have hquery : Document.optional bool? c.entries.field? "query_with_cipher_column" =
      some c.queryWithCipherColumn :=
    optional_eq_some .bool (fun _ => rfl) (by simp [entries, fields])
  simp only [ofDocument, hfields, hlogic, hcipher, hassisted, hplain, hencryptor,
    hassistedEncryptor, hquery, Option.bind_eq_bind, Option.bind_some]
  rfl

end ColumnConfig

/-! Tables. -/

namespace TableConfig

/-- The fields of a table without its columns, of which only an empty list is a field. -/
def ownFields (t : TableConfig) : List (String × Literal) :=
  [("name", .text t.name)] ++
  emptyField "columns" t.columns ++
  optionalField "query_with_cipher_column" .bool t.queryWithCipherColumn

def block (t : TableConfig) : Block := ⟨⟨[], "tables", true⟩, t.ownFields⟩

def blocks (t : TableConfig) : List Block := t.block :: t.columns.map ColumnConfig.block

theorem lines_eq (t : TableConfig) : t.lines = t.blocks.flatMap Block.lines := by
  have hcolumns : t.columns.flatMap ColumnConfig.lines =
      (t.columns.map ColumnConfig.block).flatMap Block.lines := by
    rw [List.flatMap_map]
    exact congrArg t.columns.flatMap (funext ColumnConfig.lines_eq)
  simp only [lines, blocks, List.flatMap_cons, Block.lines, block, ownFields, fieldLines_append,
    fieldLines_optionalField, fieldLines_emptyField, hcolumns]
  rfl

def entries (t : TableConfig) : Entries :=
  fieldEntries t.ownFields ++ Entries.arrayAt "columns" (t.columns.map ColumnConfig.entries)

theorem keys_entries_nodup (t : TableConfig) : (Entries.keys t.entries).Nodup := by
  obtain ⟨name, columns, query⟩ := t
  cases columns <;> cases query <;>
    simp [entries, ownFields, emptyField, optionalField, Entries.arrayAt]

theorem ownFields_nodup (t : TableConfig) : (t.ownFields.map Prod.fst).Nodup := by
  have h := t.keys_entries_nodup
  rw [entries, Entries.keys_append, Entries.keys_fieldEntries] at h
  exact (List.nodup_append.mp h).1

theorem field?_columns (t : TableConfig) : t.entries.field? "columns" =
    some (.list (t.columns.map fun c => .record (Entries.members c.entries))) := by
  by_cases h : t.columns = []
  · simp [entries, ownFields, h, Literal.document]
  · simp [entries, ownFields, h, Function.comp_def]

theorem ofDocument_entries (surplus : Surplus) (t : TableConfig) :
    ofDocument surplus (.record (Entries.members t.entries)) = some t := by
  have hfields := Entries.fields?_members t.keys_entries_nodup surplus fieldNames
  have hname : required text? t.entries.field? "name" = some t.name := by
    simp [required, entries, ownFields, Literal.document, text?]
  have hcolumns : defaulted (list? (ColumnConfig.ofDocument surplus)) [] t.entries.field?
      "columns" = some t.columns := by
    rw [defaulted, field?_columns]
    exact each?_map (ColumnConfig.ofDocument_entries surplus) t.columns
  have hquery : Document.optional bool? t.entries.field? "query_with_cipher_column" =
      some t.queryWithCipherColumn :=
    optional_eq_some .bool (fun _ => rfl) (by simp [entries, ownFields])
  simp only [ofDocument, hfields, hname, hcolumns, hquery, Option.bind_eq_bind, Option.bind_some]
  rfl

/-- The blocks of columns add their tables to an array in the last table. -/
theorem addBlocks_columns {base own : Entries} (hbase : "tables" ∉ Entries.keys base)
    (hown : "columns" ∉ Entries.keys own) (tables inside : List Entries)
    (columns : List ColumnConfig) :
    Entries.addBlocks
        (base ++ Entries.arrayAt "tables" (tables ++ [own ++ Entries.arrayAt "columns" inside]))
        (columns.map ColumnConfig.block) =
      some (base ++ Entries.arrayAt "tables" (tables ++
        [own ++ Entries.arrayAt "columns" (inside ++ columns.map ColumnConfig.entries)])) := by
  induction columns generalizing inside with
  | nil => simp
  | cons c columns ih =>
    have hstep := Entries.addSection_innerElement c.fields_nodup hbase tables hown inside
    have hrest := ih (inside ++ [c.entries])
    rw [List.append_assoc, List.singleton_append] at hrest
    exact (Entries.addBlocks_cons hstep _).trans hrest

/-- The blocks of a table add it to the tables before it. -/
theorem addBlocks_blocks {base : Entries} (hbase : "tables" ∉ Entries.keys base)
    (tables : List Entries) (t : TableConfig) :
    Entries.addBlocks (base ++ Entries.arrayAt "tables" tables) t.blocks =
      some (base ++ Entries.arrayAt "tables" (tables ++ [t.entries])) := by
  have hstep := Entries.addSection_element t.ownFields_nodup hbase tables
  rw [blocks]
  refine (Entries.addBlocks_cons hstep _).trans ?_
  by_cases h : t.columns = []
  · -- The empty list is a field already, and there is no block to add.
    simp [entries, h, Entries.arrayAt]
  · have hown : "columns" ∉ Entries.keys (fieldEntries t.ownFields) := by
      cases hquery : t.queryWithCipherColumn <;>
        simp [ownFields, emptyField, optionalField, h, hquery]
    have hadd := addBlocks_columns hbase hown tables [] t.columns
    rwa [Entries.arrayAt_nil, List.append_nil, List.nil_append] at hadd

/-- The blocks of tables add them one after the other. -/
theorem addBlocks_tables {base : Entries} (hbase : "tables" ∉ Entries.keys base)
    (inside : List Entries) (tables : List TableConfig) :
    Entries.addBlocks (base ++ Entries.arrayAt "tables" inside) (tables.flatMap blocks) =
      some (base ++ Entries.arrayAt "tables" (inside ++ tables.map entries)) := by
  induction tables generalizing inside with
  | nil => simp
  | cons t tables ih =>
    have hrest := ih (inside ++ [t.entries])
    rw [List.append_assoc, List.singleton_append] at hrest
    rw [List.flatMap_cons, Entries.addBlocks_append (addBlocks_blocks hbase inside t)]
    exact hrest

end TableConfig

/-! Encryptors. -/

namespace ListedEncryptor

def ownFields (e : ListedEncryptor) : List (String × Literal) := [("type", .text e.type)]

def propFields (e : ListedEncryptor) : List (String × Literal) :=
  e.props.map fun p => (p.1, .text p.2)

def blocks (e : ListedEncryptor) : List Block :=
  [⟨⟨["encryptors"], e.name, false⟩, e.ownFields⟩,
   ⟨⟨["encryptors", e.name], "props", false⟩, e.propFields⟩]

theorem lines_eq (e : ListedEncryptor) : e.lines = e.blocks.flatMap Block.lines := by
  simp [lines, blocks, Block.lines, ownFields, propFields, fieldLines]

def entries (e : ListedEncryptor) : Entries :=
  fieldEntries e.ownFields ++ [("props", .table .header (fieldEntries e.propFields))]

def named (e : ListedEncryptor) : String × Node := (e.name, .table .header e.entries)

theorem keys_entries_nodup (e : ListedEncryptor) : (Entries.keys e.entries).Nodup := by
  simp [entries, ownFields]

theorem propFields_nodup {e : ListedEncryptor} (h : (e.props.map Prod.fst).Nodup) :
    (e.propFields.map Prod.fst).Nodup := by
  rw [propFields, List.map_map]
  exact h

/-- The properties are read in the order in which they are listed. -/
theorem eachMember?_propFields (e : ListedEncryptor) :
    eachMember? text? (Entries.members (fieldEntries e.propFields)) = some e.props := by
  have hmembers : Entries.members (fieldEntries e.propFields) =
      e.props.map fun p => (some (id p).1, .text (some p.2)) := by
    simp [Entries.members_eq_map, fieldEntries, propFields, Literal.document, Function.comp_def]
  have hprop (p : String × String) : text? (.text (some p.2)) = some (id p).2 := rfl
  rw [hmembers, eachMember?_map hprop, List.map_id]

theorem ofDocument_entries (surplus : Surplus) (e : ListedEncryptor) :
    AlgorithmConfig.ofDocument surplus (.record (Entries.members e.entries)) =
      some e.entry.2 := by
  have hfields := Entries.fields?_members e.keys_entries_nodup surplus AlgorithmConfig.fieldNames
  have htype : required text? e.entries.field? "type" = some e.type := by
    simp [required, entries, ownFields, Literal.document, text?]
  have hprops : defaulted (map? text?) .empty e.entries.field? "props" =
      some (Dict.ofList e.props) := by
    simp [defaulted, entries, ownFields, Node.document, map?, eachMember?_propFields]
  simp only [AlgorithmConfig.ofDocument, hfields, htype, hprops, Option.bind_eq_bind,
    Option.bind_some]
  rfl

/-- The blocks of an encryptor put its table beside those of the encryptors before it. -/
theorem addBlocks_blocks {base inside : Entries} (hbase : "encryptors" ∉ Entries.keys base)
    {e : ListedEncryptor} (hname : e.name ∉ Entries.keys inside)
    (hprops : (e.props.map Prod.fst).Nodup) :
    Entries.addBlocks (base ++ Entries.innerAt "encryptors" inside) e.blocks =
      some (base ++ Entries.innerAt "encryptors" (inside ++ [e.named])) := by
  have hown : (e.ownFields.map Prod.fst).Nodup := by simp [ownFields]
  have hkey : "props" ∉ Entries.keys (fieldEntries e.ownFields) := by simp [ownFields]
  have htable := Entries.addSection_table hown hbase hname
  have hinner := Entries.addSection_innerTable (propFields_nodup hprops) hbase hname hkey
  exact (Entries.addBlocks_cons htable _).trans (Entries.addBlocks_cons hinner [])

/-- The blocks of encryptors with distinct names put their tables side by side. -/
theorem addBlocks_encryptors {base inside : Entries} (hbase : "encryptors" ∉ Entries.keys base)
    {l : List ListedEncryptor} (hnames : (l.map name).Nodup)
    (hinside : ∀ e ∈ l, e.name ∉ Entries.keys inside)
    (hprops : ∀ e ∈ l, (e.props.map Prod.fst).Nodup) :
    Entries.addBlocks (base ++ Entries.innerAt "encryptors" inside) (l.flatMap blocks) =
      some (base ++ Entries.innerAt "encryptors" (inside ++ l.map named)) := by
  induction l generalizing inside with
  | nil => simp
  | cons e l ih =>
    obtain ⟨he, hnames⟩ := List.nodup_cons.mp hnames
    obtain ⟨hfirst, hinside⟩ := List.forall_mem_cons.mp hinside
    obtain ⟨hown, hprops⟩ := List.forall_mem_cons.mp hprops
    have hnew : ∀ x ∈ l, x.name ∉ Entries.keys (inside ++ [e.named]) := by
      intro x hx hmem
      rw [Entries.keys_append, List.mem_append] at hmem
      rcases hmem with hmem | hmem
      · exact hinside x hx hmem
      · have heq : x.name = e.name := by simpa [named] using hmem
        exact he (heq ▸ List.mem_map_of_mem hx)
    have hrest := ih hnames hnew hprops
    rw [List.append_assoc, List.singleton_append] at hrest
    rw [List.flatMap_cons, Entries.addBlocks_append (addBlocks_blocks hbase hfirst hown)]
    exact hrest

end ListedEncryptor

/-! Configurations. -/

namespace RuleConfig

/-- A listing has each encryptor once, and each of its properties once, in any order. -/
structure Lists (c : RuleConfig) (l : List ListedEncryptor) : Prop where
  encryptors : (l.map ListedEncryptor.entry).Perm c.encryptors.entries
  props : ∀ e ∈ l, (e.props.map Prod.fst).Nodup

def ownFields (c : RuleConfig) : List (String × Literal) :=
  emptyField "tables" c.tables ++ [("query_with_cipher_column", .bool c.queryWithCipherColumn)]

def encryptorBlocks (l : List ListedEncryptor) : List Block :=
  if l.isEmpty then [⟨⟨[], "encryptors", false⟩, []⟩] else l.flatMap ListedEncryptor.blocks

def blocksWith (c : RuleConfig) (l : List ListedEncryptor) : List Block :=
  c.tables.flatMap TableConfig.blocks ++ encryptorBlocks l

theorem linesWith_eq (c : RuleConfig) (l : List ListedEncryptor) :
    c.linesWith l = fieldLines c.ownFields ++ (c.blocksWith l).flatMap Block.lines := by
  have htables : c.tables.flatMap TableConfig.lines =
      (c.tables.flatMap TableConfig.blocks).flatMap Block.lines := by
    rw [List.flatMap_assoc]
    exact congrArg c.tables.flatMap (funext TableConfig.lines_eq)
  have hencryptors : (if l.isEmpty then [Line.header ⟨[], "encryptors", false⟩]
      else l.flatMap ListedEncryptor.lines) = (encryptorBlocks l).flatMap Block.lines := by
    rw [encryptorBlocks]
    split
    · rfl
    · rw [List.flatMap_assoc]
      exact congrArg l.flatMap (funext ListedEncryptor.lines_eq)
  simp only [linesWith, ownFields, fieldLines_append, fieldLines_emptyField, blocksWith,
    List.flatMap_append, htables, hencryptors, List.append_assoc]
  rfl

theorem path_length_of_mem_blocksWith {c : RuleConfig} {l : List ListedEncryptor} {b : Block}
    (h : b ∈ c.blocksWith l) : b.header.path.length ≤ 2 := by
  rcases List.mem_append.mp h with h | h
  · obtain ⟨t, -, h⟩ := List.mem_flatMap.mp h
    rcases List.mem_cons.mp h with rfl | h
    · simp [TableConfig.block]
    · obtain ⟨column, -, rfl⟩ := List.mem_map.mp h
      simp [ColumnConfig.block]
  · rw [encryptorBlocks] at h
    split at h
    · obtain rfl := List.mem_singleton.mp h
      simp
    · obtain ⟨e, -, h⟩ := List.mem_flatMap.mp h
      simp only [ListedEncryptor.blocks, List.mem_cons, List.not_mem_nil, or_false] at h
      rcases h with rfl | rfl <;> simp

/-- No header of a configuration is too long to be read. -/
theorem isShort_linesWith (c : RuleConfig) (l : List ListedEncryptor) :
    ∀ line ∈ c.linesWith l, line.IsShort := by
  have hdepth : 2 < depthLimit - 1 := by decide
  rw [linesWith_eq]
  intro line hline
  rcases List.mem_append.mp hline with hline | hline
  · exact isShort_fieldLines _ line hline
  · obtain ⟨b, hb, hline⟩ := List.mem_flatMap.mp hline
    exact b.isShort_lines (Nat.lt_of_le_of_lt (path_length_of_mem_blocksWith hb) hdepth) line hline

def encryptorEntries (l : List ListedEncryptor) : Entries :=
  if l.isEmpty then [("encryptors", .table .header [])]
  else Entries.innerAt "encryptors" (l.map ListedEncryptor.named)

def entriesWith (c : RuleConfig) (l : List ListedEncryptor) : Entries :=
  fieldEntries c.ownFields ++ Entries.arrayAt "tables" (c.tables.map TableConfig.entries) ++
    encryptorEntries l

theorem keys_entriesWith_nodup (c : RuleConfig) (l : List ListedEncryptor) :
    (Entries.keys (c.entriesWith l)).Nodup := by
  obtain ⟨tables, encryptors, query⟩ := c
  cases tables <;> cases l <;>
    simp [entriesWith, ownFields, emptyField, Entries.arrayAt, encryptorEntries, Entries.innerAt]

theorem ownFields_nodup (c : RuleConfig) : (c.ownFields.map Prod.fst).Nodup := by
  cases h : c.tables <;> simp [ownFields, emptyField, h]

/-- The blocks of tables add them to the fields. -/
theorem addBlocks_tables (c : RuleConfig) :
    Entries.addBlocks (fieldEntries c.ownFields) (c.tables.flatMap TableConfig.blocks) =
      some (fieldEntries c.ownFields ++
        Entries.arrayAt "tables" (c.tables.map TableConfig.entries)) := by
  by_cases h : c.tables = []
  · simp [h, Entries.arrayAt]
  · have hown : "tables" ∉ Entries.keys (fieldEntries c.ownFields) := by
      simp [ownFields, emptyField, h]
    have hadd := TableConfig.addBlocks_tables hown [] c.tables
    rwa [Entries.arrayAt_nil, List.append_nil, List.nil_append] at hadd

theorem addBlocks_encryptorBlocks {base : Entries} (hbase : "encryptors" ∉ Entries.keys base)
    {l : List ListedEncryptor} (hnames : (l.map ListedEncryptor.name).Nodup)
    (hprops : ∀ e ∈ l, (e.props.map Prod.fst).Nodup) :
    Entries.addBlocks base (encryptorBlocks l) = some (base ++ encryptorEntries l) := by
  cases l with
  | nil =>
    have hadd : Entries.addSection base (Block.contents ⟨⟨[], "encryptors", false⟩, []⟩) =
        some (base ++ [("encryptors", .table .header [])]) :=
      Entries.addTable_new hbase List.nodup_nil
    exact Entries.addBlocks_cons hadd []
  | cons e l =>
    have hnew : ∀ x ∈ e :: l, x.name ∉ Entries.keys [] := fun _ _ => List.not_mem_nil
    have hadd := ListedEncryptor.addBlocks_encryptors hbase hnames hnew hprops
    simpa [encryptorBlocks, encryptorEntries, Entries.innerAt] using hadd

/-- A written configuration is read as the record of its tables and encryptors. -/
theorem read_render_linesWith {c : RuleConfig} {l : List ListedEncryptor}
    (hnames : (l.map ListedEncryptor.name).Nodup)
    (hprops : ∀ e ∈ l, (e.props.map Prod.fst).Nodup) :
    Toml.read (Toml.render (c.linesWith l)) =
      some (.record (Entries.members (c.entriesWith l))) := by
  have hbase : "encryptors" ∉ Entries.keys (fieldEntries c.ownFields ++
      Entries.arrayAt "tables" (c.tables.map TableConfig.entries)) := by
    cases h : c.tables <;> simp [ownFields, emptyField, Entries.arrayAt, h]
  have hadd : Entries.addBlocks (fieldEntries c.ownFields) (c.blocksWith l) =
      some (c.entriesWith l) := by
    rw [blocksWith, Entries.addBlocks_append c.addBlocks_tables,
      addBlocks_encryptorBlocks hbase hnames hprops, entriesWith]
  rw [read_render (c.isShort_linesWith l), linesWith_eq,
    ofStatements_blocks c.ownFields_nodup hadd]

theorem field?_tables (c : RuleConfig) (l : List ListedEncryptor) :
    (c.entriesWith l).field? "tables" =
      some (.list (c.tables.map fun t => .record (Entries.members t.entries))) := by
  by_cases h : c.tables = []
  · simp [entriesWith, ownFields, h]
  · simp [entriesWith, ownFields, h, Function.comp_def]

theorem field?_encryptors (c : RuleConfig) (l : List ListedEncryptor) :
    (c.entriesWith l).field? "encryptors" =
      some (.record (Entries.members (l.map ListedEncryptor.named))) := by
  cases l with
  | nil => simp [entriesWith, ownFields, encryptorEntries, Node.document]
  | cons e l => simp [entriesWith, ownFields, encryptorEntries, Entries.innerAt, Node.document]

theorem ofDocument_entriesWith (surplus : Surplus) {c : RuleConfig} {l : List ListedEncryptor}
    (h : (l.map ListedEncryptor.entry).Perm c.encryptors.entries) :
    ofDocument surplus (.record (Entries.members (c.entriesWith l))) = some c := by
  have hfields := Entries.fields?_members (c.keys_entriesWith_nodup l) surplus fieldNames
  have htables : defaulted (list? (TableConfig.ofDocument surplus)) []
      (c.entriesWith l).field? "tables" = some c.tables := by
    rw [defaulted, field?_tables]
    exact each?_map (TableConfig.ofDocument_entries surplus) c.tables
  have hencryptors : defaulted (map? (AlgorithmConfig.ofDocument surplus)) .empty
      (c.entriesWith l).field? "encryptors" = some c.encryptors := by
    have hmembers : Entries.members (l.map ListedEncryptor.named) =
        l.map fun e => (some e.entry.1, .record (Entries.members e.entries)) := by
      simp [Entries.members_eq_map, ListedEncryptor.named, ListedEncryptor.entry, Node.document,
        Function.comp_def]
    rw [defaulted, field?_encryptors]
    simp only [map?, hmembers, eachMember?_map (ListedEncryptor.ofDocument_entries surplus)]
    rw [Option.map_some, Dict.ofList_of_perm h]
  have hquery : defaulted bool? true (c.entriesWith l).field? "query_with_cipher_column" =
      some c.queryWithCipherColumn := by
    simp [defaulted, entriesWith, ownFields, Literal.document, bool?]
  simp only [ofDocument, hfields, htables, hencryptors, hquery, Option.bind_eq_bind,
    Option.bind_some]
  rfl

theorem lists_listing (c : RuleConfig) : c.Lists c.listing := by
  constructor
  · have hentry (e : String × AlgorithmConfig) :
        ListedEncryptor.entry ⟨e.1, e.2.type, e.2.props.entries⟩ = e := by
      rw [ListedEncryptor.entry, Dict.ofList_of_perm (List.Perm.refl _)]
    simp [listing, Function.comp_def, hentry]
  · intro e he
    obtain ⟨x, -, rfl⟩ := List.mem_map.mp he
    exact x.2.props.nodup_keys

/-- A configuration is read back from its text, in whatever order its encryptors and their
properties are listed. -/
theorem toml_round_trip (c : RuleConfig) :
    ofToml c.toToml = some c ∧
      ∀ l, c.Lists l → ofToml (Toml.render (c.linesWith l)) = some c := by
  have hread (l : List ListedEncryptor) (h : c.Lists l) :
      ofToml (Toml.render (c.linesWith l)) = some c := by
    have hnames : (l.map ListedEncryptor.name).Nodup := by
      have hkeys := (h.encryptors.map Prod.fst).nodup_iff.mpr c.encryptors.nodup_keys
      rwa [List.map_map] at hkeys
    rw [ofToml, read_render_linesWith hnames h.props]
    exact ofDocument_entriesWith .ignored h.encryptors
  exact ⟨hread c.listing c.lists_listing, hread⟩

/-- Two encryptors are listed in the other order, and so are the properties of one. -/
theorem toml_round_trip_other_order :
    let c : RuleConfig := {
      tables := [⟨"t_\"order\"", [⟨"größe", "", some "", none, "b.c", none, some false⟩,
        ⟨"a\r\nb", "\\", none, some "''", "a", some "b.c", none⟩], none⟩, ⟨"", [], some true⟩]
      encryptors := .ofList [("a", ⟨"AES_SIV", .ofList [("key", "\x00\t"), ("", "\"\"\"\n")]⟩),
        ("b.c", ⟨"", .empty⟩)]
      queryWithCipherColumn := false }
    let l : List ListedEncryptor :=
      [⟨"b.c", "", []⟩, ⟨"a", "AES_SIV", [("key", "\x00\t"), ("", "\"\"\"\n")]⟩]
    c.Lists l ∧ l.map ListedEncryptor.name ≠ c.listing.map ListedEncryptor.name ∧
      ofToml (Toml.render (c.linesWith l)) = some c := by
  intro c l
  have hlists : c.Lists l := by
    constructor
    · decide +kernel
    · decide +kernel
  exact ⟨hlists, by decide +kernel, (toml_round_trip c).2 l hlists⟩

example : RuleConfig.default.toToml =
    "tables = []\nquery_with_cipher_column = true\n\n[encryptors]\n" := by
  decide +kernel

end RuleConfig

end ColumnCipher
