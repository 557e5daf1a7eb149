import ColumnCipher.Proofs.LastDefinitions
import ColumnCipher.Schema
/-!
The tables of a schema. A schema is made from a list of tables, which stand under their names, or
from a document, where each table has a key of its own; both are folded to lower case. If no two names
are spellings of one, both ways lead to the same schema, in whatever order the tables come, and each
table is found under every spelling of its name. Of several tables with one name the last is kept.
-/
namespace ColumnCipher

namespace TableMeta

def HeldBy (m : Option String × Document) (t : TableMeta) : Prop :=
  ∃ key, m.1 = some key ∧ Case.lower key = Case.lower t.name ∧ ofDocument m.2 = some t

/-- Members that hold tables are read as these tables, under keys that are spellings of their
names. -/
theorem exists_eachMember? {members : List (Option String × Document)} {tables : List TableMeta}
    (h : List.Forall₂ HeldBy members tables) :
    ∃ keyed, Document.eachMember? ofDocument members = some keyed ∧
      (keyed.map fun e => (Case.lower e.1, e.2)) = tables.map fun t => (Case.lower t.name, t) := by
  induction h with
  | nil => exact ⟨[], rfl, rfl⟩
  | @cons m t members tables hfirst _ ih =>
    obtain ⟨key, hkey, hlower, hread⟩ := hfirst
    obtain ⟨keyed, hrest, hmap⟩ := ih
    obtain ⟨k, d⟩ := m
    obtain rfl : k = some key := hkey
    refine ⟨(key, t) :: keyed, ?_, ?_⟩
    · simp only [Document.eachMember?, hread, hrest]
    · rw [List.map_cons, List.map_cons, hmap, hlower]

end TableMeta

namespace Schema

/-- A document holds the tables of a list: what is read as its map of tables has one entry for each of
them, whose key is a spelling of its name. -/
def HeldIn (d : Document) (tables : List TableMeta) : Prop :=
  ∃ f m, d.fields? .refused fieldNames = some f ∧
    Document.defaulted (Document.map? TableMeta.ofDocument) .empty f "tables" = some m ∧
    (m.entries.map fun e => (Case.lower e.1, e.2)).Perm
      (tables.map fun t => (Case.lower t.name, t))

variable {tables : List TableMeta}

theorem tables_ofTables (tables : List TableMeta) :
    (ofTables tables).tables = .ofList (tables.map fun t => (Case.lower t.name, t)) := by
  rw [ofTables, ofKeyed, List.map_map]
  rfl

/-- Under a key stands the last table whose name has this lower-case form. -/
theorem find?_ofTables (tables : List TableMeta) (key : String) :
    (ofTables tables).tables.find? key =
      (effective (fun t => Case.lower t.name) tables).find? fun t => Case.lower t.name == key := by
  have hlookup := Dict.lookup_map_pairs (fun t : TableMeta => Case.lower t.name) id key
    tables.reverse
  rw [Option.map_id] at hlookup
  rw [tables_ofTables, Dict.find?_ofList, ← List.map_reverse, find?_effective]
  exact hlookup

/-- Of several tables with one name the last is kept. -/
theorem find?_ofTables_eq_some_iff {key : String} {t : TableMeta} :
    (ofTables tables).tables.find? key = some t ↔ Case.lower t.name = key ∧
      ∃ before after, tables = before ++ t :: after ∧
        ∀ later ∈ after, Case.lower later.name ≠ Case.lower t.name := by
  rw [find?_ofTables, find?_eq_some_iff_of_nodup_keys _ (nodup_keys_effective _ tables),
    mem_effective_iff, and_comm]

theorem size_ofTables (hdistinct : (tables.map fun t => Case.lower t.name).Nodup) :
    (ofTables tables).size = tables.length := by
  have hkeys : ((tables.map fun t => (Case.lower t.name, t)).map Prod.fst).Nodup := by
    rwa [List.map_map]
  rw [size, Dict.size, tables_ofTables, (Dict.entries_ofList_of_nodup hkeys).length_eq,
    List.length_map]

/-- Where no two names are spellings of one, each table is found under every spelling of its name. -/
theorem findTable?_ofTables_eq_some_iff
    (hdistinct : (tables.map fun t => Case.lower t.name).Nodup) {name : String} {t : TableMeta} :
    (ofTables tables).findTable? name = some t ↔
      t ∈ tables ∧ Case.lower t.name = Case.lower name := by
  rw [findTable?, find?_ofTables, effective_eq_self _ hdistinct,
    find?_eq_some_iff_of_nodup_keys _ hdistinct]

/-- Tables under keys that are spellings of their names make one schema, in whatever order they
come. -/
theorem ofKeyed_eq_ofTables (hdistinct : (tables.map fun t => Case.lower t.name).Nodup)
    {keyed : List (String × TableMeta)}
    (h : (keyed.map fun e => (Case.lower e.1, e.2)).Perm
      (tables.map fun t => (Case.lower t.name, t))) :
    ofKeyed keyed = ofTables tables := by
  have hkeys : ((tables.map fun t => (Case.lower t.name, t)).map Prod.fst).Nodup := by
    rwa [List.map_map]
  have heq := Dict.ofList_eq_of_perm h hkeys
  rw [← tables_ofTables] at heq
  exact congrArg Schema.mk heq

/-- A document holds the tables of a list if it has a member for each of them, in any order. -/
theorem heldIn_of_members (hdistinct : (tables.map fun t => Case.lower t.name).Nodup)
    {d : Document} {f : Document.Fields} {members : List (Option String × Document)}
    {listed : List TableMeta} (hfields : d.fields? .refused fieldNames = some f)
    (hmap : f "tables" = some (.record members)) (hlisted : listed.Perm tables)
    (hheld : List.Forall₂ TableMeta.HeldBy members listed) : HeldIn d tables := by
  obtain ⟨keyed, hread, hkeyed⟩ := TableMeta.exists_eachMember? hheld
  have hlower : ((keyed.map Prod.fst).map Case.lower).Nodup := by
    have hnames : ((listed.map fun t => (Case.lower t.name, t)).map Prod.fst).Nodup := by
      rw [List.map_map]
      exact (hlisted.map _).nodup_iff.mpr hdistinct
    rw [← hkeyed, List.map_map] at hnames
    rwa [List.map_map]
  have hkeys : (keyed.map Prod.fst).Nodup :=
    List.Pairwise.of_map Case.lower (fun _ _ hne heq => hne (congrArg Case.lower heq)) hlower
  refine ⟨f, .ofList keyed, hfields, ?_, ?_⟩
  · simp only [Document.defaulted, hmap, Document.map?, hread, Option.map_some]
  · refine ((Dict.entries_ofList_of_nodup hkeys).map _).trans ?_
    rw [hkeyed]
    exact hlisted.map _

/-- A document that holds the tables of a list is read as the schema of this list, in whatever order
the tables are met. -/
theorem ofDocumentIn_of_heldIn (hdistinct : (tables.map fun t => Case.lower t.name).Nodup)
    {d : Document} (h : HeldIn d tables) (walk : Dict.Walk TableMeta) :
    ofDocumentIn walk d = some (ofTables tables) := by
  obtain ⟨f, m, hfields, hmap, hentries⟩ := h
  have hkeyed := ofKeyed_eq_ofTables hdistinct (((walk.perm m).map _).trans hentries)
  simp only [ofDocumentIn, hfields, hmap, Option.bind_eq_bind, Option.bind_some]
  exact congrArg some hkeyed

/-- Schemas are the same whether they are made from a list of tables or read from a document that
holds these tables. -/
theorem both_ways_make_one_schema (tables : List TableMeta) :
    ((tables.map fun t => Case.lower t.name).Nodup →
      (∀ d f members listed, d.fields? .refused fieldNames = some f →
        f "tables" = some (.record members) → listed.Perm tables →
        List.Forall₂ TableMeta.HeldBy members listed → HeldIn d tables) ∧
      (∀ d, HeldIn d tables →
        (∀ walk, ofDocumentIn walk d = some (ofTables tables)) ∧
        ∀ s, Json.read s = some d → ofJson s = some (ofTables tables)) ∧
      (ofTables tables).size = tables.length ∧
      ∀ name t, (ofTables tables).findTable? name = some t ↔
        t ∈ tables ∧ Case.lower t.name = Case.lower name) ∧
    ∀ key t, (ofTables tables).tables.find? key = some t ↔ Case.lower t.name = key ∧
      ∃ before after, tables = before ++ t :: after ∧
        ∀ later ∈ after, Case.lower later.name ≠ Case.lower t.name := by
  refine ⟨fun hdistinct => ⟨?_, ?_, size_ofTables hdistinct, ?_⟩, ?_⟩
  · exact fun d f members listed hfields hmap => heldIn_of_members hdistinct hfields hmap
  · intro d h
    have hread := ofDocumentIn_of_heldIn hdistinct h
    refine ⟨hread, fun s hs => ?_⟩
    rw [ofJson, hs]
    exact hread .byKey
  · exact fun _ _ => findTable?_ofTables_eq_some_iff hdistinct
  · exact fun _ _ => find?_ofTables_eq_some_iff

/-- A document has the second of two tables first, under the lower-case form of its name, which ends
in another sigma than the name; and if the first table is defined again, only its second definition
is kept. -/
theorem both_ways_make_one_schema_sigma :
    let order : TableMeta := ⟨"T", []⟩
    let street : TableMeta := ⟨"ΟΔΟΣ", [⟨"No", "INT", true⟩]⟩
    let again : TableMeta := ⟨"t", [⟨"No", "INT", false⟩]⟩
    let s := "\x7b\"tables\":\x7b\"οδος\":[\"ΟΔΟΣ\",[[\"No\",\"INT\",true]]],\"t\":[\"T\"]\x7d\x7d"
    ([order, street].map fun t => Case.lower t.name).Nodup ∧
    (∃ d, Json.read s = some d ∧ HeldIn d [order, street]) ∧
    ofJson s = some (ofTables [order, street]) ∧
    (ofTables [order, street]).findTable? "Οδος" = some street ∧
    (ofTables [order, street, again]).tables.find? "t" = some again := by
  intro order street again s
  have hdistinct : ([order, street].map fun t => Case.lower t.name).Nodup := by decide +kernel
  obtain ⟨hstreet, hkey, hagain⟩ : Case.lower "Οδος" = Case.lower "ΟΔΟΣ" ∧
      Case.lower "οδος" = Case.lower "ΟΔΟΣ" ∧ Case.lower "t" = Case.lower "T" := by decide +kernel
  have hlower : Case.lower "t" = "t" := by decide +kernel
  let members : List (Option String × Document) :=
    [(some "οδος", .list [.text (some "ΟΔΟΣ"),
      .list [.list [.text (some "No"), .text (some "INT"), .bool true]]]),
     (some "t", .list [.text (some "T")])]
  have hread : Json.read s = some (.record [(some "tables", .record members)]) := by
    unfold s
    rfl
  have hheld : List.Forall₂ TableMeta.HeldBy members [street, order] :=
    .cons ⟨"οδος", rfl, hkey, rfl⟩ (.cons ⟨"t", rfl, hagain, rfl⟩ .nil)
  obtain ⟨hmembers, hdocument, -, hfound⟩ :=
    (both_ways_make_one_schema [order, street]).1 hdistinct
  have hheldIn := hmembers (.record [(some "tables", .record members)]) _ members [street, order]
    rfl rfl (.swap ..) hheld
  refine ⟨hdistinct, ⟨_, hread, hheldIn⟩, (hdocument _ hheldIn).2 s hread, ?_, ?_⟩
  · exact (hfound "Οδος" street).mpr ⟨by simp, hstreet.symm⟩
  · exact ((both_ways_make_one_schema [order, street, again]).2 "t" again).mpr
      ⟨hlower, [order, street], [], rfl, by simp⟩

end Schema

end ColumnCipher
