import ColumnCipher.Config.Reader
import ColumnCipher.Proofs.EditedRecords
import ColumnCipher.Proofs.SpelledDocuments
import Mathlib.Logic.Relation
/-!
Edits of configurations. Each of the four records is edited as a record with its own fields, and so
are the lists and maps of records inside it. A configuration means the same however often and
wherever its document is edited, and however the edited document is spelled.
-/
namespace ColumnCipher

open Document

namespace AlgorithmConfig

def editFields : List Field :=
  [⟨"type", none, unedited⟩, ⟨"props", some (.record []), MapEdit unedited⟩]

def Edit : Document → Document → Prop := RecordEdit editFields

theorem ofDocument_eq_some_iff {surplus : Surplus} {d : Document} {c : AlgorithmConfig} :
    ofDocument surplus d = some c ↔ ∃ f, fields? surplus fieldNames d = some f ∧
      required text? f "type" = some c.type ∧
      defaulted (map? text?) .empty f "props" = some c.props := by
  obtain ⟨type, props⟩ := c
  simp [ofDocument, Option.bind_eq_some_iff]

theorem keeps_edit : Keeps Edit (ofDocument .refused) := by
  intro d d' hedit c hc
  obtain ⟨f, hf, htype, hprops⟩ := ofDocument_eq_some_iff.mp hc
  obtain ⟨f', hf', halike⟩ := says_of_recordEdit (by decide) hedit hf
  simp only [editFields, List.forall_mem_cons] at halike
  obtain ⟨atype, aprops, -⟩ := halike
  refine ofDocument_eq_some_iff.mpr ⟨f', hf', ?_, ?_⟩
  · exact required_of_alike rfl atype htype (keeps_unedited _)
  · exact defaulted_of_alike rfl aprops hprops (keeps_mapEdit (keeps_unedited _)) rfl

end AlgorithmConfig

namespace ColumnConfig

def editFields : List Field :=
  [⟨"logic_column", none, unedited⟩, ⟨"cipher_column", some (.text (some "")), unedited⟩,
   ⟨"assisted_query_column", some .null, unedited⟩, ⟨"plain_column", some .null, unedited⟩,
   ⟨"encryptor_name", some (.text (some "")), unedited⟩,
   ⟨"assisted_query_encryptor_name", some .null, unedited⟩,
   ⟨"query_with_cipher_column", some .null, unedited⟩]

def Edit : Document → Document → Prop := RecordEdit editFields

theorem ofDocument_eq_some_iff {surplus : Surplus} {d : Document} {c : ColumnConfig} :
    ofDocument surplus d = some c ↔ ∃ f, fields? surplus fieldNames d = some f ∧
      required text? f "logic_column" = some c.logicColumn ∧
      defaulted text? "" f "cipher_column" = some c.cipherColumn ∧
      optional text? f "assisted_query_column" = some c.assistedQueryColumn ∧
      optional text? f "plain_column" = some c.plainColumn ∧
      defaulted text? "" f "encryptor_name" = some c.encryptorName ∧
      optional text? f "assisted_query_encryptor_name" = some c.assistedQueryEncryptorName ∧
      optional bool? f "query_with_cipher_column" = some c.queryWithCipherColumn := by
  cases c
  simp [ofDocument, Option.bind_eq_some_iff]

theorem keeps_edit : Keeps Edit (ofDocument .refused) := by
  intro d d' hedit c hc
  obtain ⟨f, hf, hlogic, hcipher, hassisted, hplain, hname, hassistedName, hquery⟩ :=
    ofDocument_eq_some_iff.mp hc
  obtain ⟨f', hf', halike⟩ := says_of_recordEdit (by decide) hedit hf
  simp only [editFields, List.forall_mem_cons] at halike
  obtain ⟨alogic, acipher, aassisted, aplain, aname, aassistedName, aquery, -⟩ := halike
  refine ofDocument_eq_some_iff.mpr ⟨f', hf', ?_, ?_, ?_, ?_, ?_, ?_, ?_⟩
  · exact required_of_alike rfl alogic hlogic (keeps_unedited _)
  · exact defaulted_of_alike rfl acipher hcipher (keeps_unedited _) rfl
  · exact optional_of_alike rfl aassisted hassisted rfl
  · exact optional_of_alike rfl aplain hplain rfl
  · exact defaulted_of_alike rfl aname hname (keeps_unedited _) rfl
  · exact optional_of_alike rfl aassistedName hassistedName rfl
  · exact optional_of_alike rfl aquery hquery rfl

end ColumnConfig

namespace TableConfig

def editFields : List Field :=
  [⟨"name", none, unedited⟩, ⟨"columns", some (.list []), ListEdit ColumnConfig.Edit⟩,
   ⟨"query_with_cipher_column", some .null, unedited⟩]

def Edit : Document → Document → Prop := RecordEdit editFields

theorem ofDocument_eq_some_iff {surplus : Surplus} {d : Document} {c : TableConfig} :
    ofDocument surplus d = some c ↔ ∃ f, fields? surplus fieldNames d = some f ∧
      required text? f "name" = some c.name ∧
      defaulted (list? (ColumnConfig.ofDocument surplus)) [] f "columns" = some c.columns ∧
      optional bool? f "query_with_cipher_column" = some c.queryWithCipherColumn := by
  cases c
  simp [ofDocument, Option.bind_eq_some_iff]

theorem keeps_edit : Keeps Edit (ofDocument .refused) := by
  intro d d' hedit c hc
  obtain ⟨f, hf, hname, hcolumns, hquery⟩ := ofDocument_eq_some_iff.mp hc
  obtain ⟨f', hf', halike⟩ := says_of_recordEdit (by decide) hedit hf
  simp only [editFields, List.forall_mem_cons] at halike
  obtain ⟨aname, acolumns, aquery, -⟩ := halike
  refine ofDocument_eq_some_iff.mpr ⟨f', hf', ?_, ?_, ?_⟩
  · exact required_of_alike rfl aname hname (keeps_unedited _)
  · exact defaulted_of_alike rfl acolumns hcolumns (keeps_listEdit ColumnConfig.keeps_edit) rfl
  · exact optional_of_alike rfl aquery hquery rfl

end TableConfig

namespace RuleConfig

def editFields : List Field :=
  [⟨"tables", some (.list []), ListEdit TableConfig.Edit⟩,
   ⟨"encryptors", some (.record []), MapEdit AlgorithmConfig.Edit⟩,
   ⟨"query_with_cipher_column", some (.bool true), unedited⟩]

def Edit : Document → Document → Prop := RecordEdit editFields

theorem ofDocument_eq_some_iff {surplus : Surplus} {d : Document} {c : RuleConfig} :
    ofDocument surplus d = some c ↔ ∃ f, fields? surplus fieldNames d = some f ∧
      defaulted (list? (TableConfig.ofDocument surplus)) [] f "tables" = some c.tables ∧
      defaulted (map? (AlgorithmConfig.ofDocument surplus)) .empty f "encryptors" =
        some c.encryptors ∧
      defaulted bool? true f "query_with_cipher_column" = some c.queryWithCipherColumn := by
  cases c
  simp [ofDocument, Option.bind_eq_some_iff, -Bool.exists_bool]

theorem keeps_edit : Keeps Edit (ofDocument .refused) := by
  intro d d' hedit c hc
  obtain ⟨f, hf, htables, hencryptors, hquery⟩ := ofDocument_eq_some_iff.mp hc
  obtain ⟨f', hf', halike⟩ := says_of_recordEdit (by decide) hedit hf
  simp only [editFields, List.forall_mem_cons] at halike
  obtain ⟨atables, aencryptors, aquery, -⟩ := halike
  refine ofDocument_eq_some_iff.mpr ⟨f', hf', ?_, ?_, ?_⟩
  · exact defaulted_of_alike rfl atables htables (keeps_listEdit TableConfig.keeps_edit) rfl
  · exact defaulted_of_alike rfl aencryptors hencryptors
      (keeps_mapEdit AlgorithmConfig.keeps_edit) rfl
  · exact defaulted_of_alike rfl aquery hquery (keeps_unedited _) rfl

/-- What is read from a document is read from it after any number of edits. -/
theorem ofDocument_of_edits {d d' : Document} (h : Relation.ReflTransGen Edit d d')
    {c : RuleConfig} (hc : ofDocument .refused d = some c) : ofDocument .refused d' = some c := by
  induction h with
  | refl => exact hc
  | tail _ hedit ih => exact keeps_edit _ _ hedit c ih

/-- However often the document of a configuration is edited, there are texts that spell the edited
document, and each of them is read as the same configuration. -/
theorem ofJson_of_edits {s : String} {d d' : Document} {c : RuleConfig}
    (hread : Json.read s = some d) (hc : ofJson s = some c)
    (hedits : Relation.ReflTransGen Edit d d') :
    (∃ s', Json.read s' = some d') ∧ ∀ s', Json.read s' = some d' → ofJson s' = some c := by
  rw [ofJson, hread, Option.bind_some] at hc
  refine ⟨⟨Json.write d', Json.read_write d'⟩, fun s' hread' => ?_⟩
  rw [ofJson, hread', Option.bind_some]
  exact ofDocument_of_edits hedits hc

set_option maxRecDepth 4000 in
/-- A column becomes a list of its fields, its table and the encryptors are reordered, one encryptor
has empty properties added, an unknown member is added, and then all becomes a list. -/
theorem ofJson_of_edits_to_list :
    let s := "\x7b\"tables\":[\x7b\"columns\":" ++
      "[\x7b\"logic_column\":\"id\",\"plain_column\":null\x7d],\"name\":\"t\"\x7d]," ++
      "\"encryptors\":\x7b\"b\":\x7b\"type\":\"MD5\"\x7d,\"a\":\x7b\"type\":\"AES\"\x7d\x7d\x7d"
    let s' := "[[\x7b\"name\":\"t\",\"columns\":[[\"id\",\"\",null,null,\"\",null,null]]\x7d]," ++
      "\x7b\"a\":\x7b\"type\":\"AES\"\x7d,\"b\":\x7b\"type\":\"MD5\",\"props\":\x7b\x7d\x7d\x7d,true]"
    let c : RuleConfig := ⟨[⟨"t", [⟨"id", "", none, none, "", none, none⟩], none⟩],
      Dict.ofList [("a", ⟨"AES", .empty⟩), ("b", ⟨"MD5", .empty⟩)], true⟩
    (∃ d d', Json.read s = some d ∧ Relation.ReflTransGen Edit d d' ∧ Json.read s' = some d') ∧
      ofJson s = some c ∧ ofJson s' = some c := by
  intro s s' c
  let column : Document :=
    .record [(some "logic_column", .text (some "id")), (some "plain_column", .null)]
  let column' : Document := .list [.text (some "id"), .text (some ""), .null, .null,
    .text (some ""), .null, .null]
  let name : Option String × Document := (some "name", .text (some "t"))
  let md5 : Document := .record [(some "type", .text (some "MD5"))]
  let md5' : Document := .record [(some "type", .text (some "MD5")), (some "props", .record [])]
  let aes : Document := .record [(some "type", .text (some "AES"))]
  let rule (table encryptors : List (Option String × Document)) : Document :=
    .record [(some "tables", .list [.record table]), (some "encryptors", .record encryptors)]
  let d := rule [(some "columns", .list [column]), name] [(some "b", md5), (some "a", aes)]
  let d' : Document := .list [.list [.record [name, (some "columns", .list [column'])]],
    .record [(some "a", aes), (some "b", md5')], .bool true]
  have hread : Json.read s = some d := by
    unfold s
    rfl
  have hread' : Json.read s' = some d' := by
    unfold s'
    rfl
  have hc : ofJson s = some c := by
    rw [ofJson, hread, Option.bind_some]
    decide +kernel
  have hrule {table table' : List (Option String × Document)} (encryptors)
      (h : TableConfig.Edit (.record table) (.record table')) :
      Edit (rule table encryptors) (rule table' encryptors) :=
    @RecordEdit.member editFields [] [(some "encryptors", .record encryptors)] _ _ _ (.head _)
      (@ListEdit.item TableConfig.Edit [] [] _ _ h)
  have hmap {encryptors encryptors' : List (Option String × Document)} (table)
      (h : MapEdit AlgorithmConfig.Edit (.record encryptors) (.record encryptors')) :
      Edit (rule table encryptors) (rule table encryptors') :=
    @RecordEdit.member editFields [(some "tables", .list [.record table])] [] _ _ _
      (.tail _ (.head _)) h
  have hcolumn : TableConfig.Edit (.record [(some "columns", .list [column]), name])
      (.record [(some "columns", .list [column']), name]) :=
    @RecordEdit.member TableConfig.editFields [] [name] _ _ _ (.tail _ (.head _))
      (@ListEdit.item ColumnConfig.Edit [] [] column column' (.toList rfl))
  have htable : TableConfig.Edit (.record [(some "columns", .list [column']), name])
      (.record [name, (some "columns", .list [column'])]) := .reorder (.swap ..)
  have hencryptors : MapEdit AlgorithmConfig.Edit (.record [(some "b", md5), (some "a", aes)])
      (.record [(some "a", aes), (some "b", md5)]) := .reorder (by decide) (.swap ..)
  have hprops : MapEdit AlgorithmConfig.Edit (.record [(some "a", aes), (some "b", md5)])
      (.record [(some "a", aes), (some "b", md5')]) :=
    @MapEdit.member AlgorithmConfig.Edit [(some "a", aes)] [] (some "b") _ _
      (@RecordEdit.add AlgorithmConfig.editFields [(some "type", .text (some "MD5"))] []
        ⟨"props", some (.record []), MapEdit unedited⟩ _ (.tail _ (.head _)) rfl (by simp))
  let table' := [name, (some "columns", .list [column'])]
  let encryptors' := [(some "a", aes), (some "b", md5')]
  have hother : Edit (rule table' encryptors') (.record ((some "note", .number) ::
      [(some "tables", .list [.record table']), (some "encryptors", .record encryptors')])) :=
    @RecordEdit.addOther editFields [] _ "note" .number (by decide)
  have hlist : Edit (.record ((some "note", .number) ::
      [(some "tables", .list [.record table']), (some "encryptors", .record encryptors')])) d' :=
    .toList rfl
  have hedits : Relation.ReflTransGen Edit d d' :=
    .head (hrule _ hcolumn) <| .head (hrule _ htable) <| .head (hmap _ hencryptors) <|
      .head (hmap _ hprops) <| .head hother <| .single hlist
  exact ⟨⟨d, d', hread, hedits, hread'⟩, hc, (ofJson_of_edits hread hc hedits).2 s' hread'⟩

end RuleConfig

end ColumnCipher
