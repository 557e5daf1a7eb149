import ColumnCipher.CommandLine
import ColumnCipher.Proofs.Numerals
import ColumnCipher.Proofs.RoundTrip
import ColumnCipher.Proofs.Resolution
import ColumnCipher.Proofs.WrittenConfigurations
/-!
Printed lines as arguments. An argument is guessed to be NULL, a number or a text, and so is a line
that was printed for it. Encryption prints NULL and base64 texts of sixteen bytes or more, which are
never NULL; so a line is read as what it was printed for unless all its symbols happen to form a
numeral, and then decryption refuses it, since a cipher text is no number. What is printed back is
the text of the value that the argument was read as, and not always the argument.
-/
namespace ColumnCipher

open Decimal (Denotes)

namespace Base64

@[simp] theorem length_encodeBytes (b : Bytes) :
    (encodeBytes b).length = (b.length + 2) / 3 * 4 := by
  fun_induction encodeBytes b with
  | case1 a b c rest ih => simp only [List.length_cons, ih]; omega
  | case2 a b => simp
  | case3 a => simp
  | case4 => simp

/-- Bytes that do not come in threes are padded. -/
theorem pad_mem_encodeBytes {b : Bytes} (h : b.length % 3 ≠ 0) : '=' ∈ encodeBytes b := by
  fun_induction encodeBytes b with
  | case1 a b c rest ih =>
    have hrest : rest.length % 3 ≠ 0 := by
      simp only [List.length_cons] at h
      omega
    simp [ih hrest]
  | case2 a b => simp
  | case3 a => simp
  | case4 => simp at h

/-- A padded text is no numeral. -/
theorem not_denotes_encode {b : Bytes} (h : b.length % 3 ≠ 0) (n : Int) :
    ¬Denotes (encode b).toList n := by
  intro hn
  rw [encode, String.toList_ofList] at hn
  exact absurd (hn.isDigit_or_sign (pad_mem_encodeBytes h)) (by decide)

end Base64

theorem Except.toOption_eq_some_iff {ε α : Type} {x : Except ε α} {a : α} :
    x.toOption = some a ↔ x = .ok a := by
  cases x <;> simp [Except.toOption]

namespace Algorithm

theorem aesSiv_ne_hmacSha256 (key : Siv.Key) : ∀ x, aesSiv key ≠ hmacSha256 x := by
  simp

/-- A cipher decrypts texts, and no numbers. -/
theorem decrypt_int {a : Algorithm} (ha : ∀ x, a ≠ .hmacSha256 x) (n : Int64) (context : Context) :
    a.decrypt (.int n) context = .error (.decryption .notText) := by
  rw [decrypt_eq ha]
  rfl

/-- A cipher has room for its code before or behind the plain bytes. -/
theorem le_length_encryptBytes {a : Algorithm} (ha : ∀ x, a ≠ .hmacSha256 x)
    {nonce : ChaCha20.Nonce} {plain b : Bytes} {context : Context}
    (h : a.encryptBytes nonce plain context = .ok b) : 16 ≤ b.length := by
  rw [length_encryptBytes h]
  cases a with
  | aesSiv key => exact Nat.le_add_left 16 plain.length
  | chaCha20Poly1305 masterKey => exact Nat.le_add_left 16 (plain.length + 12)
  | hmacSha256 x => exact absurd rfl (ha x)

end Algorithm

namespace Rule

variable {σ : Type}

/-- A batch with a value that is refused in every state fails with the refusal, or before it. -/
theorem mapPresent_refused {f : Value → σ → Except Error Value × σ} {v : Value} {e : Error}
    (hcall : ∀ s, (f v s).1 = .error e) (before after : List (Option Value)) (s : σ) :
    (mapPresent f (before ++ some v :: after) s).1 =
      (mapPresent f before s).1 >>= fun _ => .error e := by
  induction before generalizing s with
  | nil =>
    obtain ⟨next, hv⟩ : ∃ next, f v s = (.error e, next) := ⟨_, Prod.ext (hcall s) rfl⟩
    simp [mapPresent, hv, bind, Except.bind]
  | cons x rest ih =>
    cases x with
    | none =>
      simp only [List.cons_append, mapPresent, ih]
      cases (mapPresent f rest s).1 with
      | error e' => rfl
      | ok ws => rfl
    | some w =>
      rcases hw : f w s with ⟨_ | w', next⟩
      · simp [mapPresent, hw, bind, Except.bind]
      · simp only [List.cons_append, mapPresent, hw, ih]
        cases (mapPresent f rest next).1 with
        | error e' => rfl
        | ok ws => rfl

/-- What holds of each result of a call holds of each value of the batch. -/
theorem of_mem_mapPresent {f : Value → σ → Except Error Value × σ} {p : Value → Prop}
    (hcall : ∀ v s w next, f v s = (.ok w, next) → p w) {vs ws : List (Option Value)} {s s' : σ}
    (h : mapPresent f vs s = (.ok ws, s')) {w : Value} (hw : some w ∈ ws) : p w := by
  induction vs generalizing s ws with
  | nil =>
    obtain ⟨hresult, -⟩ := Prod.mk.inj h
    obtain rfl := Except.ok.inj hresult
    simp at hw
  | cons x rest ih =>
    cases x with
    | none =>
      obtain ⟨others, hrest, rfl⟩ := mapPresent_none_eq_ok_iff.mp h
      exact ih hrest (by simpa using hw)
    | some v =>
      obtain ⟨first, next, others, hfirst, hrest, rfl⟩ := mapPresent_some_eq_ok_iff.mp h
      rcases List.mem_cons.mp hw with hw | hw
      · obtain rfl := Option.some.inj hw
        exact hcall v s w next hfirst
      · exact ih hrest hw

/-- The encrypted values of a batch are the text forms of sixteen bytes or more. -/
theorem exists_bytes_of_mem_encryptValues [NonceSource σ] {r : Rule σ} {a : Algorithm}
    (ha : ∀ x, a ≠ .hmacSha256 x) {database schema table column : String}
    (hresolves : r.ResolvesTo table column a) {vs ws : List (Option Value)} {s s' : σ}
    (h : r.encryptValues database schema table column vs s = (.ok ws, s')) {w : Value}
    (hw : some w ∈ ws) : ∃ b : Bytes, w = encodeCipher b ∧ 16 ≤ b.length := by
  obtain ⟨id, hfound⟩ := hresolves
  rw [encryptValues, hfound, runBatch] at h
  refine of_mem_mapPresent (p := fun w => ∃ b : Bytes, w = encodeCipher b ∧ 16 ≤ b.length)
    ?_ h hw
  intro v s w next hcall
  obtain ⟨nonce, hnonce⟩ := a.exists_nonce_encrypt id v (place database schema table column) s
  rw [hcall] at hnonce
  obtain ⟨b, hb, rfl⟩ := Except.map_eq_ok_iff.mp hnonce.symm
  exact ⟨b, rfl, Algorithm.le_length_encryptBytes ha hb⟩

/-- A column that is encrypted by a cipher refuses a number among the values to decrypt. -/
theorem decryptValues_int [NonceSource σ] {r : Rule σ} {a : Algorithm}
    (ha : ∀ x, a ≠ .hmacSha256 x) {table column : String} (hresolves : r.ResolvesTo table column a)
    (n : Int64) (database schema : String) (before after : List (Option Value)) (s : σ) :
    (r.decryptValues database schema table column (before ++ some (.int n) :: after) s).1 =
      (r.decryptValues database schema table column before s).1 >>=
        fun _ => .error (.decryption .notText) := by
  obtain ⟨id, hx⟩ := hresolves
  simp only [decryptValues, hx, runBatch]
  exact mapPresent_refused (fun _ => Algorithm.decrypt_int ha n _) before after s

/-- An encryptor that a rule has built itself is an instance of the algorithm of its type. -/
theorem exists_algorithm_of_findEncryptor? [NonceSource σ] {id : Nat} {c : RuleConfig}
    {entries : List (String × AlgorithmConfig)} {r : Rule σ}
    (h : ofConfigIn id c entries = .ok r) {table column : String} {x : Encryptor σ}
    (hx : r.findEncryptor? table column = some x) :
    ∃ a, r.ResolvesTo table column a ∧ x.algorithm = a.typeName := by
  obtain ⟨g, hg, -, rfl⟩ := ofConfigIn_eq_ok h
  obtain ⟨name, -, hname⟩ := Option.bind_eq_some_iff.mp hx
  obtain ⟨config, a, i, -, -, rfl⟩ := Registry.find?_ofEntries hg hname
  exact ⟨a, ⟨i, hx⟩, rfl⟩

end Rule

namespace CommandLine

variable {s : String} {v : Option Value} {b : Bytes} {n : Int64}

def IsNull (s : String) : Prop := s.toList.map Char.toUpper = nullText.toList

instance (s : String) : Decidable (IsNull s) :=
  inferInstanceAs (Decidable (s.toList.map Char.toUpper = nullText.toList))

/-- The capital of a small letter stands thirty-two places before it. -/
theorem toNat_toUpper (c : Char) :
    c.toUpper.toNat = if 97 ≤ c.toNat ∧ c.toNat ≤ 122 then c.toNat - 32 else c.toNat := by
  have hsmall : ('a'.val ≤ c.val ∧ c.val ≤ 'z'.val) = (97 ≤ c.toNat ∧ c.toNat ≤ 122) := by
    simp only [UInt32.le_iff_toNat_le]
    rfl
  unfold Char.toUpper
  split
  · rename_i h
    rw [hsmall] at h
    rw [if_pos h]
    change (c.val + ('A'.val - 'a'.val)).toNat = c.toNat - 32
    rw [UInt32.toNat_add]
    change (c.toNat + 4294967264) % 4294967296 = c.toNat - 32
    omega
  · rename_i h
    rw [hsmall] at h
    rw [if_neg h]

theorem toUpper_of_isDigit {c : Char} (h : c.isDigit) : c.toUpper = c := by
  obtain ⟨hlow, hhigh⟩ : 48 ≤ c.toNat ∧ c.toNat ≤ 57 := Char.isDigit_iff_toNat.mp h
  rw [← Char.toNat_inj, toNat_toUpper, if_neg]
  omega

/-- The first letter of NULL is no part of a numeral. -/
theorem not_isNull_of_denotes {n : Int} (h : Denotes s.toList n) : ¬IsNull s := by
  intro hnull
  have hletters : nullText.toList = ['N', 'U', 'L', 'L'] := by decide
  obtain ⟨c, rest, hs, hc, -⟩ := List.map_eq_cons_iff.mp (hnull.trans hletters)
  rw [hs] at h
  rcases h.isDigit_or_sign (.head _) with hdigit | rfl | rfl
  · rw [toUpper_of_isDigit hdigit] at hc
    subst hc
    exact absurd hdigit (by decide)
  · exact absurd hc (by decide)
  · exact absurd hc (by decide)

theorem readValue_of_isNull (h : IsNull s) : readValue s = none := if_pos h

theorem readValue_of_not_isNull (h : ¬IsNull s) :
    readValue s = match Decimal.readInt64? s.toList with
      | some n => some (.int n)
      | none => some (.text s) := if_neg h

theorem readValue_of_denotes (h : Denotes s.toList n.toInt) : readValue s = some (.int n) := by
  rw [readValue_of_not_isNull (not_isNull_of_denotes h), Decimal.readInt64?_eq_some_iff.mpr h]

theorem readValue_of_text (hnull : ¬IsNull s) (hnumeral : ∀ n : Int64, ¬Denotes s.toList n.toInt) :
    readValue s = some (.text s) := by
  have hread : Decimal.readInt64? s.toList = none := by
    rw [Option.eq_none_iff_forall_ne_some]
    exact fun n hn => hnumeral n (Decimal.readInt64?_eq_some_iff.mp hn)
  rw [readValue_of_not_isNull hnull, hread]

/-- A value that was read is shown as it is shown when its plain bytes are read. -/
theorem displayValue_canonical (s : String) :
    displayValue ((readValue s).map Value.canonical) = displayValue (readValue s) := by
  unfold readValue
  split
  · rfl
  · split
    · rename_i n _
      have hcanonical : (Value.int n).canonical = .text (Decimal.ofInt n.toInt) :=
        Value.canonical_text (Decimal.ofInt n.toInt)
      rw [Option.map_some, hcanonical]
      rfl
    · rw [Option.map_some, Value.canonical_text]

/-- A text of sixteen bytes has more symbols than NULL. -/
theorem not_isNull_encode (h : 16 ≤ b.length) : ¬IsNull (Base64.encode b) := by
  intro hnull
  have hlength : (Base64.encode b).toList.length = 4 := by
    have hnull : (Base64.encode b).toList.map Char.toUpper = nullText.toList := hnull
    rw [← List.length_map (f := Char.toUpper), hnull]
    rfl
  rw [Base64.encode, String.toList_ofList, Base64.length_encodeBytes] at hlength
  omega

/-- A printed line of a cipher is read as what it was printed for if it is no numeral. -/
theorem readValue_displayValue
    (hcipher : ∀ w, v = some w → ∃ b : Bytes, w = encodeCipher b ∧ 16 ≤ b.length)
    (hnumeral : ∀ n : Int64, ¬Denotes (displayValue v).toList n.toInt) :
    readValue (displayValue v) = v := by
  cases v with
  | none => exact readValue_of_isNull (by decide)
  | some w =>
    obtain ⟨b, rfl, hlength⟩ := hcipher w rfl
    exact readValue_of_text (not_isNull_encode hlength) hnumeral

variable {r : Rule NonceStream} {a : Algorithm} {view : FileView}

/-- A command on values prints the texts of the values that its rule gives. -/
theorem run_transform (mode : Mode) (target : Target) (view : FileView) (nonces : NonceStream) :
    (Command.transform mode target).run view nonces =
      loadRule target.config view >>= fun r =>
        ((CommandLine.transform r mode target nonces).mapError .transform).map
          (List.map displayValue) := by
  change (do
    let r ← loadRule target.config view
    let values ← (CommandLine.transform r mode target nonces).mapError .transform
    return values.map displayValue) = _
  refine bind_congr fun r => ?_
  cases CommandLine.transform r mode target nonces with
  | error e => rfl
  | ok values => rfl

theorem run_transform_eq_ok_iff {mode : Mode} {target : Target} {nonces : NonceStream}
    {lines : List String} :
    (Command.transform mode target).run view nonces = .ok lines ↔
      ∃ r values, loadRule target.config view = .ok r ∧
        CommandLine.transform r mode target nonces = .ok values ∧
        lines = values.map displayValue := by
  simp only [run_transform, Except.bind_eq_ok_iff, Except.map_eq_ok_iff, Except.mapError_eq_ok_iff]
  constructor
  · rintro ⟨r, hrule, values, hvalues, rfl⟩
    exact ⟨r, values, hrule, hvalues, rfl⟩
  · rintro ⟨r, values, hrule, hvalues, rfl⟩
    exact ⟨r, hrule, values, hvalues, rfl⟩

/-- If all lines that were printed for encrypted values are read as these values, decryption gives
the values that were read at first, as their plain bytes are read. -/
theorem transform_decrypt_of_encrypt {target : Target} (ha : ∀ x, a ≠ .hmacSha256 x)
    (hresolves : r.ResolvesTo target.table target.column a) {nonces : NonceStream}
    {values : List (Option Value)}
    (hencrypt : CommandLine.transform r .encrypt target nonces = .ok values)
    (hnumeral : ∀ v ∈ values, ∀ n : Int64, ¬Denotes (displayValue v).toList n.toInt)
    (nonces' : NonceStream) :
    CommandLine.transform r .decrypt { target with values := values.map displayValue } nonces' =
      .ok (target.values.map fun s => (readValue s).map Value.canonical) := by
  have hencrypt' : r.encryptValues target.database target.schema target.table target.column
      (target.values.map readValue) nonces = (.ok values, _) := Prod.ext hencrypt rfl
  have hread : (values.map displayValue).map readValue = values := by
    have hline : ∀ v ∈ values, readValue (displayValue v) = id v := by
      refine fun v hv => readValue_displayValue ?_ (hnumeral v hv)
      rintro w rfl
      exact Rule.exists_bytes_of_mem_encryptValues ha hresolves hencrypt' hv
    rw [List.map_map]
    exact (List.map_congr_left hline).trans (List.map_id values)
  have hdecrypt := Rule.decryptValues_of_encryptValues ha rfl hresolves hresolves hencrypt' nonces'
  rw [List.map_map] at hdecrypt
  change (r.decryptValues target.database target.schema target.table target.column
    ((values.map displayValue).map readValue) nonces').1 = _
  rw [hread, hdecrypt]
  rfl

/-- What is printed back for an argument is the text of the value that it was read as. -/
theorem run_decrypt_of_run_encrypt (target : Target) (hrule : loadRule target.config view = .ok r)
    (ha : ∀ x, a ≠ .hmacSha256 x) (hresolves : r.ResolvesTo target.table target.column a)
    {nonces : NonceStream} {lines : List String}
    (hencrypt : (Command.transform .encrypt target).run view nonces = .ok lines)
    (hnumeral : ∀ line ∈ lines, ∀ n : Int64, ¬Denotes line.toList n.toInt)
    (nonces' : NonceStream) :
    (Command.transform .decrypt { target with values := lines }).run view nonces' =
      .ok (target.values.map fun s => displayValue (readValue s)) := by
  obtain ⟨r', values, hrule', hvalues, rfl⟩ := run_transform_eq_ok_iff.mp hencrypt
  obtain rfl := Except.ok.inj (hrule.symm.trans hrule')
  refine run_transform_eq_ok_iff.mpr ⟨r, _, hrule, transform_decrypt_of_encrypt ha hresolves
    hvalues (fun v hv => hnumeral _ (List.mem_map_of_mem hv)) nonces', ?_⟩
  simp only [List.map_map, Function.comp_def, displayValue_canonical]

/-- The deterministic cipher prints no numeral for values whose seals are padded. -/
theorem exists_run_encrypt_aesSiv (target : Target) {key : Siv.Key}
    (hrule : loadRule target.config view = .ok r)
    (hresolves : r.ResolvesTo target.table target.column (.aesSiv key)) (nonces : NonceStream)
    (hpadded : ∀ s ∈ target.values, ∀ v, readValue s = some v → v.plainBytes.length % 3 ≠ 2) :
    ∃ lines, (Command.transform .encrypt target).run view nonces = .ok lines ∧
      ∀ line ∈ lines, ∀ n : Int64, ¬Denotes line.toList n.toInt := by
  have hvalues := Rule.encryptValues_aesSiv hresolves target.database target.schema
    (target.values.map readValue) nonces
  refine ⟨_, run_transform_eq_ok_iff.mpr ⟨r, _, hrule, congrArg Prod.fst hvalues, rfl⟩, ?_⟩
  simp only [List.map_map, List.mem_map, Function.comp_apply]
  rintro line ⟨s, hs, rfl⟩ n
  cases hv : readValue s with
  | none =>
    have hnull : IsNull nullText := by decide
    exact fun hn => not_isNull_of_denotes hn hnull
  | some v =>
    apply Base64.not_denotes_encode
    have hlength := hpadded s hs v hv
    rw [Siv.length_sealed]
    omega

/-! One column. The file is the text of a configuration with one column and its encryptor. -/

def configOfColumn (table : String) (c : ColumnConfig) (encryptor : AlgorithmConfig) : RuleConfig :=
  ⟨[⟨table, [c], none⟩], .ofList [(c.encryptorName, encryptor)], true⟩

/-- A file that is not JSON and holds the text of a configuration is read as this configuration. -/
theorem ofFile_toToml {path : String} (hpath : RuleConfig.isJsonPath path = false)
    (c : RuleConfig) :
    RuleConfig.ofFile path (.content (Utf8.encode c.toToml)) = .ok c := by
  have hnames : (c.listing.map ListedEncryptor.name).Nodup := by
    rw [RuleConfig.listing, List.map_map]
    exact c.encryptors.nodup_keys
  have hread : RuleConfig.ofToml c.toToml = some c := by
    rw [RuleConfig.ofToml, RuleConfig.toToml,
      RuleConfig.read_render_linesWith hnames c.lists_listing.props]
    exact RuleConfig.ofDocument_entriesWith .ignored c.lists_listing.encryptors
  simp [RuleConfig.ofFile, FileView.text, hpath, hread]

/-- The rule of a file with one column. -/
theorem loadRule_configOfColumn {path table : String} (hpath : RuleConfig.isJsonPath path = false)
    {c : ColumnConfig} {encryptor : AlgorithmConfig}
    (hpasses : (configOfColumn table c encryptor).fault?
      (configOfColumn table c encryptor).encryptors.contains = none)
    (ha : Algorithm.ofConfig encryptor = .ok a) :
    loadRule path (.content (Utf8.encode (configOfColumn table c encryptor).toToml)) =
      .ok (Rule.ofColumn table c a 0) := by
  have hbuild : (Registry.ofEntries 0 (configOfColumn table c encryptor).encryptors.entries :
      Except Error (Registry NonceStream)) =
        .ok (Registry.empty.insert c.encryptorName (a.encryptor 0)) := by
    change (Registry.build 0 [(c.encryptorName, encryptor)]).map _ = _
    rw [Registry.build, ha]
    rfl
  have hrule : (Rule.ofConfig 0 (configOfColumn table c encryptor) :
      Except Error (Rule NonceStream)) = .ok (Rule.ofColumn table c a 0) := by
    rw [Rule.ofConfig, Rule.ofConfigIn_of_passes (RuleConfig.fault?_eq_none_iff.mp hpasses), hbuild]
    rfl
  rw [loadRule, ofFile_toToml hpath]
  exact congrArg (Except.mapError Failure.build) hrule

def sampleColumn : ColumnConfig := ⟨"no", "no_cipher", none, none, "aes", none, none⟩

def sampleEncryptor : AlgorithmConfig :=
  ⟨"AES_SIV", .ofList [("aes-key-value", .ofList (.replicate 128 '4'))]⟩

def sampleKey : Siv.Key := .replicate 64 0x44

/-- A file with one column, which is encrypted deterministically. -/
def sampleView : FileView :=
  .content (Utf8.encode (configOfColumn "card" sampleColumn sampleEncryptor).toToml)

def sampleRule : Rule NonceStream := .ofColumn "card" sampleColumn (.aesSiv sampleKey) 0

theorem ofConfig_sampleEncryptor : Algorithm.ofConfig sampleEncryptor = .ok (.aesSiv sampleKey) := by
  have hread : (Algorithm.ofConfig sampleEncryptor).toOption = some (.aesSiv sampleKey) := by
    decide +kernel
  exact Except.toOption_eq_some_iff.mp hread

theorem loadRule_sampleView : loadRule "rule" sampleView = .ok sampleRule :=
  loadRule_configOfColumn (by decide +kernel) (by decide +kernel) ofConfig_sampleEncryptor

theorem sampleRule_resolves : sampleRule.ResolvesTo "card" "no" (.aesSiv sampleKey) :=
  Rule.resolvesTo_build_insert (x := .ofConfig sampleColumn) (by decide +kernel)

/-! Numerals among the arguments of decryption. -/

theorem run_decrypt_nil (target : Target) (hrule : loadRule target.config view = .ok r)
    (hresolves : r.ResolvesTo target.table target.column a) (nonces : NonceStream) :
    (Command.transform .decrypt { target with values := [] }).run view nonces = .ok [] := by
  obtain ⟨id, hx⟩ := hresolves
  refine run_transform_eq_ok_iff.mpr ⟨r, [], hrule, ?_, rfl⟩
  simp only [CommandLine.transform, Rule.decryptValues, hx]
  rfl

/-- Decryption refuses an argument that is a numeral, since it is read as a number; only what stands
before it may be refused earlier. -/
theorem run_decrypt_of_numeral (target : Target) (hrule : loadRule target.config view = .ok r)
    (ha : ∀ x, a ≠ .hmacSha256 x) (hresolves : r.ResolvesTo target.table target.column a)
    (hn : Denotes s.toList n.toInt) (before after : List String) (nonces : NonceStream) :
    (Command.transform .decrypt { target with values := before ++ s :: after }).run view nonces =
      (Command.transform .decrypt { target with values := before }).run view nonces >>=
        fun _ => .error (.transform (.decryption .notText)) := by
  have hbatch : CommandLine.transform r .decrypt { target with values := before ++ s :: after }
      nonces = CommandLine.transform r .decrypt { target with values := before } nonces >>=
        fun _ => .error (.decryption .notText) := by
    simp only [CommandLine.transform, List.map_append, List.map_cons, readValue_of_denotes hn]
    exact Rule.decryptValues_int ha hresolves n _ _ _ _ _
  simp only [run_transform, hrule, bind, Except.bind, hbatch]
  cases CommandLine.transform r .decrypt { target with values := before } nonces with
  | error e => rfl
  | ok values => rfl

/-- A refused line. In this place "bH" is printed as the text of its eighteen sealed bytes, and all
symbols of the text are digits. -/
example (nonces : NonceStream) :
    let line := "000003886037211293620331"
    let target : Target := ⟨"rule", "card", "no", "kLZxrBMeUe0IvnFZ", "public", [line]⟩
    (∃ b, decodeCipher (.text line) = .ok b ∧ b.length = 18) ∧
      (Command.transform .decrypt target).run sampleView nonces =
        .error (.transform (.decryption .notText)) := by
  intro line target
  obtain ⟨b, hencode, hlength⟩ : ∃ b, Base64.encode b = line ∧ b.length = 18 :=
    ⟨[0xd3, 0x4d, 0x34, 0xd3, 0x7f, 0x3c, 0xeb, 0x4d, 0xfb, 0xdb, 0x5d, 0x76, 0xf7, 0x7e, 0xb6,
      0xd3, 0x7d, 0xf5], by decide, rfl⟩
  have hn : Denotes line.toList (3886037211293620331 : Int64).toInt :=
    Decimal.readInt64?_eq_some_iff.mp (by decide)
  refine ⟨⟨b, decodeCipher_eq_ok_iff.mpr (congrArg Value.text hencode.symm), hlength⟩, ?_⟩
  have hrefused := run_decrypt_of_numeral target loadRule_sampleView
    (Algorithm.aesSiv_ne_hmacSha256 sampleKey) sampleRule_resolves hn [] [] nonces
  rw [run_decrypt_nil target loadRule_sampleView sampleRule_resolves] at hrefused
  exact hrefused

/-- The lines that were printed for encrypted values are decrypted exactly if none is a numeral. -/
theorem exists_run_decrypt_iff (target : Target) (hrule : loadRule target.config view = .ok r)
    (ha : ∀ x, a ≠ .hmacSha256 x) (hresolves : r.ResolvesTo target.table target.column a)
    {nonces : NonceStream} {lines : List String}
    (hencrypt : (Command.transform .encrypt target).run view nonces = .ok lines)
    (nonces' : NonceStream) :
    (∃ printed, (Command.transform .decrypt { target with values := lines }).run view nonces' =
        .ok printed) ↔
      ∀ line ∈ lines, ∀ n : Int64, ¬Denotes line.toList n.toInt := by
  constructor
  · rintro ⟨printed, hprinted⟩ line hline n hn
    obtain ⟨before, after, rfl⟩ := List.append_of_mem hline
    rw [run_decrypt_of_numeral target hrule ha hresolves hn] at hprinted
    obtain ⟨_, -, h⟩ := Except.bind_eq_ok_iff.mp hprinted
    simp at h
  · exact fun hnumeral => ⟨_, run_decrypt_of_run_encrypt target hrule ha hresolves hencrypt hnumeral
      nonces'⟩

/-! What comes back. -/

/-- A number with zeros before it comes back without them. -/
theorem argument_comes_back_changed :
    let target : Target := ⟨"rule", "card", "no", "sharding_db", "public", ["007"]⟩
    let nonces : NonceStream := ⟨fun _ => .replicate 12 0, 0⟩
    ∃ r x lines, loadRule target.config sampleView = .ok r ∧
      r.findEncryptor? target.table target.column = some x ∧
      x.algorithm = Algorithm.aesSivType ∧
      (Command.transform .encrypt target).run sampleView nonces = .ok lines ∧
      (Command.transform .decrypt { target with values := lines }).run sampleView nonces =
        .ok ["7"] := by
  intro target nonces
  obtain ⟨id, hx⟩ := sampleRule_resolves
  have hread : readValue "007" = some (.int 7) := by decide +kernel
  obtain ⟨lines, hencrypt, hnumeral⟩ := exists_run_encrypt_aesSiv target
    loadRule_sampleView sampleRule_resolves nonces (by decide +kernel)
  refine ⟨sampleRule, _, lines, loadRule_sampleView, hx, rfl, hencrypt, ?_⟩
  rw [run_decrypt_of_run_encrypt target loadRule_sampleView (Algorithm.aesSiv_ne_hmacSha256 sampleKey)
    sampleRule_resolves hencrypt hnumeral]
  change Except.ok [displayValue (readValue "007")] = _
  rw [hread]
  rfl

/-- Decrypting what was printed for encrypted arguments. The column is encrypted by a cipher that can
be read, and no printed line is a numeral. Then NULL comes back in capitals, an argument that denotes
a 64-bit integer comes back as this integer is printed, and so unchanged if it was written so, and
any other argument comes back unchanged. -/
theorem decrypt_prints_values (target : Target) (hrule : loadRule target.config view = .ok r)
    (hcipher : ∃ x, r.findEncryptor? target.table target.column = some x ∧
      (x.algorithm = Algorithm.aesSivType ∨ x.algorithm = Algorithm.chaCha20Poly1305Type))
    {nonces : NonceStream} {lines : List String}
    (hencrypt : (Command.transform .encrypt target).run view nonces = .ok lines)
    (hnumeral : ∀ line ∈ lines, ∀ n : Int64, ¬Denotes line.toList n.toInt)
    (nonces' : NonceStream) :
    ∃ printed : List String,
      (Command.transform .decrypt { target with values := lines }).run view nonces' =
        .ok printed ∧
      printed.length = target.values.length ∧
      ∀ (i : Nat) (s : String), target.values[i]? = some s →
        (IsNull s → printed[i]? = some nullText) ∧
        (∀ n : Int64, Denotes s.toList n.toInt →
          printed[i]? = some (Decimal.ofInt n.toInt)) ∧
        (¬IsNull s → (∀ n : Int64, Denotes s.toList n.toInt → s = Decimal.ofInt n.toInt) →
          printed[i]? = some s) := by
  obtain ⟨x, hx, htype⟩ := hcipher
  obtain ⟨c, hc⟩ : ∃ c, (Rule.ofConfig 0 c : Except Error (Rule NonceStream)) = .ok r := by
    unfold loadRule at hrule
    split at hrule
    · simp at hrule
    · exact ⟨_, Except.mapError_eq_ok_iff.mp hrule⟩
  obtain ⟨a, hresolves, hname⟩ := Rule.exists_algorithm_of_findEncryptor? hc hx
  have ha : ∀ index, a ≠ .hmacSha256 index := by
    rintro index rfl
    rw [hname] at htype
    simp [Algorithm.typeName, Algorithm.aesSivType, Algorithm.chaCha20Poly1305Type] at htype
  refine ⟨_, run_decrypt_of_run_encrypt target hrule ha hresolves hencrypt hnumeral nonces',
    List.length_map _, fun i s hs => ?_⟩
  rw [List.getElem?_map, hs, Option.map_some]
  refine ⟨fun hnull => ?_, fun n hn => ?_, fun hnull hprinted => ?_⟩
  · rw [readValue_of_isNull hnull]
    rfl
  · rw [readValue_of_denotes hn]
    rfl
  · by_cases hn : ∃ n : Int64, Denotes s.toList n.toInt
    · obtain ⟨n, hn⟩ := hn
      rw [readValue_of_denotes hn, hprinted n hn]
      rfl
    · rw [readValue_of_text hnull (not_exists.mp hn)]
      rfl

/-- A number, NULL and a text, which come back as "7", in capitals and unchanged. -/
theorem decrypt_prints_values_three :
    let target : Target := ⟨"rule", "CARD", "No", "shop", "public", ["007", "null", "ann"]⟩
    let nonces : NonceStream := ⟨fun _ => .replicate 12 0, 0⟩
    ∃ lines printed : List String,
      (Command.transform .encrypt target).run sampleView nonces = .ok lines ∧
      (Command.transform .decrypt { target with values := lines }).run sampleView nonces =
        .ok printed ∧
      printed.length = 3 ∧ printed[0]? = some (Decimal.ofInt (7 : Int64).toInt) ∧
      printed[1]? = some nullText ∧ printed[2]? = some "ann" := by
  intro target nonces
  have hresolves : sampleRule.ResolvesTo "CARD" "No" (.aesSiv sampleKey) :=
    Rule.resolvesTo_build_insert (x := .ofConfig sampleColumn) (by decide +kernel)
  have hfound := hresolves
  obtain ⟨id, hx⟩ := hfound
  obtain ⟨lines, hencrypt, hnumeral⟩ := exists_run_encrypt_aesSiv target
    loadRule_sampleView hresolves nonces (by decide +kernel)
  obtain ⟨printed, hdecrypt, hlength, hback⟩ := decrypt_prints_values target
    loadRule_sampleView ⟨_, hx, .inl rfl⟩ hencrypt hnumeral nonces
  have hseven : Denotes "007".toList (7 : Int64).toInt :=
    Decimal.readInt64?_eq_some_iff.mp (by decide +kernel)
  refine ⟨lines, printed, hencrypt, hdecrypt, hlength, (hback 0 "007" rfl).2.1 7 hseven,
    (hback 1 "null" rfl).1 (by decide +kernel), (hback 2 "ann" rfl).2.2 (by decide +kernel) ?_⟩
  intro n hn
  have hread : Decimal.readInt64? "ann".toList = none := by decide +kernel
  exact absurd (Decimal.readInt64?_eq_some_iff.mpr hn) (by rw [hread]; nofun)

end CommandLine

end ColumnCipher
