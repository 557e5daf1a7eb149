import ColumnCipher.Proofs.RoundTrip
import ColumnCipher.Proofs.Spelling
/-!
Comparing encrypted columns. The deterministic cipher and the blind index never fail and draw
nothing, so a batch is encrypted value by value, each by its plain bytes. Equal values are therefore
found again, and under the cipher no others.
-/
namespace ColumnCipher

theorem encodeCipher_injective {a b : Bytes} (h : encodeCipher a = encodeCipher b) : a = b := by
  have hdecoded := congrArg decodeCipher h
  simpa using hdecoded

theorem Siv.sealed_injective {key : Siv.Key} {headers : List Bytes} {a b : Bytes}
    (h : sealed key headers a = sealed key headers b) : a = b := by
  have hopened := congrArg (opened? key headers) h
  simpa using hopened

/-- Both NULL, or neither, and the same plain bytes. -/
def SamePlain : Option Value → Option Value → Prop
  | none, none => True
  | some v, some w => v.plainBytes = w.plainBytes
  | _, _ => False

/-- What is written for plain bytes is equal for equal plain bytes. -/
theorem SamePlain.map_eq {x y : Option Value} (h : SamePlain x y) (write : Bytes → Value) :
    (x.map fun v => write v.plainBytes) = y.map fun v => write v.plainBytes := by
  cases x <;> cases y <;> simp_all [SamePlain]

theorem map_eq_iff_samePlain {write : Bytes → Value} (hwrite : ∀ a b, write a = write b → a = b)
    {x y : Option Value} :
    ((x.map fun v => write v.plainBytes) = y.map fun v => write v.plainBytes) ↔ SamePlain x y := by
  refine ⟨?_, fun h => h.map_eq write⟩
  cases x <;> cases y <;> simp [SamePlain]
  exact hwrite _ _

/-- An algorithm that draws no nonces writes each value by its plain bytes. The cipher writes
different bytes differently. -/
theorem Algorithm.exists_write {σ : Type} [NonceSource σ] {a : Algorithm}
    (ha : a.isRandomized = false) (context : Context) :
    ∃ write : Bytes → Value,
      (∀ (id : Nat) (v : Value) (s : σ),
        (a.encryptor id).encrypt v context s = (.ok (write v.plainBytes), s)) ∧
      (a.typeName = aesSivType → ∀ b b', write b = write b' → b = b') := by
  cases a with
  | aesSiv key =>
    exact ⟨fun b => encodeCipher (Siv.sealed key (sivHeaders context) b), fun _ _ _ => rfl,
      fun _ _ _ h => Siv.sealed_injective (encodeCipher_injective h)⟩
  | chaCha20Poly1305 masterKey => simp [isRandomized] at ha
  | hmacSha256 x =>
    exact ⟨fun b => encodeCipher (x.index b context), fun _ _ _ => rfl, by
      simp [typeName, aesSivType]⟩

/-- The type of an algorithm tells whether it draws nonces. -/
theorem Algorithm.isRandomized_of_typeName {a : Algorithm}
    (h : a.typeName = hmacSha256Type ∨ a.typeName = aesSivType) : a.isRandomized = false := by
  cases a with
  | chaCha20Poly1305 masterKey => simp [typeName, hmacSha256Type, aesSivType] at h
  | _ => rfl

namespace Rule

variable {σ : Type}

/-- In either spelling the names of a column lead to the same two encryptors. -/
theorem find_eq_of_lower (r : Rule σ) {table table' column column' : String}
    (htable : Case.lower table = Case.lower table')
    (hcolumn : Case.lower column = Case.lower column') :
    r.findEncryptor? table column = r.findEncryptor? table' column' ∧
      r.findAssistedQueryEncryptor? table column =
        r.findAssistedQueryEncryptor? table' column' := by
  have hself : r.Alike r := ⟨fun _ => rfl, fun _ => rfl, rfl⟩
  exact (hself.sameAnswers htable hcolumn).instances rfl

variable [NonceSource σ]

/-- An encryptor that a rule has built for one of its columns is that of an algorithm. -/
theorem exists_algorithm_of_bind {id : Nat} {c : RuleConfig}
    {entries : List (String × AlgorithmConfig)} {r : Rule σ} (h : ofConfigIn id c entries = .ok r)
    {name : Option String} {x : Encryptor σ} (hx : name.bind r.registry.find? = some x) :
    ∃ (a : Algorithm) (i : Nat), x = a.encryptor i := by
  obtain ⟨found, -, hfound⟩ := Option.bind_eq_some_iff.mp hx
  obtain ⟨g, hg, -, rfl⟩ := ofConfigIn_eq_ok h
  obtain ⟨-, a, i, -, -, rfl⟩ := Registry.find?_ofEntries hg hfound
  exact ⟨a, i, rfl⟩

/-- Two batches that one deterministic encryptor writes: both succeed, equal values are written
equally, and by the cipher only these. -/
theorem compare_batches {a : Algorithm} (ha : a.isRandomized = false) (i : Nat) (context : Context)
    (missing missing' : Error) (vs ws : List (Option Value)) (s s' : σ) :
    ∃ cs ds,
      runBatch (some (a.encryptor i)) missing Encryptor.encrypt context vs s = (.ok cs, s) ∧
      runBatch (some (a.encryptor i)) missing' Encryptor.encrypt context ws s' = (.ok ds, s') ∧
      ∀ (k : Nat) (x y : Option Value), vs[k]? = some x → ws[k]? = some y →
        ∃ v w, cs[k]? = some v ∧ ds[k]? = some w ∧ (SamePlain x y → v = w) ∧
          (a.typeName = Algorithm.aesSivType → v = w → SamePlain x y) := by
  obtain ⟨write, hwrite, hinjective⟩ := a.exists_write (σ := σ) ha context
  have hrun (missing : Error) (vs : List (Option Value)) (s : σ) :
      runBatch (some (a.encryptor i)) missing Encryptor.encrypt context vs s =
        (.ok (vs.map (Option.map fun v => write v.plainBytes)), s) := by
    have hcall : ((a.encryptor i : Encryptor σ).encrypt · context) =
        fun v s => (.ok (write v.plainBytes), s) := by
      funext v s
      exact hwrite i v s
    rw [runBatch, hcall]
    exact mapPresent_pure _ vs s
  refine ⟨_, _, hrun missing vs s, hrun missing' ws s', ?_⟩
  intro k x y hx hy
  refine ⟨_, _, ?_, ?_, fun hxy => hxy.map_eq write, ?_⟩
  · rw [List.getElem?_map, hx, Option.map_some]
  · rw [List.getElem?_map, hy, Option.map_some]
  · exact fun haes hvw => (map_eq_iff_samePlain (hinjective haes)).mp hvw

/-- Equality predicates on encrypted columns. Two batches for one column, each under any spelling of
its names, are written without failing. Where the column has the deterministic cipher, they agree at
a position exactly if both values are NULL there or both have the same plain bytes. Where its index
is a blind index or the cipher, such values have the same index, whatever kinds of values they are. -/
theorem encrypted_equality {id : Nat} {c : RuleConfig} {entries : List (String × AlgorithmConfig)}
    {r : Rule σ} (h : ofConfigIn id c entries = .ok r) {table table' column column' : String}
    (htable : Case.lower table = Case.lower table')
    (hcolumn : Case.lower column = Case.lower column') (database schema : String)
    (vs ws : List (Option Value)) (s s' : σ) :
    ((r.findEncryptor? table column).map Encryptor.algorithm = some Algorithm.aesSivType →
      ∃ cs ds,
        r.encryptValues database schema table column vs s = (.ok cs, s) ∧
        r.encryptValues database schema table' column' ws s' = (.ok ds, s') ∧
        ∀ (i : Nat) (x y : Option Value), vs[i]? = some x → ws[i]? = some y →
          ∃ v w, cs[i]? = some v ∧ ds[i]? = some w ∧ (v = w ↔ SamePlain x y)) ∧
    (∀ type, (r.findAssistedQueryEncryptor? table column).map Encryptor.algorithm = some type →
      type = Algorithm.hmacSha256Type ∨ type = Algorithm.aesSivType →
      ∃ cs ds,
        r.encryptAssistedQueryValues database schema table column vs s = (.ok cs, s) ∧
        r.encryptAssistedQueryValues database schema table' column' ws s' = (.ok ds, s') ∧
        ∀ (i : Nat) (x y : Option Value), vs[i]? = some x → ws[i]? = some y →
          ∃ v w, cs[i]? = some v ∧ ds[i]? = some w ∧ (SamePlain x y → v = w)) := by
  obtain ⟨hfind, hassisted⟩ := r.find_eq_of_lower htable hcolumn
  have hplace := place_eq htable hcolumn database schema
  constructor
  · intro haes
    obtain ⟨x, hx, htype⟩ := Option.map_eq_some_iff.mp haes
    obtain ⟨a, i, rfl⟩ := exists_algorithm_of_bind h hx
    have ha := a.isRandomized_of_typeName (.inr htype)
    obtain ⟨cs, ds, hcs, hds, hall⟩ := compare_batches ha i (place database schema table column)
      (.encryptorNotFound table column) (.encryptorNotFound table' column') vs ws s s'
    refine ⟨cs, ds, ?_, ?_, ?_⟩
    · rw [encryptValues, hx, hcs]
    · rw [encryptValues, ← hfind, hx, ← hplace, hds]
    · intro k x y hx hy
      obtain ⟨v, w, hv, hw, hsame, hexact⟩ := hall k x y hx hy
      exact ⟨v, w, hv, hw, hexact htype, hsame⟩
  · intro type htype hdeterministic
    obtain ⟨x, hx, rfl⟩ := Option.map_eq_some_iff.mp htype
    obtain ⟨a, i, rfl⟩ := exists_algorithm_of_bind h hx
    have ha := a.isRandomized_of_typeName hdeterministic
    obtain ⟨cs, ds, hcs, hds, hall⟩ := compare_batches ha i (place database schema table column)
      (.assistedQueryEncryptorNotFound table column)
      (.assistedQueryEncryptorNotFound table' column') vs ws s s'
    refine ⟨cs, ds, ?_, ?_, ?_⟩
    · rw [encryptAssistedQueryValues, hx, hcs]
    · rw [encryptAssistedQueryValues, ← hassisted, hx, ← hplace, hds]
    · intro k x y hx hy
      obtain ⟨v, w, hv, hw, hsame, -⟩ := hall k x y hx hy
      exact ⟨v, w, hv, hw, hsame⟩

/-- A number and its text are equal values of a column that is encrypted and indexed, and NULL is
not the empty text. -/
theorem encrypted_equality_phone :
    let c : RuleConfig := {
      tables := [⟨"Users", [⟨"Phone", "phone_cipher", some "phone_index", none, "aes",
        some "index", none⟩], none⟩]
      encryptors := .ofList [
        ("aes", ⟨"aes_siv", .ofList [("aes-key-value", String.ofList (List.replicate 128 '4'))]⟩),
        ("index", ⟨"HMAC_SHA256", .ofList [("pepper-value", " 2a2a ")]⟩)]
      queryWithCipherColumn := true }
    let nonces : NonceStream := ⟨fun _ => .replicate 12 0, 0⟩
    ∃ r : Rule NonceStream, ofConfigIn 0 c c.encryptors.entries = .ok r ∧
      ∃ cs ds is js,
        r.encryptValues "shop" "public" "users" "PHONE" [some (.int 123), none] nonces =
          (.ok cs, nonces) ∧
        r.encryptValues "shop" "public" "USERS" "phone" [some (.text "123"), some (.text "")]
          nonces = (.ok ds, nonces) ∧
        r.encryptAssistedQueryValues "shop" "public" "users" "PHONE" [some (.int 123), none] nonces =
          (.ok is, nonces) ∧
        r.encryptAssistedQueryValues "shop" "public" "USERS" "phone"
          [some (.text "123"), some (.text "")] nonces = (.ok js, nonces) ∧
        cs[0]? = ds[0]? ∧ cs[1]? ≠ ds[1]? ∧ is[0]? = js[0]? := by
  intro c nonces
  have htypes : (ofConfigIn 0 c c.encryptors.entries : Except Error (Rule NonceStream)).toOption.map
      (fun r => ((r.findEncryptor? "users" "PHONE").map Encryptor.algorithm,
        (r.findAssistedQueryEncryptor? "users" "PHONE").map Encryptor.algorithm)) =
      some (some "AES_SIV", some "HMAC_SHA256") := by
    decide +kernel
  obtain ⟨r, hr, htypes⟩ := Option.map_eq_some_iff.mp htypes
  have hr : ofConfigIn 0 c c.encryptors.entries = .ok r := by
    cases hbuilt : (ofConfigIn 0 c c.encryptors.entries : Except Error (Rule NonceStream)) with
    | error e => simp [hbuilt, Except.toOption] at hr
    | ok r' => simpa [hbuilt, Except.toOption] using hr
  obtain ⟨hcipher, hindex⟩ := Prod.mk.inj htypes
  have htable : Case.lower "users" = Case.lower "USERS" := by decide +kernel
  have hcolumn : Case.lower "PHONE" = Case.lower "phone" := by decide +kernel
  obtain ⟨hequal, hindexed⟩ := encrypted_equality hr htable hcolumn "shop" "public"
    [some (.int 123), none] [some (.text "123"), some (.text "")] nonces nonces
  obtain ⟨cs, ds, hcs, hds, hcds⟩ := hequal hcipher
  obtain ⟨is, js, his, hjs, hijs⟩ := hindexed _ hindex (.inl rfl)
  have hsame : SamePlain (some (.int 123)) (some (.text "123")) := by
    show Value.plainBytes _ = Value.plainBytes _
    decide +kernel
  obtain ⟨v, w, hv, hw, hvw⟩ := hcds 0 _ _ rfl rfl
  obtain ⟨v', w', hv', hw', hvw'⟩ := hcds 1 _ _ rfl rfl
  obtain ⟨x, y, hx, hy, hxy⟩ := hijs 0 _ _ rfl rfl
  refine ⟨r, hr, cs, ds, is, js, hcs, hds, his, hjs, ?_, ?_, ?_⟩
  · rw [hv, hw, hvw.mpr hsame]
  · rw [hv', hw']
    exact fun heq => hvw'.mp (Option.some.inj heq)
  · rw [hx, hy, hxy hsame]

end Rule

end ColumnCipher
