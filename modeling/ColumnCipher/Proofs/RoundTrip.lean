import ColumnCipher.Rule.Batch
import ColumnCipher.Proofs.CipherText
/-!
Batches that were encrypted under one rule and are decrypted under another. The rules share the key
and the place of the column, and nothing else: names of encryptors, cipher columns, letter case and
the source of nonces may differ.
-/
namespace ColumnCipher

namespace Rule

variable {σ τ : Type}

/-- If each call of one batch is undone by a call of another in any state, so is the whole batch. -/
theorem mapPresent_inverse {f : Value → σ → Except Error Value × σ}
    {g : Value → τ → Except Error Value × τ} {back : Value → Value}
    (hcall : ∀ v w s s', f v s = (.ok w, s') → ∀ u, g w u = (.ok (back v), u))
    {vs cs : List (Option Value)} {s s' : σ} (h : mapPresent f vs s = (.ok cs, s')) (u : τ) :
    mapPresent g cs u = (.ok (vs.map (Option.map back)), u) := by
  induction vs generalizing s cs with
  | nil =>
    obtain ⟨hresult, -⟩ := Prod.mk.inj h
    obtain rfl := Except.ok.inj hresult
    rfl
  | cons x rest ih =>
    cases x with
    | none =>
      obtain ⟨others, hrest, rfl⟩ := mapPresent_none_eq_ok_iff.mp h
      exact mapPresent_none_eq_ok_iff.mpr ⟨_, ih hrest, rfl⟩
    | some v =>
      obtain ⟨w, next, others, hfirst, hrest, rfl⟩ := mapPresent_some_eq_ok_iff.mp h
      exact mapPresent_some_eq_ok_iff.mpr ⟨back v, u, _, hcall v w s next hfirst u, ih hrest, rfl⟩

/-- Calls that neither fail nor change the state map the values of a batch. -/
theorem mapPresent_pure (f : Value → Value) (vs : List (Option Value)) (s : σ) :
    mapPresent (fun v s => (.ok (f v), s)) vs s = (.ok (vs.map (Option.map f)), s) := by
  induction vs with
  | nil => rfl
  | cons x rest ih =>
    cases x with
    | none => exact mapPresent_none_eq_ok_iff.mpr ⟨_, ih, rfl⟩
    | some v => exact mapPresent_some_eq_ok_iff.mpr ⟨f v, s, _, rfl, ih, rfl⟩

/-- The place of a column depends on the lower-case forms of its names only. -/
theorem place_eq {table₁ column₁ table₂ column₂ : String}
    (htable : Case.lower table₁ = Case.lower table₂)
    (hcolumn : Case.lower column₁ = Case.lower column₂) (database schema : String) :
    place database schema table₁ column₁ = place database schema table₂ column₂ := by
  rw [place, place, htable, hcolumn]

/-- The encryptor of a column is an instance of the given algorithm with its key. -/
def ResolvesTo [NonceSource σ] (r : Rule σ) (table column : String) (a : Algorithm) : Prop :=
  ∃ id, r.findEncryptor? table column = some (a.encryptor id)

variable [NonceSource σ] [NonceSource τ]

/-- What a rule encrypts, any rule with the same key at the same place decrypts. -/
theorem decryptValues_of_encryptValues {r₁ : Rule σ} {r₂ : Rule τ} {a : Algorithm}
    (ha : ∀ x, a ≠ .hmacSha256 x) {database schema table₁ column₁ table₂ column₂ : String}
    (hplace : place database schema table₁ column₁ = place database schema table₂ column₂)
    (h₁ : r₁.ResolvesTo table₁ column₁ a) (h₂ : r₂.ResolvesTo table₂ column₂ a)
    {vs cs : List (Option Value)} {s s' : σ}
    (h : r₁.encryptValues database schema table₁ column₁ vs s = (.ok cs, s')) (u : τ) :
    r₂.decryptValues database schema table₂ column₂ cs u =
      (.ok (vs.map (Option.map Value.canonical)), u) := by
  obtain ⟨id₁, hfound₁⟩ := h₁
  obtain ⟨id₂, hfound₂⟩ := h₂
  rw [encryptValues, hfound₁, runBatch] at h
  rw [decryptValues, hfound₂, runBatch]
  refine mapPresent_inverse ?_ h u
  intro v w s s' hcall u
  obtain ⟨nonce, hnonce⟩ := a.exists_nonce_encrypt id₁ v (place database schema table₁ column₁) s
  rw [hcall] at hnonce
  have hdecrypt := Algorithm.decrypt_encrypt ha hnonce.symm
  rw [hplace] at hdecrypt
  exact Prod.ext hdecrypt rfl

/-- Under the deterministic cipher a batch always succeeds, and draws no nonces. -/
theorem encryptValues_aesSiv {r : Rule σ} {table column : String} {key : Siv.Key}
    (h : r.ResolvesTo table column (.aesSiv key)) (database schema : String)
    (vs : List (Option Value)) (s : σ) :
    r.encryptValues database schema table column vs s =
      (.ok (vs.map (Option.map fun v => encodeCipher (Siv.sealed key
        (Algorithm.sivHeaders (place database schema table column)) v.plainBytes))), s) := by
  obtain ⟨id, hfound⟩ := h
  rw [encryptValues, hfound, runBatch]
  exact mapPresent_pure _ vs s

/-- A column that is found resolves to the algorithm that is registered under its encryptor's name. -/
theorem resolvesTo_build_insert {c : RuleConfig} {g : Registry σ} {table column : String}
    {x : Column} {a : Algorithm} {id : Nat}
    (h : (build c (g.insert x.encryptorName (a.encryptor id))).findColumn? table column = some x) :
    (build c (g.insert x.encryptorName (a.encryptor id))).ResolvesTo table column a := by
  refine ⟨id, ?_⟩
  rw [findEncryptor?_eq, h, Option.bind_some]
  exact Dict.find?_insert_self ..

/-- The round trip of a batch across rules. If the columns are one place and resolve to one readable
algorithm with one key, a batch that was encrypted under the first rule decrypts under the second to
a batch of the same length, with NULL in the same positions, and every other value as its plain
bytes are read; texts come back unchanged. -/
theorem decryptValues_encryptValues {r₁ : Rule σ} {r₂ : Rule τ} {a : Algorithm}
    (ha : ∀ x, a ≠ .hmacSha256 x) {database schema table₁ column₁ table₂ column₂ : String}
    (htable : Case.lower table₁ = Case.lower table₂)
    (hcolumn : Case.lower column₁ = Case.lower column₂)
    (h₁ : r₁.ResolvesTo table₁ column₁ a) (h₂ : r₂.ResolvesTo table₂ column₂ a)
    {vs cs : List (Option Value)} {s s' : σ}
    (h : r₁.encryptValues database schema table₁ column₁ vs s = (.ok cs, s')) (u : τ) :
    ∃ ws : List (Option Value),
      r₂.decryptValues database schema table₂ column₂ cs u = (.ok ws, u) ∧
      ws.length = vs.length ∧
      (∀ i : Nat, ws[i]? = some none ↔ vs[i]? = some none) ∧
      (∀ (i : Nat) (v : Value), vs[i]? = some (some v) →
        ws[i]? = some (some (.ofPlainBytes v.plainBytes))) ∧
      (∀ (i : Nat) (x : String), vs[i]? = some (some (.text x)) →
        ws[i]? = some (some (.text x))) := by
  have hplace := place_eq htable hcolumn database schema
  refine ⟨vs.map (Option.map Value.canonical),
    decryptValues_of_encryptValues ha hplace h₁ h₂ h u, List.length_map _, ?_, ?_, ?_⟩
  · intro i
    simp
  · intro i v hv
    rw [List.getElem?_map, hv]
    rfl
  · intro i x hx
    rw [List.getElem?_map, hx, Option.map_some, Option.map_some, Value.canonical_text]

def ofColumn (table : String) (c : ColumnConfig) (a : Algorithm) (id : Nat) : Rule σ :=
  build ⟨[⟨table, [c], none⟩], .empty, true⟩
    (Registry.empty.insert c.encryptorName (a.encryptor id))

/-- Orders that were written under one name are read under another, in other letter case. -/
theorem decryptValues_encryptValues_orders :
    let a := Algorithm.aesSiv (.replicate 64 0x42)
    let old : Rule NonceStream :=
      ofColumn "Orders" ⟨"Email", "email_cipher", none, none, "first", none, none⟩ a 0
    let new : Rule NonceStream :=
      ofColumn "ORDERS" ⟨"EMAIL", "e2", none, some "e1", "second", none, some false⟩ a 7
    let nonces : NonceStream := ⟨fun _ => .replicate 12 0, 0⟩
    ∃ cs, old.encryptValues "shop" "public" "orders" "email"
        [some (.int 7), none, some (.text "ann")] nonces = (.ok cs, nonces) ∧
      ∃ ws : List (Option Value),
        new.decryptValues "shop" "public" "Orders" "EMail" cs nonces = (.ok ws, nonces) ∧
        ws.length = 3 ∧ ws[1]? = some none ∧ ws[2]? = some (some (.text "ann")) := by
  intro a old new nonces
  have h₁ : old.ResolvesTo "orders" "email" a :=
    resolvesTo_build_insert (x := .ofConfig
      ⟨"Email", "email_cipher", none, none, "first", none, none⟩) (by decide +kernel)
  have h₂ : new.ResolvesTo "Orders" "EMail" a :=
    resolvesTo_build_insert (x := .ofConfig
      ⟨"EMAIL", "e2", none, some "e1", "second", none, some false⟩) (by decide +kernel)
  have hencrypt := encryptValues_aesSiv h₁ "shop" "public"
    [some (.int 7), none, some (.text "ann")] nonces
  obtain ⟨ws, hdecrypt, hlength, hnull, -, htext⟩ := decryptValues_encryptValues
    (by simp [a]) (by decide +kernel) (by decide +kernel) h₁ h₂ hencrypt nonces
  exact ⟨_, hencrypt, ws, hdecrypt, hlength, (hnull 1).mpr rfl, htext 2 "ann" rfl⟩

end Rule

end ColumnCipher
