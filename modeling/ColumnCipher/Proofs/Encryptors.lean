import ColumnCipher.Registry
/-!
Encryptors built from configurations. Building is all or nothing: it stops at the first
configuration that describes no algorithm, and otherwise registers each name once with the algorithm
that its configuration describes. A built encryptor reports only errors of its own kinds.
-/
namespace ColumnCipher

namespace Error

def IsRejection : Error → Prop
  | unknownAlgorithm _ | invalidProperty _ _ _ | invalidKeyLength _ _ => True
  | _ => False

def IsLookup : Error → Prop
  | encryptorNotFound _ _ | assistedQueryEncryptorNotFound _ _ | columnNotFound _ _ => True
  | _ => False

end Error

namespace Algorithm

theorem keyProperty_error {props : Dict String} {algorithm property : String} {e : Error}
    (h : keyProperty props algorithm property = .error e) : e.IsRejection := by
  unfold keyProperty at h
  split at h
  · obtain rfl := Except.error.inj h
    trivial
  · obtain ⟨fault, -, rfl⟩ := Except.mapError_eq_error_iff.mp h
    trivial

theorem indexSize_error {props : Dict String} {e : Error} (h : indexSize props = .error e) :
    e.IsRejection := by
  unfold indexSize at h
  split at h
  · simp at h
  · obtain ⟨fault, -, rfl⟩ := Except.mapError_eq_error_iff.mp h
    trivial

theorem ofKey_error {length : Nat} {make : Vector UInt8 length → Algorithm} {key : Bytes}
    {e : Error} (h : ofKey length make key = .error e) : e.IsRejection := by
  unfold ofKey at h
  split at h
  · simp at h
  · obtain rfl := Except.error.inj h
    trivial

theorem ofPepper_error {pepper : Bytes} {size : Nat} {e : Error}
    (h : ofPepper pepper size = .error e) : e.IsRejection := by
  unfold ofPepper at h
  split at h
  · obtain rfl := Except.error.inj h
    trivial
  · split at h
    · simp at h
    · obtain rfl := Except.error.inj h
      trivial

/-- A step of a construction passes on the errors of its parts. -/
theorem bind_rejection {α β : Type} {x : Except Error α} {f : α → Except Error β}
    (hx : ∀ e, x = .error e → e.IsRejection) (hf : ∀ a e, f a = .error e → e.IsRejection)
    {e : Error} (h : x >>= f = .error e) : e.IsRejection := by
  cases x with
  | error e' =>
    obtain rfl := Except.error.inj h
    exact hx e' rfl
  | ok a => exact hf a e h

/-- A configuration is rejected by its type or by one of its properties. -/
theorem ofConfig_error {config : AlgorithmConfig} {e : Error} (h : ofConfig config = .error e) :
    e.IsRejection := by
  unfold ofConfig at h
  dsimp only at h
  split at h
  · exact bind_rejection (fun _ => keyProperty_error) (fun _ _ => ofKey_error) h
  · split at h
    · exact bind_rejection (fun _ => keyProperty_error) (fun _ _ => ofKey_error) h
    · split at h
      · refine bind_rejection (fun _ => keyProperty_error) (fun _ _ h => ?_) h
        exact bind_rejection (fun _ => indexSize_error) (fun _ _ => ofPepper_error) h
      · obtain rfl := Except.error.inj h
        trivial

end Algorithm

/-- The errors of an encryptor are not those of a look-up. -/
structure Encryptor.ReportsOwn {σ : Type} (x : Encryptor σ) : Prop where
  encrypt : ∀ v context s e, (x.encrypt v context s).1 = .error e → ¬e.IsLookup
  decrypt : ∀ v context s e, (x.decrypt v context s).1 = .error e → ¬e.IsLookup

namespace Algorithm

variable {σ : Type} [NonceSource σ]

/-- No algorithm fails to encrypt but for the length of the plain bytes. -/
theorem encryptBytes_error {a : Algorithm} {nonce : ChaCha20.Nonce} {plain : Bytes}
    {context : Context} {e : Error} (h : a.encryptBytes nonce plain context = .error e) :
    e = .encryption .tooLong := by
  cases a with
  | aesSiv key => simp [encryptBytes] at h
  | chaCha20Poly1305 masterKey =>
    simp only [encryptBytes] at h
    split at h
    · simp at h
    · exact (Except.error.inj h).symm
  | hmacSha256 x => simp [encryptBytes] at h

theorem encrypt_error {a : Algorithm} {nonce : ChaCha20.Nonce} {v : Value} {context : Context}
    {e : Error} (h : a.encrypt nonce v context = .error e) : e = .encryption .tooLong :=
  encryptBytes_error (Except.map_eq_error_iff.mp h)

theorem decodeCipher_error {c : Value} {e : Error} (h : decodeCipher c = .error e) :
    ∃ fault, e = .decryption fault := by
  cases c with
  | text s =>
    obtain ⟨fault, -, rfl⟩ := Except.mapError_eq_error_iff.mp h
    exact ⟨_, rfl⟩
  | _ => exact ⟨_, (Except.error.inj h).symm⟩

theorem decryptBytes_error {a : Algorithm} {text : Bytes} {context : Context} {e : Error}
    (h : a.decryptBytes text context = .error e) :
    (∃ fault, e = .decryption fault) ∨ ∃ name, e = .oneWay name := by
  cases a with
  | aesSiv key =>
    simp only [decryptBytes] at h
    split at h
    · simp at h
    · exact .inl ⟨_, (Except.error.inj h).symm⟩
  | chaCha20Poly1305 masterKey =>
    simp only [decryptBytes] at h
    split at h
    · exact .inl ⟨_, (Except.error.inj h).symm⟩
    · split at h
      · simp at h
      · exact .inl ⟨_, (Except.error.inj h).symm⟩
  | hmacSha256 x => exact .inr ⟨_, (Except.error.inj h).symm⟩

theorem decrypt_error {a : Algorithm} {c : Value} {context : Context} {e : Error}
    (h : a.decrypt c context = .error e) :
    (∃ fault, e = .decryption fault) ∨ ∃ name, e = .oneWay name := by
  by_cases ha : ∃ x, a = .hmacSha256 x
  · obtain ⟨x, rfl⟩ := ha
    exact .inr ⟨_, (Except.error.inj h).symm⟩
  · rw [decrypt_eq (fun x hx => ha ⟨x, hx⟩)] at h
    split at h
    · rename_i e' hdecode
      obtain rfl := Except.error.inj h
      exact .inl (decodeCipher_error hdecode)
    · exact decryptBytes_error (Except.map_eq_error_iff.mp h)

/-- The built-in algorithms fail to encrypt and to decrypt, not to be found. -/
theorem encryptor_reportsOwn (a : Algorithm) (id : Nat) :
    (a.encryptor id : Encryptor σ).ReportsOwn where
  encrypt := by
    intro v context s e h
    obtain ⟨nonce, hnonce⟩ := a.exists_nonce_encrypt id v context s
    rw [hnonce] at h
    rw [encrypt_error h]
    exact not_false
  decrypt := by
    intro v context s e h
    rcases decrypt_error h with ⟨fault, rfl⟩ | ⟨name, rfl⟩
    · exact not_false
    · exact not_false

end Algorithm

namespace Registry

variable {σ : Type} [NonceSource σ]

/-- Building fails with the error of the first configuration that describes no algorithm. -/
theorem build_eq_error_iff {id : Nat} {l : List (String × AlgorithmConfig)} {e : Error} :
    (build id l : Except Error (List (String × Encryptor σ))) = .error e ↔
      ∃ before entry after, l = before ++ entry :: after ∧
        (∀ x ∈ before, ∃ a, Algorithm.ofConfig x.2 = .ok a) ∧
        Algorithm.ofConfig entry.2 = .error e := by
  induction l generalizing id with
  | nil => simp [build]
  | cons x rest ih =>
    obtain ⟨name, config⟩ := x
    cases hx : Algorithm.ofConfig config with
    | error e' =>
      have hbuild : (build id ((name, config) :: rest) :
          Except Error (List (String × Encryptor σ))) = .error e' := by
        simp only [build, hx]
      rw [hbuild, Except.error.injEq]
      constructor
      · rintro rfl
        exact ⟨[], (name, config), rest, rfl, by simp, hx⟩
      · rintro ⟨before, entry, after, hl, hbefore, hentry⟩
        cases before with
        | nil =>
          obtain ⟨rfl, -⟩ := List.cons.inj hl
          exact Except.error.inj (hx.symm.trans hentry)
        | cons y before =>
          obtain ⟨rfl, -⟩ := List.cons.inj hl
          obtain ⟨a, ha⟩ := hbefore _ (.head _)
          simp [hx] at ha
    | ok a =>
      simp only [build, hx, Except.map_eq_error_iff, ih]
      constructor
      · rintro ⟨before, entry, after, rfl, hbefore, hentry⟩
        refine ⟨(name, config) :: before, entry, after, rfl, ?_, hentry⟩
        intro y hy
        rcases List.mem_cons.mp hy with rfl | hy
        · exact ⟨a, hx⟩
        · exact hbefore y hy
      · rintro ⟨before, entry, after, hl, hbefore, hentry⟩
        cases before with
        | nil =>
          obtain ⟨rfl, -⟩ := List.cons.inj hl
          simp [hx] at hentry
        | cons y before =>
          obtain ⟨-, rfl⟩ := List.cons.inj hl
          exact ⟨before, entry, after, rfl, fun z hz => hbefore z (.tail _ hz), hentry⟩

/-- What is built has the names of the configurations, each of which describes an algorithm, and
each encryptor is the algorithm that a configuration of its name describes. -/
theorem build_eq_ok {id : Nat} {l : List (String × AlgorithmConfig)}
    {built : List (String × Encryptor σ)} (h : build id l = .ok built) :
    built.map Prod.fst = l.map Prod.fst ∧
      (∀ y ∈ l, ∃ a, Algorithm.ofConfig y.2 = .ok a) ∧
      ∀ x ∈ built, ∃ config a i,
        (x.1, config) ∈ l ∧ Algorithm.ofConfig config = .ok a ∧ x.2 = a.encryptor i := by
  induction l generalizing id built with
  | nil =>
    obtain rfl := Except.ok.inj h
    simp
  | cons y rest ih =>
    obtain ⟨name, config⟩ := y
    simp only [build] at h
    cases hy : Algorithm.ofConfig config with
    | error e => simp [hy] at h
    | ok a =>
      rw [hy] at h
      obtain ⟨others, hr, rfl⟩ := Except.map_eq_ok_iff.mp h
      obtain ⟨hnames, hconfigs, hothers⟩ := ih hr
      refine ⟨by simp [hnames], ?_, ?_⟩
      · intro z hz
        rcases List.mem_cons.mp hz with rfl | hz
        · exact ⟨a, hy⟩
        · exact hconfigs z hz
      · intro x hx
        rcases List.mem_cons.mp hx with rfl | hx
        · exact ⟨config, a, id, .head _, hy, rfl⟩
        · obtain ⟨config', a', i, hmem, ha', hx'⟩ := hothers x hx
          exact ⟨config', a', i, .tail _ hmem, ha', hx'⟩

theorem ofEntries_eq_ok {id : Nat} {entries : List (String × AlgorithmConfig)} {r : Registry σ}
    (h : ofEntries id entries = .ok r) :
    ∃ built, build id entries = .ok built ∧ r.encryptors = .ofList built := by
  obtain ⟨built, hb, rfl⟩ := Except.map_eq_ok_iff.mp h
  exact ⟨built, hb, rfl⟩

/-- A registry is not built because of one of the configurations. -/
theorem ofEntries_error {id : Nat} {entries : List (String × AlgorithmConfig)} {e : Error}
    (h : (ofEntries id entries : Except Error (Registry σ)) = .error e) :
    ∃ entry ∈ entries, Algorithm.ofConfig entry.2 = .error e := by
  obtain ⟨before, entry, after, rfl, -, hentry⟩ :=
    build_eq_error_iff.mp (Except.map_eq_error_iff.mp h)
  exact ⟨entry, by simp, hentry⟩

/-- A registry is built exactly if every configuration describes an algorithm. -/
theorem exists_ofEntries_iff {id : Nat} {entries : List (String × AlgorithmConfig)} :
    (∃ r : Registry σ, ofEntries id entries = .ok r) ↔
      ∀ entry ∈ entries, ∃ a, Algorithm.ofConfig entry.2 = .ok a := by
  constructor
  · rintro ⟨r, h⟩
    obtain ⟨built, hb, -⟩ := ofEntries_eq_ok h
    exact (build_eq_ok hb).2.1
  · intro hall
    cases h : (ofEntries id entries : Except Error (Registry σ)) with
    | ok r => exact ⟨r, rfl⟩
    | error e =>
      obtain ⟨entry, hmem, herror⟩ := ofEntries_error h
      obtain ⟨a, ha⟩ := hall entry hmem
      simp [herror] at ha

/-- A built registry has the configured names. -/
theorem contains_ofEntries {id : Nat} {entries : List (String × AlgorithmConfig)} {r : Registry σ}
    (h : ofEntries id entries = .ok r) (name : String) :
    r.contains name ↔ name ∈ entries.map Prod.fst := by
  obtain ⟨built, hb, hr⟩ := ofEntries_eq_ok h
  rw [contains, hr, Dict.contains_ofList, (build_eq_ok hb).1]

/-- Each encryptor of a built registry is the algorithm of a configuration with its name. -/
theorem find?_ofEntries {id : Nat} {entries : List (String × AlgorithmConfig)} {r : Registry σ}
    (h : ofEntries id entries = .ok r) {name : String} {x : Encryptor σ}
    (hx : r.find? name = some x) :
    ∃ config a i, (name, config) ∈ entries ∧ Algorithm.ofConfig config = .ok a ∧
      x = a.encryptor i := by
  obtain ⟨built, hb, hr⟩ := ofEntries_eq_ok h
  rw [find?, hr] at hx
  exact (build_eq_ok hb).2.2 (name, x) (Dict.mem_of_find?_ofList hx)

end Registry

end ColumnCipher
