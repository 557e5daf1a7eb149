import ColumnCipher.Algorithm.Properties
import ColumnCipher.Proofs.Numerals
import ColumnCipher.Proofs.SpelledKeys
/-!
Which configurations describe an algorithm, and with which error the others are rejected. A key is
there if its property spells it, and a configuration describes an algorithm if it has a key of the
right length and, for an index, a size in range. What may be wrong with a configuration is stated as
a relation, several of whose cases can hold at once; the error is that of the first check that fails.
-/
namespace ColumnCipher

/-- Digits are no white space. -/
theorem Blank.not_isBlank_of_isDigit {c : Char} (h : c.isDigit) : ¬isBlank c := by
  simp only [Char.isDigit, Bool.and_eq_true, decide_eq_true_eq] at h
  obtain ⟨hlow, hhigh⟩ := h
  have hlow : 48 ≤ c.toNat := UInt32.le_iff_toNat_le.mp hlow
  have hhigh : c.toNat ≤ 57 := UInt32.le_iff_toNat_le.mp hhigh
  simp only [isBlank, Bool.or_eq_true, Bool.and_eq_true, decide_eq_true_eq, beq_iff_eq]
  omega

namespace Algorithm

def keyPropertyOf? (type : String) : Option String :=
  if type = aesSivType then some aesKeyProperty
  else if type = chaCha20Poly1305Type then some masterKeyProperty
  else if type = hmacSha256Type then some pepperProperty
  else none

/-- The number of bytes in the key of a cipher. A pepper may have any number of bytes but none. -/
def keyLengthOf? (type : String) : Option Nat :=
  if type = aesSivType then some 64
  else if type = chaCha20Poly1305Type then some 32
  else none

end Algorithm

namespace AlgorithmConfig

open Algorithm

def kind (c : AlgorithmConfig) : String := Case.upper c.type

def HasKey (c : AlgorithmConfig) (key : Bytes) : Prop :=
  ∃ property text, keyPropertyOf? c.kind = some property ∧
    c.props.find? property = some text ∧ Hex.Spells text key

/-- The size of an index is sixteen, or else what a numeral between white space denotes. -/
inductive HasIndexSize (c : AlgorithmConfig) : Nat → Prop where
  | default : c.props.find? indexSizeProperty = none → HasIndexSize c 16
  | given {text : String} {numeral : List Char} {size : Nat} :
      c.props.find? indexSizeProperty = some text → Blank.Around text numeral →
      Decimal.DenotesNat numeral size → HasIndexSize c size

/-- The algorithm that a configuration describes holds the bytes that its key property spells. -/
inductive Describes (c : AlgorithmConfig) : Algorithm → Prop where
  | aesSiv {key : Siv.Key} : c.kind = aesSivType → c.HasKey key.toList → Describes c (.aesSiv key)
  | chaCha20Poly1305 {key : ChaCha20.Key} : c.kind = chaCha20Poly1305Type →
      c.HasKey key.toList → Describes c (.chaCha20Poly1305 key)
  | hmacSha256 {x : BlindIndex} : c.kind = hmacSha256Type → c.HasKey x.pepper →
      c.HasIndexSize x.size → Describes c (.hmacSha256 x)

/-- A check that fails, by its place in the order of the checks, and its error. -/
inductive Fails (c : AlgorithmConfig) : Nat → Error → Prop where
  | unknownType : isKnown c.type = false → Fails c 0 (.unknownAlgorithm c.type)
  | missingKey {property : String} : keyPropertyOf? c.kind = some property →
      c.props.find? property = none → Fails c 1 (.invalidProperty c.kind property .missing)
  | oddKey {property text : String} : keyPropertyOf? c.kind = some property →
      c.props.find? property = some text → (Utf8.encode (Blank.trim text)).length % 2 = 1 →
      Fails c 2 (.invalidProperty c.kind property (.notHex .oddLength))
  | strangeKey {property text : String} {x : UInt8} {i : Nat} :
      keyPropertyOf? c.kind = some property → c.props.find? property = some text →
      Hex.FirstStranger (Utf8.encode (Blank.trim text)) x i →
      Fails c 3 (.invalidProperty c.kind property (.notHex (.invalidByte x i)))
  | keyLength {key : Bytes} {length : Nat} : keyLengthOf? c.kind = some length → c.HasKey key →
      key.length ≠ length → Fails c 4 (.invalidKeyLength length key.length)
  | sizeText {text : String} {fault : Decimal.Fault} : c.kind = hmacSha256Type →
      c.props.find? indexSizeProperty = some text →
      Decimal.Misread (Nat.pow 2 64 - 1) (Blank.trim text).toList fault →
      Fails c 4 (.invalidProperty c.kind indexSizeProperty (.notNumber fault))
  | emptyPepper : c.kind = hmacSha256Type → c.HasKey [] → Fails c 5 (.invalidKeyLength 1 0)
  | sizeRange {size : Nat} : c.kind = hmacSha256Type → c.HasIndexSize size →
      ¬(1 ≤ size ∧ size ≤ 32) →
      Fails c 6 (.invalidProperty c.kind indexSizeProperty (.sizeOutOfRange size))

def FirstFailure (c : AlgorithmConfig) (e : Error) : Prop :=
  ∃ place, c.Fails place e ∧ ∀ place' e', c.Fails place' e' → place ≤ place'

end AlgorithmConfig

/-! The steps of a construction. -/

namespace Algorithm

/-- There are three types with a key property, each with its own. -/
theorem of_keyPropertyOf? {type property : String} (h : keyPropertyOf? type = some property) :
    type = aesSivType ∧ property = aesKeyProperty ∨
      type = chaCha20Poly1305Type ∧ property = masterKeyProperty ∨
      type = hmacSha256Type ∧ property = pepperProperty := by
  unfold keyPropertyOf? at h
  split at h
  · rename_i htype
    exact .inl ⟨htype, (Option.some.inj h).symm⟩
  · split at h
    · rename_i htype
      exact .inr (.inl ⟨htype, (Option.some.inj h).symm⟩)
    · split at h
      · rename_i htype
        exact .inr (.inr ⟨htype, (Option.some.inj h).symm⟩)
      · simp at h

theorem ne_of_keyPropertyOf?_eq_none {type : String} (h : keyPropertyOf? type = none) :
    type ≠ aesSivType ∧ type ≠ chaCha20Poly1305Type ∧ type ≠ hmacSha256Type := by
  refine ⟨?_, ?_, ?_⟩
  · rintro rfl
    exact absurd h (by decide)
  · rintro rfl
    exact absurd h (by decide)
  · rintro rfl
    exact absurd h (by decide)

theorem ne_indexSizeProperty {type property : String} (h : keyPropertyOf? type = some property) :
    property ≠ indexSizeProperty := by
  obtain ⟨-, rfl⟩ | ⟨-, rfl⟩ | ⟨-, rfl⟩ := of_keyPropertyOf? h
  · decide
  · decide
  · decide

theorem keyLengthOf?_aesSivType : keyLengthOf? aesSivType = some 64 := by decide

theorem keyLengthOf?_chaCha20Poly1305Type : keyLengthOf? chaCha20Poly1305Type = some 32 := by decide

theorem keyLengthOf?_hmacSha256Type : keyLengthOf? hmacSha256Type = none := by decide

theorem isKnown_eq (type : String) : isKnown type = (keyPropertyOf? (Case.upper type)).isSome := by
  simp only [isKnown, keyPropertyOf?, List.contains_cons, List.contains_nil, Bool.or_false]
  split
  · rename_i h
    simp [h]
  · split
    · rename_i h
      simp [h]
    · split
      · rename_i h
        simp [h]
      · simp [*]

theorem keyProperty_eq_ok_iff {props : Dict String} {algorithm property : String} {key : Bytes} :
    keyProperty props algorithm property = .ok key ↔
      ∃ text, props.find? property = some text ∧ Hex.Spells text key := by
  unfold keyProperty
  split
  · rename_i h
    simp [h]
  · rename_i text h
    rw [Except.mapError_eq_ok_iff, Hex.decode_trim_eq_ok_iff]
    simp [h]

theorem ofKey_eq_ok_iff {length : Nat} {make : Vector UInt8 length → Algorithm} {bytes : Bytes}
    {a : Algorithm} : ofKey length make bytes = .ok a ↔ ∃ key, key.toList = bytes ∧ a = make key := by
  unfold ofKey
  split
  · rename_i key hkey
    rw [Except.ok.injEq]
    constructor
    · rintro rfl
      exact ⟨key, Bytes.toList_of_vector? hkey, rfl⟩
    · rintro ⟨key', rfl, rfl⟩
      rw [Bytes.vector?_toList] at hkey
      rw [Option.some.inj hkey]
  · rename_i hnone
    simp only [reduceCtorEq, false_iff]
    rintro ⟨key, rfl, -⟩
    simp at hnone

theorem ofKey_eq_error_iff {length : Nat} {make : Vector UInt8 length → Algorithm} {bytes : Bytes}
    {e : Error} : ofKey length make bytes = .error e ↔
      bytes.length ≠ length ∧ e = .invalidKeyLength length bytes.length := by
  unfold ofKey
  split
  · rename_i key hkey
    rw [← Bytes.toList_of_vector? hkey]
    simp
  · rename_i hnone
    rw [Except.error.injEq]
    exact ⟨fun h => ⟨Bytes.vector?_eq_none_iff.mp hnone, h.symm⟩, fun h => h.2.symm⟩

theorem ofPepper_eq_ok_iff {pepper : Bytes} {size : Nat} {a : Algorithm} :
    ofPepper pepper size = .ok a ↔
      ∃ x : BlindIndex, x.pepper = pepper ∧ x.size = size ∧ a = .hmacSha256 x := by
  unfold ofPepper
  split
  · rename_i hp
    simp only [reduceCtorEq, false_iff]
    rintro ⟨x, rfl, -⟩
    exact x.pepper_ne_nil hp
  · split
    · rename_i hp hs
      rw [Except.ok.injEq]
      constructor
      · rintro rfl
        exact ⟨_, rfl, rfl, rfl⟩
      · rintro ⟨x, rfl, rfl, rfl⟩
        rfl
    · rename_i hp hs
      simp only [reduceCtorEq, false_iff]
      rintro ⟨x, -, rfl, -⟩
      exact hs ⟨x.one_le_size, x.size_le⟩

theorem ofPepper_eq_error_iff {pepper : Bytes} {size : Nat} {e : Error} :
    ofPepper pepper size = .error e ↔
      pepper = [] ∧ e = .invalidKeyLength 1 0 ∨
      pepper ≠ [] ∧ ¬(1 ≤ size ∧ size ≤ 32) ∧
        e = .invalidProperty hmacSha256Type indexSizeProperty (.sizeOutOfRange size) := by
  unfold ofPepper
  split
  · rename_i hp
    simp [hp, eq_comm]
  · rename_i hp
    split
    · rename_i hs
      simp [hp, hs]
    · rename_i hs
      simp [hp, hs, eq_comm]

end Algorithm

namespace AlgorithmConfig

open Algorithm

variable {c : AlgorithmConfig} {property text : String} {key : Bytes} {size place : Nat} {e : Error}

def withKey (c : AlgorithmConfig) (key : Bytes) : Except Error Algorithm :=
  if c.kind = aesSivType then ofAesKey key
  else if c.kind = chaCha20Poly1305Type then ofMasterKey key
  else indexSize c.props >>= ofPepper key

theorem withKey_aesSiv (h : c.kind = aesSivType) : c.withKey key = ofAesKey key := if_pos h

theorem withKey_chaCha20Poly1305 (h : c.kind = chaCha20Poly1305Type) :
    c.withKey key = ofMasterKey key := by
  unfold withKey
  rw [if_neg (h ▸ by decide), if_pos h]

theorem withKey_hmacSha256 (h : c.kind = hmacSha256Type) :
    c.withKey key = indexSize c.props >>= ofPepper key := by
  unfold withKey
  rw [if_neg (h ▸ by decide), if_neg (h ▸ by decide)]

/-- A configuration of a known type has its key read first. -/
theorem ofConfig_of_keyPropertyOf? (h : keyPropertyOf? c.kind = some property) :
    ofConfig c = keyProperty c.props c.kind property >>= c.withKey := by
  unfold ofConfig withKey
  rw [← kind]
  obtain ⟨hkind, rfl⟩ | ⟨hkind, rfl⟩ | ⟨hkind, rfl⟩ := of_keyPropertyOf? h
  · simp only [hkind]
    rfl
  · simp only [hkind]
    rfl
  · simp only [hkind]
    rfl

theorem ofConfig_of_keyPropertyOf?_eq_none (h : keyPropertyOf? c.kind = none) :
    ofConfig c = .error (.unknownAlgorithm c.type) := by
  obtain ⟨haes, hchaCha, hhmac⟩ := ne_of_keyPropertyOf?_eq_none h
  unfold ofConfig
  rw [← kind, if_neg haes, if_neg hchaCha, if_neg hhmac]

theorem isKnown_type : isKnown c.type = (keyPropertyOf? c.kind).isSome := isKnown_eq c.type

theorem HasKey.kind_eq (h : c.HasKey key) :
    c.kind = aesSivType ∨ c.kind = chaCha20Poly1305Type ∨ c.kind = hmacSha256Type := by
  obtain ⟨property, text, hproperty, -, -⟩ := h
  exact (of_keyPropertyOf? hproperty).imp And.left (.imp And.left And.left)

/-- A key property spells one byte string at most. -/
theorem HasKey.unique {key' : Bytes} (h : c.HasKey key) (h' : c.HasKey key') : key = key' := by
  obtain ⟨property, text, hproperty, htext, hspells⟩ := h
  obtain ⟨property', text', hproperty', htext', hspells'⟩ := h'
  obtain rfl := Option.some.inj (hproperty.symm.trans hproperty')
  obtain rfl := Option.some.inj (htext.symm.trans htext')
  rw [← Hex.decode_trim_eq_ok_iff] at hspells hspells'
  exact Except.ok.inj (hspells.symm.trans hspells')

theorem hasKey_iff (h : keyPropertyOf? c.kind = some property) :
    c.HasKey key ↔ keyProperty c.props c.kind property = .ok key := by
  rw [keyProperty_eq_ok_iff]
  constructor
  · rintro ⟨property', text, hproperty, htext⟩
    obtain rfl := Option.some.inj (h.symm.trans hproperty)
    exact ⟨text, htext⟩
  · rintro ⟨text, htext⟩
    exact ⟨property, text, h, htext⟩

theorem not_isBlank_of_denotesNat {numeral : List Char} (h : Decimal.DenotesNat numeral size) :
    ∀ c ∈ numeral, ¬Blank.isBlank c := by
  have hdigits {numeral : List Char} (h : Decimal.AreDigits numeral) :
      ∀ c ∈ numeral, ¬Blank.isBlank c := fun c hc => Blank.not_isBlank_of_isDigit (h.isDigit c hc)
  cases h with
  | bare h => exact hdigits h
  | plus h => exact List.forall_mem_cons.mpr ⟨by decide, hdigits h⟩

/-- The size that is read is what is configured, if that is a machine number. -/
theorem indexSize_eq_ok_iff :
    indexSize c.props = .ok size ↔ c.HasIndexSize size ∧ size ≤ Nat.pow 2 64 - 1 := by
  unfold indexSize
  split
  · rename_i hnone
    rw [Except.ok.injEq]
    constructor
    · rintro rfl
      exact ⟨.default hnone, by decide⟩
    · rintro ⟨h, -⟩
      cases h with
      | default => rfl
      | given hsome => simp [hnone] at hsome
  · rename_i text hsome
    rw [Except.mapError_eq_ok_iff, Decimal.readUnsigned_eq_ok_iff,
      Blank.trim_iff (p := fun text => Decimal.DenotesNat text size)
        fun _ h => not_isBlank_of_denotesNat h]
    refine and_congr_left fun _ => ⟨fun ⟨numeral, haround, h⟩ => .given hsome haround h, fun h => ?_⟩
    cases h with
    | default hnone => simp [hsome] at hnone
    | given htext haround h =>
      obtain rfl := Option.some.inj (hsome.symm.trans htext)
      exact ⟨_, haround, h⟩

theorem indexSize_eq_error_iff :
    indexSize c.props = .error e ↔
      ∃ text fault, c.props.find? indexSizeProperty = some text ∧
        Decimal.Misread (Nat.pow 2 64 - 1) (Blank.trim text).toList fault ∧
        e = .invalidProperty hmacSha256Type indexSizeProperty (.notNumber fault) := by
  unfold indexSize
  split
  · rename_i hnone
    simp [hnone]
  · rename_i text hsome
    rw [Except.mapError_eq_error_iff]
    constructor
    · rintro ⟨fault, hfault, rfl⟩
      exact ⟨text, fault, hsome, Decimal.readUnsigned_eq_error_iff.mp hfault, rfl⟩
    · rintro ⟨text', fault, htext, hfault, rfl⟩
      obtain rfl := Option.some.inj (hsome.symm.trans htext)
      exact ⟨fault, Decimal.readUnsigned_eq_error_iff.mpr hfault, rfl⟩

/-- A numeral between white space denotes one number. -/
theorem HasIndexSize.unique {size' : Nat} (h : c.HasIndexSize size) (h' : c.HasIndexSize size') :
    size = size' := by
  cases h with
  | default hnone =>
    cases h' with
    | default => rfl
    | given hsome => simp [hnone] at hsome
  | @given text numeral _ hsome haround hn =>
    cases h' with
    | default hnone => simp [hsome] at hnone
    | @given text' numeral' _ hsome' haround' hn' =>
      obtain rfl := Option.some.inj (hsome.symm.trans hsome')
      have htrim := Blank.trim_eq_of_around haround (not_isBlank_of_denotesNat hn)
      have htrim' := Blank.trim_eq_of_around haround' (not_isBlank_of_denotesNat hn')
      obtain rfl := htrim.symm.trans htrim'
      exact hn.unique hn'

/-- A configuration fails each check with one error at most. -/
theorem Fails.unique {e' : Error} (h : c.Fails place e) (h' : c.Fails place e') : e = e' := by
  cases h with
  | unknownType =>
    cases h' with
    | unknownType => rfl
  | missingKey hproperty =>
    cases h' with
    | missingKey hproperty' =>
      obtain rfl := Option.some.inj (hproperty.symm.trans hproperty')
      rfl
  | oddKey hproperty =>
    cases h' with
    | oddKey hproperty' =>
      obtain rfl := Option.some.inj (hproperty.symm.trans hproperty')
      rfl
  | strangeKey hproperty htext hstrange =>
    cases h' with
    | strangeKey hproperty' htext' hstrange' =>
      obtain rfl := Option.some.inj (hproperty.symm.trans hproperty')
      obtain rfl := Option.some.inj (htext.symm.trans htext')
      obtain ⟨rfl, rfl⟩ := hstrange.unique hstrange'
      rfl
  | keyLength hlength hkey =>
    cases h' with
    | keyLength hlength' hkey' =>
      obtain rfl := Option.some.inj (hlength.symm.trans hlength')
      obtain rfl := hkey.unique hkey'
      rfl
    | sizeText hkind => simp [hkind, keyLengthOf?_hmacSha256Type] at hlength
  | sizeText hkind htext hfault =>
    cases h' with
    | keyLength hlength => simp [hkind, keyLengthOf?_hmacSha256Type] at hlength
    | sizeText _ htext' hfault' =>
      obtain rfl := Option.some.inj (htext.symm.trans htext')
      obtain rfl := hfault.unique hfault'
      rfl
  | emptyPepper =>
    cases h' with
    | emptyPepper => rfl
  | sizeRange _ hsize =>
    cases h' with
    | sizeRange _ hsize' =>
      obtain rfl := hsize.unique hsize'
      rfl

/-! What is known of a configuration says which checks it has passed. -/

theorem Fails.one_le (hproperty : keyPropertyOf? c.kind = some property) (h : c.Fails place e) :
    1 ≤ place := by
  cases h with
  | unknownType h => simp [isKnown_type, hproperty] at h
  | _ => omega

theorem Fails.two_le (hproperty : keyPropertyOf? c.kind = some property)
    (htext : c.props.find? property = some text) (h : c.Fails place e) : 2 ≤ place := by
  have hplace := h.one_le hproperty
  cases h with
  | missingKey hproperty' hmissing =>
    obtain rfl := Option.some.inj (hproperty.symm.trans hproperty')
    simp [htext] at hmissing
  | _ => omega

theorem Fails.three_le (hproperty : keyPropertyOf? c.kind = some property)
    (htext : c.props.find? property = some text)
    (heven : (Utf8.encode (Blank.trim text)).length % 2 = 0) (h : c.Fails place e) : 3 ≤ place := by
  have hplace := h.two_le hproperty htext
  cases h with
  | oddKey hproperty' htext' hodd =>
    obtain rfl := Option.some.inj (hproperty.symm.trans hproperty')
    obtain rfl := Option.some.inj (htext.symm.trans htext')
    omega
  | _ => omega

theorem Fails.four_le (hkey : c.HasKey key) (h : c.Fails place e) : 4 ≤ place := by
  obtain ⟨property, text, hproperty, htext, hspells⟩ := hkey
  rw [← Hex.decode_trim_eq_ok_iff] at hspells
  have hplace := h.three_le hproperty htext (Hex.length_of_decode hspells)
  cases h with
  | strangeKey hproperty' htext' hstrange =>
    obtain rfl := Option.some.inj (hproperty.symm.trans hproperty')
    obtain rfl := Option.some.inj (htext.symm.trans htext')
    exact absurd hstrange (Hex.not_firstStranger_of_decode hspells)
  | _ => omega

/-- A cipher with a key of its length fails no check. -/
theorem not_fails_of_length (hkey : c.HasKey key) (hlength : keyLengthOf? c.kind = some key.length) :
    ¬c.Fails place e := by
  intro h
  have hplace := h.four_le hkey
  have hkind : c.kind ≠ hmacSha256Type := by
    intro hkind
    simp [hkind, keyLengthOf?_hmacSha256Type] at hlength
  cases h with
  | keyLength hlength' hkey' hne =>
    obtain rfl := hkey.unique hkey'
    exact hne (Option.some.inj (hlength.symm.trans hlength'))
  | sizeText h => exact hkind h
  | emptyPepper h => exact hkind h
  | sizeRange h => exact hkind h
  | _ => omega

theorem Fails.five_le (hkind : c.kind = hmacSha256Type) (hkey : c.HasKey key)
    (hsize : indexSize c.props = .ok size) (h : c.Fails place e) : 5 ≤ place := by
  have hplace := h.four_le hkey
  cases h with
  | keyLength hlength => simp [hkind, keyLengthOf?_hmacSha256Type] at hlength
  | sizeText _ htext hfault =>
    have herror := indexSize_eq_error_iff.mpr ⟨_, _, htext, hfault, rfl⟩
    simp [hsize] at herror
  | _ => omega

theorem Fails.six_le (hkind : c.kind = hmacSha256Type) (hkey : c.HasKey key)
    (hsize : indexSize c.props = .ok size) (hne : key ≠ []) (h : c.Fails place e) : 6 ≤ place := by
  have hplace := h.five_le hkind hkey hsize
  cases h with
  | emptyPepper _ hempty => exact absurd (hkey.unique hempty) hne
  | _ => omega

/-- A blind index with a pepper and a size in range fails no check. -/
theorem not_fails_of_size (hkind : c.kind = hmacSha256Type) (hkey : c.HasKey key)
    (hsize : indexSize c.props = .ok size) (hne : key ≠ []) (hrange : 1 ≤ size ∧ size ≤ 32) :
    ¬c.Fails place e := by
  intro h
  have hplace := h.six_le hkind hkey hsize hne
  cases h with
  | sizeRange _ hsize' hout =>
    obtain rfl := (indexSize_eq_ok_iff.mp hsize).1.unique hsize'
    exact hout hrange
  | _ => omega

/-! What is found to be wrong is the first check that fails. -/

theorem firstFailure_of_keyProperty (hproperty : keyPropertyOf? c.kind = some property)
    (h : keyProperty c.props c.kind property = .error e) : c.FirstFailure e := by
  unfold keyProperty at h
  split at h
  · rename_i hmissing
    obtain rfl := Except.error.inj h
    exact ⟨1, .missingKey hproperty hmissing, fun _ _ => Fails.one_le hproperty⟩
  · rename_i text htext
    obtain ⟨fault, hfault, rfl⟩ := Except.mapError_eq_error_iff.mp h
    cases fault with
    | oddLength =>
      exact ⟨2, .oddKey hproperty htext (Hex.decode_eq_oddLength_iff.mp hfault),
        fun _ _ => Fails.two_le hproperty htext⟩
    | invalidByte x i =>
      obtain ⟨heven, hstrange⟩ := Hex.decode_eq_invalidByte_iff.mp hfault
      exact ⟨3, .strangeKey hproperty htext hstrange,
        fun _ _ => Fails.three_le hproperty htext heven⟩

theorem firstFailure_of_ofPepper (hkind : c.kind = hmacSha256Type) (hkey : c.HasKey key)
    (hsize : indexSize c.props = .ok size) (h : ofPepper key size = .error e) :
    c.FirstFailure e := by
  rcases ofPepper_eq_error_iff.mp h with ⟨rfl, rfl⟩ | ⟨hne, hout, rfl⟩
  · exact ⟨5, .emptyPepper hkind hkey, fun _ _ => Fails.five_le hkind hkey hsize⟩
  · rw [← hkind]
    exact ⟨6, .sizeRange hkind (indexSize_eq_ok_iff.mp hsize).1 hout,
      fun _ _ => Fails.six_le hkind hkey hsize hne⟩

theorem firstFailure_of_withKey (hkey : c.HasKey key) (h : c.withKey key = .error e) :
    c.FirstFailure e := by
  rcases hkey.kind_eq with hkind | hkind | hkind
  · rw [withKey_aesSiv hkind, ofAesKey, ofKey_eq_error_iff] at h
    obtain ⟨hlength, rfl⟩ := h
    have hkeyLength : keyLengthOf? c.kind = some 64 := hkind ▸ keyLengthOf?_aesSivType
    exact ⟨4, .keyLength hkeyLength hkey hlength, fun _ _ => Fails.four_le hkey⟩
  · rw [withKey_chaCha20Poly1305 hkind, ofMasterKey, ofKey_eq_error_iff] at h
    obtain ⟨hlength, rfl⟩ := h
    have hkeyLength : keyLengthOf? c.kind = some 32 := hkind ▸ keyLengthOf?_chaCha20Poly1305Type
    exact ⟨4, .keyLength hkeyLength hkey hlength, fun _ _ => Fails.four_le hkey⟩
  · rw [withKey_hmacSha256 hkind, Except.bind_eq_error_iff] at h
    obtain herror | ⟨size, hsize, hpepper⟩ := h
    · obtain ⟨text, fault, htext, hfault, rfl⟩ := indexSize_eq_error_iff.mp herror
      rw [← hkind]
      exact ⟨4, .sizeText hkind htext hfault, fun _ _ => Fails.four_le hkey⟩
    · exact firstFailure_of_ofPepper hkind hkey hsize hpepper

theorem firstFailure_of_ofConfig (h : ofConfig c = .error e) : c.FirstFailure e := by
  cases hproperty : keyPropertyOf? c.kind with
  | none =>
    rw [ofConfig_of_keyPropertyOf?_eq_none hproperty] at h
    obtain rfl := Except.error.inj h
    have hunknown : isKnown c.type = false := by simp [isKnown_type, hproperty]
    exact ⟨0, .unknownType hunknown, fun place _ _ => Nat.zero_le place⟩
  | some property =>
    rw [ofConfig_of_keyPropertyOf? hproperty, Except.bind_eq_error_iff] at h
    obtain herror | ⟨key, hkey, hwith⟩ := h
    · exact firstFailure_of_keyProperty hproperty herror
    · exact firstFailure_of_withKey ((hasKey_iff hproperty).mpr hkey) hwith

/-! The outcome, as it is stated without the checks. -/

variable {a : Algorithm}

theorem withKey_eq_ok_iff (hkey : c.HasKey key) : c.withKey key = .ok a ↔ c.Describes a := by
  constructor
  · intro h
    rcases hkey.kind_eq with hkind | hkind | hkind
    · rw [withKey_aesSiv hkind, ofAesKey, ofKey_eq_ok_iff] at h
      obtain ⟨k, rfl, rfl⟩ := h
      exact .aesSiv hkind hkey
    · rw [withKey_chaCha20Poly1305 hkind, ofMasterKey, ofKey_eq_ok_iff] at h
      obtain ⟨k, rfl, rfl⟩ := h
      exact .chaCha20Poly1305 hkind hkey
    · rw [withKey_hmacSha256 hkind, Except.bind_eq_ok_iff] at h
      obtain ⟨size, hsize, hpepper⟩ := h
      obtain ⟨x, rfl, rfl, rfl⟩ := ofPepper_eq_ok_iff.mp hpepper
      exact .hmacSha256 hkind hkey (indexSize_eq_ok_iff.mp hsize).1
  · intro h
    cases h with
    | aesSiv hkind hkey' =>
      obtain rfl := hkey.unique hkey'
      rw [withKey_aesSiv hkind, ofAesKey, ofKey_eq_ok_iff]
      exact ⟨_, rfl, rfl⟩
    | chaCha20Poly1305 hkind hkey' =>
      obtain rfl := hkey.unique hkey'
      rw [withKey_chaCha20Poly1305 hkind, ofMasterKey, ofKey_eq_ok_iff]
      exact ⟨_, rfl, rfl⟩
    | @hmacSha256 x hkind hkey' hsize =>
      obtain rfl := hkey.unique hkey'
      have hlimit : x.size ≤ Nat.pow 2 64 - 1 := Nat.le_trans x.size_le (by decide)
      rw [withKey_hmacSha256 hkind, Except.bind_eq_ok_iff]
      exact ⟨x.size, indexSize_eq_ok_iff.mpr ⟨hsize, hlimit⟩, ofPepper_eq_ok_iff.mpr ⟨x, rfl, rfl, rfl⟩⟩

theorem Describes.exists_hasKey (h : c.Describes a) : ∃ key, c.HasKey key := by
  cases h with
  | aesSiv _ hkey => exact ⟨_, hkey⟩
  | chaCha20Poly1305 _ hkey => exact ⟨_, hkey⟩
  | hmacSha256 _ hkey _ => exact ⟨_, hkey⟩

/-- A configuration gives just the algorithm that it describes. -/
theorem ofConfig_eq_ok_iff : ofConfig c = .ok a ↔ c.Describes a := by
  cases hproperty : keyPropertyOf? c.kind with
  | none =>
    rw [ofConfig_of_keyPropertyOf?_eq_none hproperty]
    simp only [reduceCtorEq, false_iff]
    intro h
    obtain ⟨key, property, text, hsome, -⟩ := h.exists_hasKey
    simp [hproperty] at hsome
  | some property =>
    rw [ofConfig_of_keyPropertyOf? hproperty, Except.bind_eq_ok_iff]
    simp only [← hasKey_iff hproperty]
    constructor
    · rintro ⟨key, hkey, h⟩
      exact (withKey_eq_ok_iff hkey).mp h
    · intro h
      obtain ⟨key, hkey⟩ := h.exists_hasKey
      exact ⟨key, hkey, (withKey_eq_ok_iff hkey).mpr h⟩

/-- A configuration that describes an algorithm fails no check. -/
theorem Describes.not_fails (h : c.Describes a) : ¬c.Fails place e := by
  cases h with
  | aesSiv hkind hkey =>
    apply not_fails_of_length hkey
    simp [hkind, keyLengthOf?_aesSivType]
  | chaCha20Poly1305 hkind hkey =>
    apply not_fails_of_length hkey
    simp [hkind, keyLengthOf?_chaCha20Poly1305Type]
  | @hmacSha256 x hkind hkey hsize =>
    have hlimit : x.size ≤ Nat.pow 2 64 - 1 := Nat.le_trans x.size_le (by decide)
    exact not_fails_of_size hkind hkey (indexSize_eq_ok_iff.mpr ⟨hsize, hlimit⟩) x.pepper_ne_nil
      ⟨x.one_le_size, x.size_le⟩

/-- A configuration is rejected with the error of the first check that it fails. -/
theorem ofConfig_eq_error_iff : ofConfig c = .error e ↔ c.FirstFailure e := by
  refine ⟨firstFailure_of_ofConfig, fun ⟨place, hfails, hfirst⟩ => ?_⟩
  cases h : ofConfig c with
  | ok a => exact absurd hfails (ofConfig_eq_ok_iff.mp h).not_fails
  | error e' =>
    obtain ⟨place', hfails', hfirst'⟩ := firstFailure_of_ofConfig h
    obtain rfl := Nat.le_antisymm (hfirst _ _ hfails') (hfirst' _ _ hfails)
    rw [hfails.unique hfails']

theorem ofConfig_eq_unknownAlgorithm_iff {name : String} :
    ofConfig c = .error (.unknownAlgorithm name) ↔ isKnown c.type = false ∧ name = c.type := by
  rw [ofConfig_eq_error_iff]
  constructor
  · rintro ⟨place, hfails, -⟩
    cases hfails with
    | unknownType h => exact ⟨h, rfl⟩
  · rintro ⟨h, rfl⟩
    exact ⟨0, .unknownType h, fun place _ _ => Nat.zero_le place⟩

theorem exists_describes_iff :
    (∃ a, c.Describes a) ↔ ∃ key, c.HasKey key ∧
      (c.kind = aesSivType ∧ key.length = 64 ∨
        c.kind = chaCha20Poly1305Type ∧ key.length = 32 ∨
        c.kind = hmacSha256Type ∧ 1 ≤ key.length ∧
          ∃ size, c.HasIndexSize size ∧ 1 ≤ size ∧ size ≤ 32) := by
  constructor
  · rintro ⟨a, h⟩
    cases h with
    | aesSiv hkind hkey => exact ⟨_, hkey, .inl ⟨hkind, Vector.length_toList⟩⟩
    | chaCha20Poly1305 hkind hkey =>
      exact ⟨_, hkey, .inr (.inl ⟨hkind, Vector.length_toList⟩)⟩
    | @hmacSha256 x hkind hkey hsize =>
      exact ⟨_, hkey, .inr (.inr ⟨hkind, List.length_pos_iff.mpr x.pepper_ne_nil, x.size, hsize,
        x.one_le_size, x.size_le⟩)⟩
  · rintro ⟨key, hkey, ⟨hkind, hlength⟩ | ⟨hkind, hlength⟩ | ⟨hkind, hlength, size, hsize, hrange⟩⟩
    · obtain ⟨k, rfl⟩ := Bytes.exists_toList_eq hlength
      exact ⟨_, .aesSiv hkind hkey⟩
    · obtain ⟨k, rfl⟩ := Bytes.exists_toList_eq hlength
      exact ⟨_, .chaCha20Poly1305 hkind hkey⟩
    · exact ⟨.hmacSha256 ⟨key, size, List.ne_nil_of_length_pos hlength, hrange.1, hrange.2⟩,
        .hmacSha256 hkind hkey hsize⟩

def withProperty (c : AlgorithmConfig) (property text : String) : AlgorithmConfig :=
  { c with props := c.props.insert property text }

theorem withKey_withProperty (hproperty : keyPropertyOf? c.kind = some property) :
    (c.withProperty property text).withKey key = c.withKey key := by
  have hsize : indexSize (c.withProperty property text).props = indexSize c.props := by
    unfold indexSize withProperty
    rw [Dict.find?_insert, if_neg (ne_indexSizeProperty hproperty)]
  unfold withKey
  rw [hsize]
  rfl

/-- All texts that spell a key give the same. -/
theorem ofConfig_withProperty (hproperty : keyPropertyOf? c.kind = some property)
    (h : Hex.Spells text key) : ofConfig (c.withProperty property text) = c.withKey key := by
  have hkey : keyProperty (c.withProperty property text).props c.kind property = .ok key :=
    keyProperty_eq_ok_iff.mpr ⟨text, Dict.find?_insert_self c.props property text, h⟩
  have hkind : keyPropertyOf? (c.withProperty property text).kind = some property := hproperty
  rw [ofConfig_of_keyPropertyOf? hkind, ← withKey_withProperty hproperty]
  change keyProperty _ c.kind property >>= _ = _
  rw [hkey]
  rfl

end AlgorithmConfig

open AlgorithmConfig in
/-- An unknown type is rejected as such whatever the properties are, and a known one gives an
algorithm exactly if its key is spelled and of its length and, for an index, the size is in range.
The algorithm then holds the bytes that are spelled, by whichever spelling; what is rejected is
rejected with the error of the first check that it fails. -/
theorem Algorithm.descriptions_are_decided (c : AlgorithmConfig) :
    (∀ name, ofConfig c = .error (.unknownAlgorithm name) ↔
      isKnown c.type = false ∧ name = c.type) ∧
    ((∃ a, ofConfig c = .ok a) ↔ ∃ key, c.HasKey key ∧
      (c.kind = aesSivType ∧ key.length = 64 ∨
        c.kind = chaCha20Poly1305Type ∧ key.length = 32 ∨
        c.kind = hmacSha256Type ∧ 1 ≤ key.length ∧
          ∃ size, c.HasIndexSize size ∧ 1 ≤ size ∧ size ≤ 32)) ∧
    (∀ a, ofConfig c = .ok a ↔ c.Describes a) ∧
    (∀ property text key, keyPropertyOf? c.kind = some property → Hex.Spells text key →
      ofConfig (c.withProperty property text) =
        ofConfig (c.withProperty property (String.ofList (Hex.encode key)))) ∧
    ∀ e, ofConfig c = .error e ↔ c.FirstFailure e := by
  refine ⟨fun name => ofConfig_eq_unknownAlgorithm_iff, ?_, fun a => ofConfig_eq_ok_iff, ?_,
    fun e => ofConfig_eq_error_iff⟩
  · simp only [ofConfig_eq_ok_iff]
    exact exists_describes_iff
  · intro property text key hproperty h
    rw [ofConfig_withProperty hproperty h, ofConfig_withProperty hproperty (Hex.spells_encode key)]

end ColumnCipher
