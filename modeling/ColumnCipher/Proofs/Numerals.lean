import ColumnCipher.Decimal.Integer
/-!
Numerals of integers. A numeral is an optional sign and then digits, in any number and with any zeros
before them; the printed form of an integer is one of its numerals. Reading accepts exactly the
numerals of the numbers in range, and gives the number that a numeral denotes. A text that is refused
as a number without a sign has the fault that a reader from left to right meets first.
-/
namespace ColumnCipher.Decimal

structure AreDigits (text : List Char) : Prop where
  ne_nil : text ≠ []
  isDigit : ∀ c ∈ text, c.isDigit

/-- A text that is a numeral, with the integer that it denotes. -/
inductive Denotes : List Char → Int → Prop where
  | unsigned {text : List Char} : AreDigits text → Denotes text (Nat.ofDigitChars 10 text 0)
  | plus {text : List Char} : AreDigits text → Denotes ('+' :: text) (Nat.ofDigitChars 10 text 0)
  | minus {text : List Char} : AreDigits text → Denotes ('-' :: text) (-Nat.ofDigitChars 10 text 0)

/-- Printed digits are digits. -/
theorem areDigits_digits (n : Nat) : AreDigits (digits n) :=
  ⟨Nat.toDigits_ne_nil, fun _ => Nat.isDigit_of_mem_toDigits (by decide) (by decide)⟩

/-- The printed form of an integer is one of its numerals. -/
theorem denotes_ofInt (n : Int) : Denotes (ofInt n).toList n := by
  have hvalue : Nat.ofDigitChars 10 (digits n.natAbs) 0 = n.natAbs := Nat.ofDigitChars_ten_toDigits
  unfold ofInt
  split
  · have hminus := Denotes.minus (areDigits_digits n.natAbs)
    rw [hvalue, show -(n.natAbs : Int) = n by omega] at hminus
    rwa [String.toList_ofList]
  · have hunsigned := Denotes.unsigned (areDigits_digits n.natAbs)
    rw [hvalue, show (n.natAbs : Int) = n by omega] at hunsigned
    rwa [ofNat, String.toList_ofList]

/-- A numeral has digits only, apart from its sign. -/
theorem Denotes.isDigit_or_sign {text : List Char} {n : Int} (h : Denotes text n) {c : Char}
    (hc : c ∈ text) : c.isDigit ∨ c = '+' ∨ c = '-' := by
  cases h with
  | unsigned hdigits => exact .inl (hdigits.isDigit c hc)
  | plus hdigits =>
    rcases List.mem_cons.mp hc with rfl | hc
    · exact .inr (.inl rfl)
    · exact .inl (hdigits.isDigit c hc)
  | minus hdigits =>
    rcases List.mem_cons.mp hc with rfl | hc
    · exact .inr (.inr rfl)
    · exact .inl (hdigits.isDigit c hc)

theorem digit?_eq_some_iff {c : Char} {d : Nat} :
    digit? c = some d ↔ c.isDigit ∧ c.toNat - '0'.toNat = d := by
  have hdigit : '0' ≤ c ∧ c ≤ '9' ↔ c.isDigit := by
    simp [Char.isDigit, Char.le_def]
  simp only [digit?, hdigit]
  split
  · rename_i hc
    simp [hc]
  · rename_i hc
    simp [hc]

theorem digit?_eq_none_iff {c : Char} : digit? c = none ↔ ¬c.isDigit := by
  rw [Option.eq_none_iff_forall_ne_some]
  simp [Ne, digit?_eq_some_iff]

/-- Digits that are read onto a number make it no smaller. -/
theorem le_ofDigitChars (text : List Char) (n : Nat) : n ≤ Nat.ofDigitChars 10 text n := by
  rw [Nat.ofDigitChars_eq_ofDigitChars_zero]
  exact Nat.le_add_right_of_le (Nat.le_mul_of_pos_left n (Nat.pow_pos (by decide)))

/-- Digits are read up to the limit. It is enough to compare the whole number with the limit, since
the numbers on the way are no greater. -/
theorem readDigits_eq_ok_iff {limit n m : Nat} {text : List Char} (hn : n ≤ limit) :
    readDigits limit n text = .ok m ↔
      (∀ c ∈ text, c.isDigit) ∧ Nat.ofDigitChars 10 text n = m ∧ m ≤ limit := by
  induction text generalizing n with
  | nil =>
    simp only [readDigits, Except.ok.injEq, Nat.ofDigitChars_nil, List.not_mem_nil,
      false_imp_iff, implies_true, true_and]
    constructor
    · rintro rfl
      exact ⟨rfl, hn⟩
    · rintro ⟨rfl, -⟩
      rfl
  | cons c rest ih =>
    cases hd : digit? c with
    | none =>
      have hc := digit?_eq_none_iff.mp hd
      simp [readDigits, hd, hc]
    | some d =>
      obtain ⟨hc, rfl⟩ := digit?_eq_some_iff.mp hd
      simp only [readDigits, hd, List.forall_mem_cons, hc, true_and, Nat.ofDigitChars_cons]
      split
      · rename_i hlimit
        have hle := le_ofDigitChars rest (10 * n + (c.toNat - '0'.toNat))
        simp only [reduceCtorEq, false_iff]
        rintro ⟨-, rfl, hm⟩
        omega
      · rename_i hlimit
        exact ih (Nat.le_of_not_lt hlimit)

theorem readNat_eq_ok_iff {limit n : Nat} {text : List Char} :
    readNat limit text = .ok n ↔
      AreDigits text ∧ Nat.ofDigitChars 10 text 0 = n ∧ n ≤ limit := by
  cases text with
  | nil =>
    simp only [readNat, reduceCtorEq, false_iff]
    exact fun h => h.1.ne_nil rfl
  | cons c rest =>
    rw [readNat, readDigits_eq_ok_iff (Nat.zero_le limit)]
    exact ⟨fun ⟨h, hn⟩ => ⟨⟨by simp, h⟩, hn⟩, fun ⟨h, hn⟩ => ⟨h.isDigit, hn⟩⟩

/-! Signs. A numeral without a sign starts with a digit, so each text is read in one way. -/

theorem denotes_minus_iff {text : List Char} {n : Int} :
    Denotes ('-' :: text) n ↔ AreDigits text ∧ -(Nat.ofDigitChars 10 text 0 : Int) = n := by
  constructor
  · intro h
    cases h with
    | unsigned hdigits => exact absurd (hdigits.isDigit '-' (.head _)) (by decide)
    | minus hdigits => exact ⟨hdigits, rfl⟩
  · rintro ⟨hdigits, rfl⟩
    exact .minus hdigits

theorem denotes_plus_iff {text : List Char} {n : Int} :
    Denotes ('+' :: text) n ↔ AreDigits text ∧ (Nat.ofDigitChars 10 text 0 : Int) = n := by
  constructor
  · intro h
    cases h with
    | unsigned hdigits => exact absurd (hdigits.isDigit '+' (.head _)) (by decide)
    | plus hdigits => exact ⟨hdigits, rfl⟩
  · rintro ⟨hdigits, rfl⟩
    exact .plus hdigits

theorem denotes_unsigned_iff {text : List Char} {n : Int} (hminus : ∀ rest, text ≠ '-' :: rest)
    (hplus : ∀ rest, text ≠ '+' :: rest) :
    Denotes text n ↔ AreDigits text ∧ (Nat.ofDigitChars 10 text 0 : Int) = n := by
  constructor
  · intro h
    cases h with
    | unsigned hdigits => exact ⟨hdigits, rfl⟩
    | plus hdigits => exact absurd rfl (hplus _)
    | minus hdigits => exact absurd rfl (hminus _)
  · rintro ⟨hdigits, rfl⟩
    exact .unsigned hdigits

/-- A numeral denotes one integer. -/
theorem Denotes.unique {text : List Char} {m n : Int} (hm : Denotes text m) (hn : Denotes text n) :
    m = n := by
  cases hm with
  | unsigned hdigits =>
    cases hn with
    | unsigned => rfl
    | plus => exact absurd (hdigits.isDigit '+' (.head _)) (by decide)
    | minus => exact absurd (hdigits.isDigit '-' (.head _)) (by decide)
  | plus => exact (denotes_plus_iff.mp hn).2
  | minus => exact (denotes_minus_iff.mp hn).2

/-- The digits after a sign are read up to the limit that keeps the signed number in range. -/
theorem map_readNat_eq_some_iff {limit : Nat} {text : List Char} {sign : Int → Int}
    (hsign : ∀ m : Nat, m ≤ limit ↔
      Int64.minValue.toInt ≤ sign m ∧ sign m ≤ Int64.maxValue.toInt) {n : Int64} :
    ((readNat limit text).toOption.map fun m => Int64.ofInt (sign m)) = some n ↔
      AreDigits text ∧ sign (Nat.ofDigitChars 10 text 0) = n.toInt := by
  have hread : ((readNat limit text).toOption.map fun m => Int64.ofInt (sign m)) = some n ↔
      ∃ m, readNat limit text = .ok m ∧ Int64.ofInt (sign m) = n := by
    cases readNat limit text <;> simp [Except.toOption]
  simp only [hread, readNat_eq_ok_iff]
  constructor
  · rintro ⟨m, ⟨hdigits, rfl, hm⟩, rfl⟩
    obtain ⟨hmin, hmax⟩ := (hsign _).mp hm
    refine ⟨hdigits, (Int64.toInt_ofInt_of_le hmin ?_).symm⟩
    exact Int.lt_add_one_of_le hmax
  · rintro ⟨hdigits, hn⟩
    refine ⟨_, ⟨hdigits, rfl, (hsign _).mpr ?_⟩, by rw [hn, Int64.ofInt_toInt]⟩
    rw [hn]
    exact ⟨n.minValue_le_toInt, n.toInt_le⟩

/-- A text is read as a 64-bit integer exactly if it is a numeral of it. -/
theorem readInt64?_eq_some_iff {text : List Char} {n : Int64} :
    readInt64? text = some n ↔ Denotes text n.toInt := by
  have hmin : Int64.minValue.toInt = -(Nat.pow 2 63 : Nat) := by decide
  have hmax : Int64.maxValue.toInt = (Nat.pow 2 63 - 1 : Nat) := by decide
  unfold readInt64?
  split
  · rw [denotes_minus_iff]
    exact map_readNat_eq_some_iff fun m => by omega
  · rw [denotes_plus_iff]
    exact map_readNat_eq_some_iff fun m => by omega
  · rename_i hminus hplus
    rw [denotes_unsigned_iff hminus hplus]
    exact map_readNat_eq_some_iff fun m => by omega

/-- A 64-bit integer is read from its printed form. -/
theorem readInt64?_ofInt (n : Int64) : readInt64? (ofInt n.toInt).toList = some n :=
  readInt64?_eq_some_iff.mpr (denotes_ofInt n.toInt)

/-! Numbers without a minus sign, and what is wrong with the texts that are none of them. -/

/-- A numeral without a minus sign, with the number that it denotes. -/
inductive DenotesNat : List Char → Nat → Prop where
  | bare {text : List Char} : AreDigits text → DenotesNat text (Nat.ofDigitChars 10 text 0)
  | plus {text : List Char} : AreDigits text → DenotesNat ('+' :: text) (Nat.ofDigitChars 10 text 0)

/-- What stops the reading of digits onto a number: the first character that is no digit, or the
first digit that carries the number past the limit, whichever comes first. -/
inductive StopsAt (limit start : Nat) : List Char → Fault → Prop where
  | stranger {before after : List Char} {c : Char} : (∀ d ∈ before, d.isDigit) →
      Nat.ofDigitChars 10 before start ≤ limit → ¬c.isDigit →
      StopsAt limit start (before ++ c :: after) .invalidDigit
  | tooLarge {before after : List Char} {c : Char} : (∀ d ∈ before ++ [c], d.isDigit) →
      Nat.ofDigitChars 10 before start ≤ limit →
      limit < Nat.ofDigitChars 10 (before ++ [c]) start →
      StopsAt limit start (before ++ c :: after) .outOfRange

inductive Misread (limit : Nat) : List Char → Fault → Prop where
  | empty : Misread limit [] .empty
  | noDigits : Misread limit ['+'] .invalidDigit
  | bare {text : List Char} {fault : Fault} : text.head? ≠ some '+' → StopsAt limit 0 text fault →
      Misread limit text fault
  | plus {text : List Char} {fault : Fault} : StopsAt limit 0 text fault →
      Misread limit ('+' :: text) fault

theorem StopsAt.cons {limit start : Nat} {c : Char} {text : List Char} {fault : Fault}
    (hc : c.isDigit) (h : StopsAt limit (10 * start + (c.toNat - '0'.toNat)) text fault) :
    StopsAt limit start (c :: text) fault := by
  cases h with
  | @stranger before after d hbefore hvalue hstrange =>
    change StopsAt limit start ((c :: before) ++ d :: after) .invalidDigit
    exact .stranger (List.forall_mem_cons.mpr ⟨hc, hbefore⟩) hvalue hstrange
  | @tooLarge before after d hdigits hvalue hlarge =>
    change StopsAt limit start ((c :: before) ++ d :: after) .outOfRange
    exact .tooLarge (List.forall_mem_cons.mpr ⟨hc, hdigits⟩) hvalue hlarge

theorem stopsAt_of_readDigits {limit n : Nat} {text : List Char} {fault : Fault} (hn : n ≤ limit)
    (h : readDigits limit n text = .error fault) : StopsAt limit n text fault := by
  induction text generalizing n with
  | nil => simp [readDigits] at h
  | cons c rest ih =>
    cases hd : digit? c with
    | none =>
      simp only [readDigits, hd] at h
      obtain rfl := Except.error.inj h
      change StopsAt limit n ([] ++ c :: rest) .invalidDigit
      exact .stranger (by simp) hn (digit?_eq_none_iff.mp hd)
    | some d =>
      obtain ⟨hc, rfl⟩ := digit?_eq_some_iff.mp hd
      simp only [readDigits, hd] at h
      split at h
      · rename_i hlarge
        obtain rfl := Except.error.inj h
        change StopsAt limit n ([] ++ c :: rest) .outOfRange
        exact .tooLarge (by simpa using hc) hn hlarge
      · rename_i hsmall
        exact (ih (Nat.le_of_not_lt hsmall) h).cons hc

/-- Digits are read onto a number as long as they do not carry it past the limit. -/
theorem readDigits_append {limit n : Nat} {before : List Char} (hbefore : ∀ c ∈ before, c.isDigit)
    (hvalue : Nat.ofDigitChars 10 before n ≤ limit) (rest : List Char) :
    readDigits limit n (before ++ rest) =
      readDigits limit (Nat.ofDigitChars 10 before n) rest := by
  induction before generalizing n with
  | nil => rfl
  | cons c before ih =>
    obtain ⟨hc, hbefore⟩ := List.forall_mem_cons.mp hbefore
    have hd : digit? c = some (c.toNat - '0'.toNat) := digit?_eq_some_iff.mpr ⟨hc, rfl⟩
    rw [Nat.ofDigitChars_cons] at hvalue
    have hle := Nat.le_trans (le_ofDigitChars before _) hvalue
    rw [List.cons_append, readDigits, hd, Nat.ofDigitChars_cons]
    simp only
    rw [if_neg (Nat.not_lt.mpr hle), ih hbefore hvalue]

theorem readDigits_of_stopsAt {limit n : Nat} {text : List Char} {fault : Fault}
    (h : StopsAt limit n text fault) : readDigits limit n text = .error fault := by
  cases h with
  | stranger hbefore hvalue hstrange =>
    rw [readDigits_append hbefore hvalue, readDigits, digit?_eq_none_iff.mpr hstrange]
  | @tooLarge before after c hdigits hvalue hlarge =>
    obtain ⟨hbefore, hc⟩ := List.forall_mem_append.mp hdigits
    have hd : digit? c = some (c.toNat - '0'.toNat) :=
      digit?_eq_some_iff.mpr ⟨hc c (.head _), rfl⟩
    rw [Nat.ofDigitChars_append, Nat.ofDigitChars_cons, Nat.ofDigitChars_nil] at hlarge
    rw [readDigits_append hbefore hvalue, readDigits, hd]
    exact if_pos hlarge

theorem readNat_eq_error_iff {limit : Nat} {text : List Char} {fault : Fault} :
    readNat limit text = .error fault ↔
      (text = [] ∧ fault = .invalidDigit) ∨ StopsAt limit 0 text fault := by
  cases text with
  | nil =>
    rw [readNat, Except.error.injEq]
    constructor
    · exact fun h => .inl ⟨rfl, h.symm⟩
    · rintro (⟨-, rfl⟩ | h)
      · rfl
      · simpa [readDigits] using readDigits_of_stopsAt h
  | cons c rest =>
    rw [readNat]
    constructor
    · exact fun h => .inr (stopsAt_of_readDigits (Nat.zero_le limit) h)
    · rintro (⟨h, -⟩ | h)
      · simp at h
      · exact readDigits_of_stopsAt h

/-- A text is read as a number exactly if it is a numeral of it and the number is within the limit. -/
theorem readUnsigned_eq_ok_iff {limit n : Nat} {text : List Char} :
    readUnsigned limit text = .ok n ↔ DenotesNat text n ∧ n ≤ limit := by
  unfold readUnsigned
  split
  · simp only [reduceCtorEq, false_iff]
    rintro ⟨h, -⟩
    cases h with
    | bare hdigits => exact hdigits.ne_nil rfl
  · rename_i rest
    rw [readNat_eq_ok_iff]
    constructor
    · rintro ⟨hdigits, rfl, hn⟩
      exact ⟨.plus hdigits, hn⟩
    · rintro ⟨h, hn⟩
      cases h with
      | bare hdigits => exact absurd (hdigits.isDigit '+' (.head _)) (by decide)
      | plus hdigits => exact ⟨hdigits, rfl, hn⟩
  · rename_i hplus
    rw [readNat_eq_ok_iff]
    constructor
    · rintro ⟨hdigits, rfl, hn⟩
      exact ⟨.bare hdigits, hn⟩
    · rintro ⟨h, hn⟩
      cases h with
      | bare hdigits => exact ⟨hdigits, rfl, hn⟩
      | plus hdigits => exact absurd rfl (hplus _)

/-- A numeral denotes one number. -/
theorem DenotesNat.unique {text : List Char} {m n : Nat} (hm : DenotesNat text m)
    (hn : DenotesNat text n) : m = n :=
  Except.ok.inj ((readUnsigned_eq_ok_iff.mpr ⟨hm, Nat.le_max_left m n⟩).symm.trans
    (readUnsigned_eq_ok_iff.mpr ⟨hn, Nat.le_max_right m n⟩))

/-- A text that is not read has the fault that is found first. -/
theorem readUnsigned_eq_error_iff {limit : Nat} {text : List Char} {fault : Fault} :
    readUnsigned limit text = .error fault ↔ Misread limit text fault := by
  unfold readUnsigned
  split
  · rw [Except.error.injEq]
    constructor
    · rintro rfl
      exact .empty
    · intro h
      cases h with
      | empty => rfl
      | bare hhead h => simpa [readDigits] using readDigits_of_stopsAt h
  · rename_i rest
    rw [readNat_eq_error_iff]
    constructor
    · rintro (⟨rfl, rfl⟩ | h)
      · exact .noDigits
      · exact .plus h
    · intro h
      cases h with
      | noDigits => exact .inl ⟨rfl, rfl⟩
      | bare hhead _ => simp at hhead
      | plus h => exact .inr h
  · rename_i hne hplus
    rw [readNat_eq_error_iff]
    constructor
    · rintro (⟨rfl, -⟩ | h)
      · exact absurd rfl hne
      · refine .bare (fun hhead => ?_) h
        obtain ⟨rest, rfl⟩ := List.head?_eq_some_iff.mp hhead
        exact hplus rest rfl
    · intro h
      cases h with
      | empty => exact absurd rfl hne
      | noDigits => exact absurd rfl (hplus _)
      | bare _ h => exact .inr h
      | plus h => exact absurd rfl (hplus _)

/-- The number is too large before the letter is met. -/
example : Misread 255 "+256x".toList .outOfRange := readUnsigned_eq_error_iff.mp rfl

/-- A text has one fault at most. -/
theorem Misread.unique {limit : Nat} {text : List Char} {f g : Fault} (hf : Misread limit text f)
    (hg : Misread limit text g) : f = g :=
  Except.error.inj ((readUnsigned_eq_error_iff.mpr hf).symm.trans
    (readUnsigned_eq_error_iff.mpr hg))

end ColumnCipher.Decimal
