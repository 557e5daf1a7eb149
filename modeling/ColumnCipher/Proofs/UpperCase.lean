import ColumnCipher.Proofs.LowerCase
/-!
Lower case after upper case. Most characters come back when their upper-case forms are put in lower
case, but not all do: some have several characters as their upper-case form, and some share it with
another letter. A sigma comes back if it has the form that its place asks for. The texts that come
back are described exactly; casing sees no difference between them and their upper-case forms.
-/
namespace ColumnCipher.Case

/-! What the upper-case tables do to casing. -/

/-- The characters of a table of ranges as a number, whose binary digits tell them. A search ends at
the first range that lies behind the character, so the digits before a range are cleared. -/
def rangeMask : List (Nat × Nat) → Nat
  | [] => 0
  | (first, last) :: rest => (rangeMask rest >>> first ||| (1 <<< (last + 1 - first) - 1)) <<< first

theorem testBit_rangeMask (ranges : List (Nat × Nat)) (c : Nat) :
    (rangeMask ranges).testBit c = inRanges c ranges := by
  induction ranges with
  | nil => simp [rangeMask, inRanges]
  | cons range rest ih =>
    obtain ⟨first, last⟩ := range
    rw [rangeMask, inRanges, Nat.testBit_shiftLeft]
    split
    · rename_i hfirst
      rw [decide_eq_false (by omega : ¬first ≤ c), Bool.false_and]
    · rename_i hfirst
      have hrange : decide (c - first < last + 1 - first) = decide (c ≤ last) :=
        decide_eq_decide.mpr (by omega)
      rw [decide_eq_true (Nat.le_of_not_lt hfirst), Bool.true_and, Nat.testBit_or,
        Nat.testBit_shiftRight, Nat.add_sub_cancel' (Nat.le_of_not_lt hfirst), ih,
        Nat.one_shiftLeft, Nat.testBit_two_pow_sub_one, hrange, Bool.or_comm]

/-- Whether casing sees no difference between two characters, unless their lower-case forms differ
anyway. -/
def alike (c d : Nat) : Bool :=
  (rangeMask casedRanges).testBit c == (rangeMask casedRanges).testBit d &&
    (rangeMask ignorableRanges).testBit c == (rangeMask ignorableRanges).testBit d ||
  lowerChar (Char.ofNat d) != lowerChar (Char.ofNat c)

/-- The images of the upper-case table are characters, no characters but the small sigmas have the
capital sigma as their image, and casing sees no difference to an image that comes back. -/
theorem upperRuns_alike : (sends upperRuns).all (fun p =>
    (Char.ofNat p.2).toNat.beq p.2 && (!p.2.beq 0x3A3 || p.1.beq 0x3C2 || p.1.beq 0x3C3) &&
      alike p.1 p.2) = true := by
  decide +kernel

theorem image_of_sends {c d : Nat} (h : (c, d) ∈ sends upperRuns) :
    (Char.ofNat d).toNat = d ∧ (d = 0x3A3 → c = 0x3C2 ∨ c = 0x3C3) ∧ alike c d := by
  have hchecked := List.all_eq_true.mp upperRuns_alike _ h
  simp only [Bool.and_eq_true, Bool.or_eq_true, Bool.not_eq_true', Nat.beq_eq] at hchecked
  obtain ⟨⟨htoNat, hsigma⟩, halike⟩ := hchecked
  refine ⟨htoNat, ?_, halike⟩
  rintro rfl
  rcases hsigma with (hne | hc) | hc
  · exact absurd hne (by decide)
  · exact .inl hc
  · exact .inr hc

/-- The characters with several as their upper-case form are not ASCII, and none of the several is
the capital sigma. -/
theorem upperExpansions_long : upperExpansions.all (fun e =>
    (127 : Nat).blt e.1 && (1 : Nat).blt e.2.length && !(e.2.map Char.ofNat).contains 'Σ') =
      true := by
  decide +kernel

theorem upperChar_sigma {c : Char} (hc : c = 'Σ' ∨ c = 'σ' ∨ c = 'ς') : upperChar c = ['Σ'] := by
  rcases hc with rfl | rfl | rfl <;> decide

theorem isCased_sigma {c : Char} (hc : c = 'Σ' ∨ c = 'σ' ∨ c = 'ς') : isCased c = true := by
  rcases hc with rfl | rfl | rfl <;> rfl

theorem isIgnorable_sigma {c : Char} (hc : c = 'Σ' ∨ c = 'σ' ∨ c = 'ς') :
    isIgnorable c = false := by
  rcases hc with rfl | rfl | rfl <;> rfl

theorem upperChar_dotted : upperChar 'İ' = ['İ'] := by decide

/-! Characters and texts. -/

/-- The upper-case form of a character is itself, or its image in a run, or several characters. -/
theorem upperChar_cases (c : Char) :
    upperChar c = [c] ∨
    (∃ d, upperChar c = [d] ∧ (c.toNat, d.toNat) ∈ sends upperRuns) ∨
    1 < (upperChar c).length ∧ 'Σ' ∉ upperChar c := by
  unfold upperChar
  split
  · rename_i expansion hlookup
    obtain ⟨before, after, htable, -⟩ := List.lookup_eq_some_iff.mp hlookup
    have hmem : (c.toNat, expansion) ∈ upperExpansions := by simp [htable]
    have hlong := List.all_eq_true.mp upperExpansions_long _ hmem
    simp only [Bool.and_eq_true, Nat.blt_eq, Bool.not_eq_true', List.contains_eq_mem,
      decide_eq_false_iff_not] at hlong
    rw [List.length_map]
    exact .inr (.inr ⟨hlong.1.2, hlong.2⟩)
  · rcases applyRuns_eq_self_or_mem c.toNat upperRuns with hself | hsends
    · rw [hself, Char.ofNat_toNat]
      exact .inl rfl
    · refine .inr (.inl ⟨_, rfl, ?_⟩)
      rw [(image_of_sends hsends).1]
      exact hsends

/-- Only the sigmas have the capital sigma in their upper-case forms. -/
theorem sigma_of_mem_upperChar {c : Char} (h : 'Σ' ∈ upperChar c) : c = 'Σ' ∨ c = 'σ' ∨ c = 'ς' := by
  rcases upperChar_cases c with hc | ⟨d, hc, hsends⟩ | ⟨-, hc⟩
  · rw [hc, List.mem_singleton] at h
    exact .inl h.symm
  · rw [hc, List.mem_singleton] at h
    subst h
    rcases (image_of_sends hsends).2.1 rfl with hc | hc
    · exact .inr (.inr (Char.toNat_inj.mp hc))
    · exact .inr (.inl (Char.toNat_inj.mp hc))
  · exact absurd h hc

theorem length_lowerChar {c : Char} (h : c ≠ 'İ') : (lowerChar c).length = 1 := by
  rw [lowerChar, if_neg h]
  rfl

theorem lowerChar_ne_nil (c : Char) : lowerChar c ≠ [] := by
  unfold lowerChar
  split <;> simp

/-- A text does not get shorter when it is put in lower case. -/
theorem length_le_length_flatMap_lowerChar (s : List Char) :
    s.length ≤ (s.flatMap lowerChar).length := by
  induction s with
  | nil => simp
  | cons c rest ih =>
    have hc : 0 < (lowerChar c).length := List.length_pos_iff.mpr (lowerChar_ne_nil c)
    rw [List.flatMap_cons, List.length_append, List.length_cons]
    omega

/-- A character whose lower-case form comes back has one upper-case form, and casing sees no
difference between the two. -/
theorem exists_upperChar_of_comesBack {c : Char}
    (h : (upperChar c).flatMap lowerChar = lowerChar c) :
    ∃ d, upperChar c = [d] ∧ isCased d = isCased c ∧ isIgnorable d = isIgnorable c := by
  rcases upperChar_cases c with hc | ⟨d, hc, hsends⟩ | ⟨hc, -⟩
  · exact ⟨c, hc, rfl, rfl⟩
  · have hlower : lowerChar d = lowerChar c := by simpa [hc] using h
    have hd := (image_of_sends hsends).2.2
    simp only [alike, testBit_rangeMask, Char.ofNat_toNat, hlower, bne_self_eq_false,
      Bool.or_false, Bool.and_eq_true, beq_iff_eq] at hd
    exact ⟨d, hc, hd.1.symm, hd.2.symm⟩
  · have hdotted : c ≠ 'İ' := by
      rintro rfl
      simp [upperChar_dotted] at hc
    have hlength := congrArg List.length h
    have hlonger := length_le_length_flatMap_lowerChar (upperChar c)
    rw [length_lowerChar hdotted] at hlength
    omega

/-- The small sigma that lower-casing puts for a capital one before the given characters. -/
def smallSigma (inWord : Bool) (rest : List Char) : Char :=
  if inWord && !casedNext rest then 'ς' else 'σ'

/-- Whether a cased character stands before what follows a character. -/
def inWordAfter (inWord : Bool) (c : Char) : Bool := if isIgnorable c then inWord else isCased c

theorem inWordAfter_sigma {c : Char} (hc : c = 'Σ' ∨ c = 'σ' ∨ c = 'ς') {inWord : Bool} :
    inWordAfter inWord c = true := by
  rw [inWordAfter, isIgnorable_sigma hc, isCased_sigma hc]
  rfl

/-- The texts whose lower-case form comes back from their upper-case form: the upper-case form of
each character has the lower-case form of the character, and every small sigma is the one that
lower-casing puts where it stands. -/
def ComesBack (inWord : Bool) : List Char → Prop
  | [] => True
  | c :: rest =>
    (if c = 'σ' ∨ c = 'ς' then c = smallSigma inWord rest
      else (upperChar c).flatMap lowerChar = lowerChar c) ∧
    ComesBack (inWordAfter inWord c) rest

theorem lowerFrom_sigma (inWord : Bool) (rest : List Char) :
    lowerFrom inWord ('Σ' :: rest) = smallSigma inWord rest :: lowerFrom true rest := by
  rw [lowerFrom, if_pos rfl, isIgnorable_sigma (.inl rfl), isCased_sigma (.inl rfl), smallSigma]
  split <;> rfl

/-- Where there is no capital sigma the characters are put in lower case one by one. -/
theorem lowerFrom_append {x : List Char} (hx : 'Σ' ∉ x) (inWord : Bool) (y : List Char) :
    lowerFrom inWord (x ++ y) =
      x.flatMap lowerChar ++ lowerFrom (x.foldl inWordAfter inWord) y := by
  induction x generalizing inWord with
  | nil => rfl
  | cons c rest ih =>
    rw [List.mem_cons, not_or] at hx
    rw [List.cons_append, lowerFrom, if_neg (Ne.symm hx.1), List.flatMap_cons, List.append_assoc]
    exact congrArg (lowerChar c ++ ·) (ih hx.2 _)

theorem length_lowerFrom (inWord : Bool) (s : List Char) :
    (lowerFrom inWord s).length = (s.flatMap lowerChar).length := by
  induction s generalizing inWord with
  | nil => rfl
  | cons c rest ih =>
    have hsigma : (lowerChar 'Σ').length = 1 := length_lowerChar (by decide)
    rw [lowerFrom, List.length_append, ih, List.flatMap_cons, List.length_append]
    split
    · rename_i hc
      rw [hc, hsigma]
      split <;> rfl
    · rfl

theorem length_lowerChar_le (c : Char) :
    (lowerChar c).length ≤ ((upperChar c).flatMap lowerChar).length := by
  by_cases hc : c = 'İ'
  · subst hc
    exact Nat.le_of_eq (by rw [upperChar_dotted, List.flatMap_singleton])
  · have hpos : 0 < (upperChar c).length := by
      rcases upperChar_cases c with hc | ⟨d, hc, -⟩ | ⟨hc, -⟩
      · simp [hc]
      · simp [hc]
      · exact Nat.lt_trans Nat.zero_lt_one hc
    rw [length_lowerChar hc]
    exact Nat.le_trans hpos (length_le_length_flatMap_lowerChar _)

/-- Upper-casing first makes the lower-case form no shorter. -/
theorem length_lowerFrom_le (inWord inWord' : Bool) (s : List Char) :
    (lowerFrom inWord s).length ≤ (lowerFrom inWord' (s.flatMap upperChar)).length := by
  rw [length_lowerFrom, length_lowerFrom]
  induction s with
  | nil => exact Nat.le_refl _
  | cons c rest ih =>
    have hc := length_lowerChar_le c
    simp only [List.flatMap_cons, List.flatMap_append, List.length_append]
    omega

/-- Casing sees no difference between a text that comes back and its upper-case form. -/
theorem ComesBack.exists_upperChar {inWord : Bool} {c : Char} {rest : List Char}
    (h : ComesBack inWord (c :: rest)) :
    ∃ d, upperChar c = [d] ∧ isCased d = isCased c ∧ isIgnorable d = isIgnorable c := by
  have hc := h.1
  split at hc
  · rename_i hsmall
    have hsigma : c = 'Σ' ∨ c = 'σ' ∨ c = 'ς' := .inr hsmall
    refine ⟨'Σ', upperChar_sigma hsigma, ?_, ?_⟩
    · rw [isCased_sigma hsigma, isCased_sigma (.inl rfl)]
    · rw [isIgnorable_sigma hsigma, isIgnorable_sigma (.inl rfl)]
  · exact exists_upperChar_of_comesBack hc

theorem ComesBack.casedNext {inWord : Bool} {s : List Char} (h : ComesBack inWord s) :
    Case.casedNext (s.flatMap upperChar) = Case.casedNext s := by
  induction s generalizing inWord with
  | nil => rfl
  | cons c rest ih =>
    obtain ⟨d, hd, hcased, hignorable⟩ := h.exists_upperChar
    rw [List.flatMap_cons, hd, List.singleton_append, Case.casedNext, Case.casedNext, hcased,
      hignorable, ih h.2]

theorem ComesBack.smallSigma {inWord : Bool} {s : List Char} (h : ComesBack inWord s) (b : Bool) :
    Case.smallSigma b (s.flatMap upperChar) = Case.smallSigma b s := by
  rw [Case.smallSigma, h.casedNext, Case.smallSigma]

/-- A small sigma comes back if it is the one that its place asks for. -/
theorem lowerFrom_upper_smallSigma_iff {c : Char} (hc : c = 'σ' ∨ c = 'ς') {inWord : Bool}
    {s : List Char} (ih : lowerFrom true (s.flatMap upperChar) = lowerFrom true s ↔
      ComesBack true s) :
    lowerFrom inWord ((c :: s).flatMap upperChar) = lowerFrom inWord (c :: s) ↔
      ComesBack inWord (c :: s) := by
  have hupper : upperChar c = ['Σ'] := upperChar_sigma (.inr hc)
  have hlower : IsLower c := isLower_smallSigma hc
  have hafter : inWordAfter inWord c = true := inWordAfter_sigma (.inr hc)
  have hkept : lowerFrom inWord (c :: s) = c :: lowerFrom true s := by
    rw [lowerFrom, if_neg hlower.ne_sigma, hlower.lowerChar]
    exact congrArg (fun b => c :: lowerFrom b s) hafter
  rw [List.flatMap_cons, hupper, List.singleton_append, lowerFrom_sigma, hkept, List.cons.injEq, ih,
    ComesBack, if_pos hc, hafter]
  refine and_congr_left fun hs => ?_
  rw [hs.smallSigma, eq_comm]

/-- A capital sigma comes back. -/
theorem lowerFrom_upper_sigma_iff {inWord : Bool} {s : List Char}
    (ih : lowerFrom true (s.flatMap upperChar) = lowerFrom true s ↔ ComesBack true s) :
    lowerFrom inWord (('Σ' :: s).flatMap upperChar) = lowerFrom inWord ('Σ' :: s) ↔
      ComesBack inWord ('Σ' :: s) := by
  have hupper : upperChar 'Σ' = ['Σ'] := upperChar_sigma (.inl rfl)
  have hafter : inWordAfter inWord 'Σ' = true := inWordAfter_sigma (.inl rfl)
  have hback : ['Σ'].flatMap lowerChar = lowerChar 'Σ' := List.append_nil _
  rw [List.flatMap_cons, hupper, List.singleton_append, lowerFrom_sigma, lowerFrom_sigma,
    List.cons.injEq, ih, ComesBack, if_neg (by decide), hupper, hafter]
  exact and_congr_left fun hs => ⟨fun _ => hback, fun _ => hs.smallSigma _⟩

/-- Any other character comes back if its own lower-case form does. The forms can be compared one
character at a time because upper-casing makes none of them shorter. -/
theorem lowerFrom_upper_cons_iff {c : Char} (hc : 'Σ' ∉ upperChar c) {inWord : Bool} {s : List Char}
    (ih : ∀ b, lowerFrom b (s.flatMap upperChar) = lowerFrom b s ↔ ComesBack b s) :
    lowerFrom inWord ((c :: s).flatMap upperChar) = lowerFrom inWord (c :: s) ↔
      ComesBack inWord (c :: s) := by
  have hother : ¬(c = 'Σ' ∨ c = 'σ' ∨ c = 'ς') := fun hsigma =>
    hc (upperChar_sigma hsigma ▸ List.mem_singleton_self _)
  obtain ⟨hsigma, hsmall⟩ := not_or.mp hother
  have hlower : lowerFrom inWord (c :: s) = lowerChar c ++ lowerFrom (inWordAfter inWord c) s := by
    rw [lowerFrom, if_neg hsigma]
    rfl
  rw [List.flatMap_cons, lowerFrom_append hc, hlower, ComesBack, if_neg hsmall]
  have hafter (h : (upperChar c).flatMap lowerChar = lowerChar c) :
      (upperChar c).foldl inWordAfter inWord = inWordAfter inWord c := by
    obtain ⟨d, hd, hcased, hignorable⟩ := exists_upperChar_of_comesBack h
    rw [hd, List.foldl_cons, List.foldl_nil, inWordAfter, inWordAfter, hcased, hignorable]
  constructor
  · intro h
    have hfirst := length_lowerChar_le c
    have hrest := length_lowerFrom_le (inWordAfter inWord c)
      ((upperChar c).foldl inWordAfter inWord) s
    have hlength := congrArg List.length h
    rw [List.length_append, List.length_append] at hlength
    obtain ⟨hchar, htail⟩ := List.append_inj h (by omega)
    rw [hafter hchar] at htail
    exact ⟨hchar, (ih _).mp htail⟩
  · rintro ⟨hchar, hs⟩
    rw [hchar, hafter hchar, (ih _).mpr hs]

/-- The lower-case form of a text is that of its upper-case form exactly if the text comes back. -/
theorem lowerFrom_upper_eq_iff (inWord : Bool) (s : List Char) :
    lowerFrom inWord (s.flatMap upperChar) = lowerFrom inWord s ↔ ComesBack inWord s := by
  induction s generalizing inWord with
  | nil => simp [ComesBack]
  | cons c rest ih =>
    by_cases hc : 'Σ' ∈ upperChar c
    · rcases sigma_of_mem_upperChar hc with rfl | hsmall
      · exact lowerFrom_upper_sigma_iff (ih true)
      · exact lowerFrom_upper_smallSigma_iff hsmall (ih true)
    · exact lowerFrom_upper_cons_iff hc ih

theorem lower_upper_eq_iff (s : String) : lower (upper s) = lower s ↔ ComesBack false s.toList := by
  rw [lower, lower, upper, String.toList_ofList, String.ofList_inj]
  exact lowerFrom_upper_eq_iff false s.toList

/-- ASCII texts come back. -/
theorem comesBack_of_ascii (inWord : Bool) {s : List Char} (h : ∀ c ∈ s, c.toNat < 128) :
    ComesBack inWord s := by
  have hascii : ∀ n : Fin 128, lowerChar (Char.ofNat (applyRuns n upperRuns)) =
      lowerChar (Char.ofNat n) := by
    decide +kernel
  induction s generalizing inWord with
  | nil => trivial
  | cons c rest ih =>
    obtain ⟨hc, hrest⟩ := List.forall_mem_cons.mp h
    have hsmall : ¬(c = 'σ' ∨ c = 'ς') := by
      rintro (rfl | rfl)
      · exact absurd hc (by decide)
      · exact absurd hc (by decide)
    have hlookup : upperExpansions.lookup c.toNat = none := by
      refine List.lookup_eq_none_iff.mpr fun e he => bne_iff_ne.mpr ?_
      have hlong := List.all_eq_true.mp upperExpansions_long e he
      simp only [Bool.and_eq_true, Nat.blt_eq] at hlong
      omega
    have hback := hascii ⟨c.toNat, hc⟩
    rw [Char.ofNat_toNat] at hback
    refine ⟨?_, ih _ hrest⟩
    rw [if_neg hsmall, upperChar, hlookup, List.flatMap_singleton, hback]

instance decidableComesBack (inWord : Bool) : (s : List Char) → Decidable (ComesBack inWord s)
  | [] => inferInstanceAs (Decidable True)
  | c :: rest =>
    have := decidableComesBack (inWordAfter inWord c) rest
    inferInstanceAs (Decidable (_ ∧ _))

example : ComesBack false ['Ο', 'δ', 'ό', 'ς'] ∧ ¬ComesBack false ['ß'] := by decide

end ColumnCipher.Case
