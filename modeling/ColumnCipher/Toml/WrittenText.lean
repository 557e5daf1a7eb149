import ColumnCipher.Toml.Text
/-!
A written text is read back, whatever characters it has and whichever quotation was chosen for it.
What follows it has to begin with no quote, which could be taken for a part of the closing quotes.
-/
namespace ColumnCipher.Toml

theorem numbered?_hexDigit (n : Nat) (h : n < 256) :
    numbered? ['0', '0', hexDigit (n / 16), hexDigit (n % 16)] = some (Char.ofNat n) := by
  have all : ∀ n < 256,
      numbered? ['0', '0', hexDigit (n / 16), hexDigit (n % 16)] = some (Char.ofNat n) := by
    decide +kernel
  exact all n h

theorem toNat_lt_of_isControl {c : Char} (h : isControl c) : c.toNat < 256 := by
  simp [isControl] at h
  omega

theorem not_isPlain_newline : ¬ isPlain '\n' := by decide

theorem not_isPlain_return : ¬ isPlain '\r' := by decide

/-! Between double quotes on one line. -/

theorem readBasic_plain (before rest : List Char) {c : Char} (h : isPlain c) (hq : c ≠ '"')
    (hb : c ≠ '\\') : readBasic before (c :: rest) = readBasic (c :: before) rest := by
  rw [readBasic] <;> simp_all

theorem readBasic_escape (before rest : List Char) (c : Char) :
    readBasic before (escape c ++ rest) = readBasic (c :: before) rest := by
  unfold escape
  split
  all_goals try simp [readBasic, escaped?]
  next hq hb =>
    split
    · next h => simp [readBasic, numbered?_hexDigit, toNat_lt_of_isControl h]
    · next h => exact readBasic_plain _ _ (by simp [isPlain, h]) hq hb

theorem readBasic_flatMap_escape (s before rest : List Char) :
    readBasic before (s.flatMap escape ++ '"' :: rest) = some (before.reverse ++ s, rest) := by
  induction s generalizing before with
  | nil => simp [readBasic]
  | cons c s ih => simp [readBasic_escape, ih]

theorem readQuoted_basic (s rest : List Char) :
    readQuoted (quoteAs s .basic ++ rest) = some (s, rest) := by
  simp [quoteAs, readQuoted, readBasic_flatMap_escape]

/-! Between single quotes on one line. -/

theorem readLiteral_append (s before rest : List Char) (h : ∀ c ∈ s, isPlain c ∧ c ≠ '\'') :
    readLiteral before (s ++ '\'' :: rest) = some (before.reverse ++ s, rest) := by
  induction s generalizing before with
  | nil => simp [readLiteral]
  | cons c s ih =>
    obtain ⟨hc, hs⟩ := List.forall_mem_cons.1 h
    simp [readLiteral, hc, ih _ hs]

theorem readQuoted_literal (s rest : List Char) (h : ∀ c ∈ s, isPlain c ∧ c ≠ '\'') :
    readQuoted (quoteAs s .literal ++ rest) = some (s, rest) := by
  simp [quoteAs, readQuoted, readLiteral_append _ _ _ h]

/-! Between double quotes on several lines. -/

theorem closeLines_add (quote : Char) (before rest : List Char) {run : Nat} (hr : run ≤ 2) :
    closeLines quote before (run + 3) rest =
      some (before.reverse ++ List.replicate run quote, rest) := by
  rw [closeLines, if_pos (by omega), Nat.add_sub_cancel]

theorem readBasicLines_plain (before rest : List Char) {run : Nat} (hr : run ≤ 2) {c : Char}
    (h : isPlain c) (hq : c ≠ '"') (hb : c ≠ '\\') :
    readBasicLines before run .text (c :: rest) =
      readBasicLines (c :: (List.replicate run '"' ++ before)) 0 .text rest := by
  have hr : ¬ 3 ≤ run := by omega
  have hn : c ≠ '\n' := fun e => not_isPlain_newline (e ▸ h)
  have hc : c ≠ '\r' := fun e => not_isPlain_return (e ▸ h)
  rw [readBasicLines]
  · simp only [hq, hr, if_false, reduceCtorEq, false_and]
    split <;> simp_all
  · simp

theorem readBasicLines_escape (before rest : List Char) {run : Nat} (hr : run ≤ 2) {c : Char}
    (hc : c ≠ '\n') :
    readBasicLines before run .text (escape c ++ rest) =
      readBasicLines (c :: (List.replicate run '"' ++ before)) 0 .text rest := by
  have hr' : ¬ 3 ≤ run := by omega
  unfold escape
  split
  all_goals try simp [readBasicLines, escaped?, hr', isSpace] at hc ⊢
  next hq hb =>
    split
    · next h =>
      simp [readBasicLines, numbered?_hexDigit, toNat_lt_of_isControl h, hr']
    · next h => exact readBasicLines_plain _ _ hr (by simp [isPlain, h]) hq hb

/-- Up to two quotes before the closing ones belong to the text. -/
theorem readBasicLines_close (before rest : List Char) {run : Nat} (hr : run ≤ 2)
    (h : rest.head? ≠ some '"') :
    readBasicLines before run .text ('"' :: '"' :: '"' :: rest) =
      some (before.reverse ++ List.replicate run '"', rest) := by
  cases rest with
  | nil => simp [readBasicLines, closeLines_add _ _ _ hr]
  | cons c rest =>
    have hc : c ≠ '"' := by simpa using h
    simp [readBasicLines, hc, closeLines_add _ _ _ hr]

theorem escapeLines_cons (run : Nat) (s : List Char) {c : Char} (hn : c ≠ '\n') (hq : c ≠ '"') :
    escapeLines run (c :: s) = escape c ++ escapeLines 0 s := by
  rw [escapeLines] <;> simp_all

theorem readBasicLines_escapeLines (s before rest : List Char) {run : Nat} (hr : run ≤ 2)
    (h : rest.head? ≠ some '"') :
    readBasicLines before run .text (escapeLines run s ++ '"' :: '"' :: '"' :: rest) =
      some (before.reverse ++ (List.replicate run '"' ++ s), rest) := by
  induction s generalizing before run with
  | nil => simp [escapeLines, readBasicLines_close before rest hr h]
  | cons c s ih =>
    have hr' : ¬ 3 ≤ run := by omega
    by_cases hn : c = '\n'
    · subst hn
      simp [escapeLines, readBasicLines, ih, hr', isSpace]
    by_cases hq : c = '"'
    · subst hq
      by_cases h2 : run = 2
      · subst h2
        simp [escapeLines, readBasicLines, escaped?, isSpace, ih]
      · have hr : run + 1 ≤ 2 := by omega
        simp [escapeLines, h2, readBasicLines, ih _ hr, List.replicate_succ']
    · rw [escapeLines_cons run s hn hq, List.append_assoc, readBasicLines_escape _ _ hr hn,
        ih _ (Nat.zero_le 2)]
      simp

/-! Between single quotes on several lines. -/

theorem le_longestRun (quote : Char) (run : Nat) (s : List Char) :
    run ≤ longestRun quote run s := by
  induction s generalizing run with
  | nil => simp [longestRun]
  | cons c s ih =>
    have := ih (run + 1)
    simp only [longestRun]
    split <;> omega

theorem not_mem_of_longestRun {quote : Char} {s : List Char} (h : longestRun quote 0 s = 0) :
    quote ∉ s := by
  induction s with
  | nil => simp
  | cons c s ih =>
    have := le_longestRun quote (0 + 1) s
    simp only [longestRun] at h
    split at h
    · omega
    · next hc => simp [Ne.symm hc, ih (by omega)]

theorem readLiteralLines_close (before rest : List Char) {run : Nat} (hr : run ≤ 2)
    (h : rest.head? ≠ some '\'') :
    readLiteralLines before run ('\'' :: '\'' :: '\'' :: rest) =
      some (before.reverse ++ List.replicate run '\'', rest) := by
  cases rest with
  | nil => simp [readLiteralLines, closeLines_add _ _ _ hr]
  | cons c rest =>
    have hc : c ≠ '\'' := by simpa using h
    simp [readLiteralLines, hc, closeLines_add _ _ _ hr]

theorem readLiteralLines_append (s before rest : List Char) {run : Nat}
    (hs : longestRun '\'' run s ≤ 2) (hp : ∀ c ∈ s, isPlain c ∨ c = '\n')
    (h : rest.head? ≠ some '\'') :
    readLiteralLines before run (s ++ '\'' :: '\'' :: '\'' :: rest) =
      some (before.reverse ++ (List.replicate run '\'' ++ s), rest) := by
  induction s generalizing before run with
  | nil => simpa [longestRun] using readLiteralLines_close before rest hs h
  | cons c s ih =>
    obtain ⟨hc, hp'⟩ := List.forall_mem_cons.1 hp
    have hr : ¬ 3 ≤ run := by have := le_longestRun '\'' run (c :: s); omega
    by_cases hq : c = '\''
    · subst hq
      simp only [longestRun, if_true] at hs
      simp [readLiteralLines, ih _ hs hp', List.replicate_succ']
    · simp only [longestRun, hq, if_false] at hs
      have ih := fun before => @ih before 0 (by omega) hp'
      rcases hc with hc | rfl
      · have hn : c ≠ '\n' := fun e => not_isPlain_newline (e ▸ hc)
        have hr' : c ≠ '\r' := fun e => not_isPlain_return (e ▸ hc)
        simp only [List.cons_append, readLiteralLines, hq, hr, if_false]
        split <;> simp_all
      · simp [readLiteralLines, hr, ih]

/-! The opening quotes. -/

/-- Two quotes that no third follows do not open a text on several lines. -/
theorem readText_of_head? (c d : Char) (rest : List Char) (h : rest.head? ≠ some d) :
    readText (c :: d :: rest) = readQuoted (c :: d :: rest) := by
  rw [readText] <;> grind

theorem head?_escape_append (c : Char) (rest : List Char) :
    (escape c ++ rest).head? ≠ some '"' := by
  unfold escape
  split <;> (try split) <;> simp_all

theorem readText_basic (s rest : List Char) (h : rest.head? ≠ some '"') :
    readText (quoteAs s .basic ++ rest) = some (s, rest) := by
  rw [← readQuoted_basic s rest]
  cases s with
  | nil => exact readText_of_head? _ _ _ h
  | cons c s =>
    have := head?_escape_append c (s.flatMap escape ++ '"' :: rest)
    simp only [quoteAs, List.flatMap_cons, List.cons_append, List.append_assoc, List.nil_append]
    rw [readText] <;> grind

theorem readText_literal (s rest : List Char) (hs : ∀ c ∈ s, isPlain c ∧ c ≠ '\'')
    (h : rest.head? ≠ some '\'') : readText (quoteAs s .literal ++ rest) = some (s, rest) := by
  rw [← readQuoted_literal s rest hs]
  cases s with
  | nil => exact readText_of_head? _ _ _ h
  | cons c s =>
    have := hs c List.mem_cons_self
    simp only [quoteAs, List.cons_append]
    rw [readText] <;> grind

/-- The newline before a text that has lines is the one that the reader drops. -/
theorem skipNewline_firstLine (s t : List Char)
    (h : ¬ s.contains '\n' → t.head? ≠ some '\n' ∧ t.head? ≠ some '\r') :
    skipNewline (firstLine s ++ t) = t := by
  unfold firstLine
  split
  · simp [skipNewline]
  · next hn =>
    have := h hn
    rw [List.nil_append, skipNewline] <;> grind

theorem exists_escapeLines_cons (run : Nat) (c : Char) (s : List Char) :
    ∃ d t, escapeLines run (c :: s) = d :: t ∧ d ≠ '\r' ∧ (d = '\n' → c = '\n') := by
  by_cases hn : c = '\n'
  · subst hn
    simp [escapeLines]
  by_cases hq : c = '"'
  · subst hq
    by_cases h2 : run = 2 <;> simp [escapeLines, h2]
  · rw [escapeLines_cons run s hn hq]
    unfold escape
    split <;> (try split) <;> simp_all

theorem readText_basicLines (s rest : List Char) (h : rest.head? ≠ some '"') :
    readText (quoteAs s .basicLines ++ rest) = some (s, rest) := by
  have key := readBasicLines_escapeLines s [] rest (Nat.zero_le 2) h
  simp only [quoteAs, List.cons_append, List.nil_append, List.append_assoc, readText]
  rw [skipNewline_firstLine]
  · simpa using key
  · intro hn
    cases s with
    | nil => simp [escapeLines]
    | cons c s =>
      obtain ⟨d, t, e, hr, hd⟩ := exists_escapeLines_cons 0 c s
      simp only [e, List.cons_append, List.head?_cons, ne_eq, Option.some.injEq]
      grind

theorem readText_literalLines (s rest : List Char) (hs : longestRun '\'' 0 s ≤ 2)
    (hp : ∀ c ∈ s, isPlain c ∨ c = '\n') (h : rest.head? ≠ some '\'') :
    readText (quoteAs s .literalLines ++ rest) = some (s, rest) := by
  have key := readLiteralLines_append s [] rest hs hp h
  simp only [quoteAs, List.cons_append, List.nil_append, List.append_assoc, readText]
  rw [skipNewline_firstLine]
  · simpa using key
  · intro hn
    cases s with
    | nil => simp
    | cons c s =>
      have hc := hp c List.mem_cons_self
      have hr := not_isPlain_return
      simp only [List.cons_append, List.head?_cons, ne_eq, Option.some.injEq]
      grind

/-! The chosen quotation. -/

/-- A text is read back from the quotation that is chosen for it. -/
theorem readText_quote (s rest : List Char) (h : rest.head? ≠ some '"')
    (h' : rest.head? ≠ some '\'') : readText (quote s ++ rest) = some (s, rest) := by
  have plain (hc : (s.any fun c => isControl c && c != '\n') = false) :
      ∀ c ∈ s, isPlain c ∨ c = '\n' := by
    grind [isPlain]
  unfold quote quotation
  simp only []
  split
  · exact readText_basic s rest h
  split
  · next hl =>
    simp only [Bool.and_eq_true, Bool.not_eq_true', beq_iff_eq] at hl
    have hq := not_mem_of_longestRun hl.2
    have hp := plain hl.1.1
    exact readText_literal s rest (by grind) h'
  split
  · exact readText_basicLines s rest h
  split
  · next hl =>
    simp only [Bool.and_eq_true, Bool.not_eq_true', decide_eq_true_eq] at hl
    exact readText_literalLines s rest hl.2 (plain hl.1) h'
  split
  · exact readText_basicLines s rest h
  · exact readText_basic s rest h

theorem readQuoted_keyQuotation (s rest : List Char) :
    readQuoted (quoteAs s (keyQuotation s) ++ rest) = some (s, rest) := by
  unfold keyQuotation
  simp only []
  split
  · exact readQuoted_basic s rest
  split
  · next hl =>
    simp only [Bool.and_eq_true, Bool.not_eq_true', List.contains_eq_mem, List.any_eq_false,
      decide_eq_false_iff_not] at hl
    exact readQuoted_literal s rest (by grind [isPlain])
  · exact readQuoted_basic s rest

theorem takeWhile_isBare_keyQuotation (s rest : List Char) :
    (quoteAs s (keyQuotation s) ++ rest).takeWhile isBare = [] := by
  unfold keyQuotation
  simp only []
  split <;> (try split) <;> simp [quoteAs, isBare]

/-- A key is read back if what follows could not belong to a bare key. -/
theorem readKey_quoteKey (s rest : List Char) (h : ∀ c, rest.head? = some c → ¬ isBare c) :
    readKey (quoteKey s ++ rest) = some (s, rest) := by
  unfold quoteKey
  split
  · next hb =>
    simp only [Bool.and_eq_true, Bool.not_eq_true', List.isEmpty_eq_false_iff] at hb
    have hs := List.all_eq_true.1 hb.2
    have ht : rest.takeWhile isBare = [] := by cases rest <;> simp_all
    have hd : rest.dropWhile isBare = rest := by cases rest <;> simp_all
    simp only [readKey, List.takeWhile_append_of_pos hs, List.dropWhile_append_of_pos hs, ht, hd,
      List.append_nil]
    split
    · simp_all
    · rfl
  · rw [readKey, takeWhile_isBare_keyQuotation]
    exact readQuoted_keyQuotation s rest

end ColumnCipher.Toml
