import ColumnCipher.Toml.Line
import ColumnCipher.Toml.WrittenText
/-!
Written lines are read as the statements that they are. A key, a path and a value are each read back
in front of what follows them on the line, and a whole text line by line.
-/
namespace ColumnCipher.Toml

def isKeyStart (c : Char) : Bool := isBare c || c == '"' || c == '\''

def isLineStart (c : Char) : Bool := isKeyStart c || c == '['

theorem exists_quoteKey_cons (s : List Char) : ∃ c t, quoteKey s = c :: t ∧ isKeyStart c := by
  unfold quoteKey
  split
  · rename_i hbare
    cases s with
    | nil => simp at hbare
    | cons c t =>
      have hc : isBare c := by simp_all
      exact ⟨c, t, rfl, by simp [isKeyStart, hc]⟩
  · unfold keyQuotation
    dsimp only
    split
    · exact ⟨_, _, rfl, rfl⟩
    split
    · exact ⟨_, _, rfl, rfl⟩
    · exact ⟨_, _, rfl, rfl⟩

theorem exists_quote_cons (s : List Char) :
    ∃ c t, quote s = c :: t ∧ (c = '"' ∨ c = '\'') := by
  unfold quote
  cases quotation s with
  | basic => exact ⟨_, _, rfl, .inl rfl⟩
  | literal => exact ⟨_, _, rfl, .inr rfl⟩
  | basicLines => exact ⟨_, _, rfl, .inl rfl⟩
  | literalLines => exact ⟨_, _, rfl, .inr rfl⟩

theorem skipSpaces_cons {c : Char} (h : isSpace c = false) (rest : List Char) :
    skipSpaces (c :: rest) = c :: rest := by
  simp [skipSpaces, h]

theorem skipSpaces_space (rest : List Char) : skipSpaces (' ' :: rest) = skipSpaces rest := by
  simp [skipSpaces, isSpace]

/-- A character of a class is none that is outside. -/
theorem ne_of_class {p : Char → Bool} {c d : Char} (h : p c) (hd : p d = false) : c ≠ d := by
  rintro rfl
  rw [hd] at h
  exact Bool.false_ne_true h

theorem isLineStart_of_isKeyStart {c : Char} (h : isKeyStart c) : isLineStart c := by
  simp [isLineStart, h]

theorem isSpace_of_isLineStart {c : Char} (h : isLineStart c) : isSpace c = false := by
  have hspace : c ≠ ' ' := ne_of_class h (by decide)
  have htab : c ≠ '\t' := ne_of_class h (by decide)
  simp [isSpace, hspace, htab]

theorem skipSpaces_quoteKey (s rest : List Char) :
    skipSpaces (quoteKey s ++ rest) = quoteKey s ++ rest := by
  obtain ⟨c, t, hs, hc⟩ := exists_quoteKey_cons s
  rw [hs]
  exact skipSpaces_cons (isSpace_of_isLineStart (isLineStart_of_isKeyStart hc)) _

/-! Keys with dots. -/

/-- The last part of a key is followed by spaces and then by no dot. -/
theorem readKeyParts_quoteKey (fuel : Nat) (s rest : List Char)
    (hbare : ∀ c, rest.head? = some c → ¬isBare c) (hdot : (skipSpaces rest).head? ≠ some '.') :
    readKeyParts (fuel + 1) (quoteKey s ++ rest) = some ([String.ofList s], skipSpaces rest) := by
  rw [readKeyParts, skipSpaces_quoteKey, readKey_quoteKey s rest hbare]
  dsimp only
  split
  · rename_i h
    simp [h] at hdot
  · rfl

theorem readKeyParts_dot (fuel : Nat) (s rest : List Char) :
    readKeyParts (fuel + 1) (quoteKey s ++ '.' :: rest) =
      (readKeyParts fuel rest).map fun (parts, rest) => (String.ofList s :: parts, rest) := by
  rw [readKeyParts, skipSpaces_quoteKey, readKey_quoteKey s _ (by simp [isBare])]
  rfl

/-- A written path is read if it has not too many parts. -/
theorem readKeyParts_renderPath {fuel : Nat} {path : List String} (hfuel : path.length < fuel)
    (key : String) (rest : List Char) (hbare : ∀ c, rest.head? = some c → ¬isBare c)
    (hdot : (skipSpaces rest).head? ≠ some '.') :
    readKeyParts fuel (renderPath path key ++ rest) = some (path ++ [key], skipSpaces rest) := by
  induction path generalizing fuel with
  | nil =>
    obtain ⟨fuel, rfl⟩ := Nat.exists_eq_succ_of_ne_zero (Nat.ne_of_gt hfuel)
    have h := readKeyParts_quoteKey fuel key.toList rest hbare hdot
    rwa [String.ofList_toList] at h
  | cons part path ih =>
    obtain ⟨fuel, rfl⟩ := Nat.exists_eq_succ_of_ne_zero (Nat.ne_of_gt (Nat.zero_lt_of_lt hfuel))
    have h := ih (Nat.lt_of_succ_lt_succ hfuel)
    have hsplit : renderPath (part :: path) key ++ rest =
        quoteKey part.toList ++ '.' :: (renderPath path key ++ rest) := by
      simp [renderPath]
    rw [hsplit, readKeyParts_dot, h, String.ofList_toList]
    rfl

theorem readPath_renderPath {path : List String} (hpath : path.length < depthLimit - 1)
    (key : String) (rest : List Char) (hbare : ∀ c, rest.head? = some c → ¬isBare c)
    (hdot : (skipSpaces rest).head? ≠ some '.') :
    readPath (renderPath path key ++ rest) = some ((path, key), skipSpaces rest) := by
  rw [readPath, readKeyParts_renderPath hpath key rest hbare hdot]
  simp

theorem exists_renderPath_cons (path : List String) (key : String) :
    ∃ c t, renderPath path key = c :: t ∧ isKeyStart c := by
  cases path with
  | nil => exact exists_quoteKey_cons key.toList
  | cons part path =>
    obtain ⟨c, t, hs, hc⟩ := exists_quoteKey_cons part.toList
    exact ⟨c, _, by rw [renderPath, List.flatMap_cons, hs]; rfl, hc⟩

/-! Values. -/

theorem readValue_quoted (depth : Nat) {c : Char} (h : c = '"' ∨ c = '\'') (rest : List Char) :
    readValue depth (c :: rest) =
      (readText (c :: rest)).map fun (text, rest) => (.text (some (String.ofList text)), rest) := by
  rcases h with rfl | rfl
  · cases depth <;> rfl
  · cases depth <;> rfl

theorem readScalar_true (rest : List Char) :
    readScalar ('t' :: 'r' :: 'u' :: 'e' :: '\n' :: rest) = some (.bool true, '\n' :: rest) := by
  simp [readScalar, scalarRun, isScalarChar, date?, fixedDigits?]

theorem readScalar_false (rest : List Char) :
    readScalar ('f' :: 'a' :: 'l' :: 's' :: 'e' :: '\n' :: rest) =
      some (.bool false, '\n' :: rest) := by
  simp [readScalar, scalarRun, isScalarChar, date?, fixedDigits?]

theorem readItems_empty (value : Reader Document) (fuel : Nat) (rest : List Char) :
    readItems value (fuel + 1) (']' :: rest) = some ([], rest) := by
  have hspaces : skipSpaces (']' :: rest) = ']' :: rest := skipSpaces_cons (by decide) rest
  have hblanks : skipBlanks (']' :: rest).length (']' :: rest) = ']' :: rest := by
    rw [List.length_cons, skipBlanks, hspaces]
    rfl
  rw [readItems, hblanks]
  rfl

theorem skipSpaces_render (v : Literal) (rest : List Char) :
    skipSpaces (v.render ++ rest) = v.render ++ rest := by
  cases v with
  | text s =>
    obtain ⟨c, t, hs, hc⟩ := exists_quote_cons s.toList
    rw [Literal.render, hs]
    apply skipSpaces_cons
    rcases hc with rfl | rfl <;> decide
  | bool b =>
    cases b with
    | true => exact skipSpaces_cons (by decide) _
    | false => exact skipSpaces_cons (by decide) _
  | emptyList => exact skipSpaces_cons (by decide) _

/-- A written value is read back at the end of its line. -/
theorem readValue_render (depth : Nat) (v : Literal) (rest : List Char) :
    readValue (depth + 1) (v.render ++ '\n' :: rest) = some (v.document, '\n' :: rest) := by
  cases v with
  | text s =>
    obtain ⟨c, t, hs, hc⟩ := exists_quote_cons s.toList
    have hread := readText_quote s.toList ('\n' :: rest) (by simp) (by simp)
    simp only [Literal.render, hs, List.cons_append] at hread ⊢
    rw [readValue_quoted _ hc, hread]
    simp [Literal.document]
  | bool b =>
    cases b with
    | true => exact readScalar_true rest
    | false => exact readScalar_false rest
  | emptyList =>
    have hitems := readItems_empty (readValue depth) rest.length.succ ('\n' :: rest)
    simp only [Literal.render, List.cons_append, List.nil_append, readValue, List.length_cons]
    rw [hitems]
    rfl

/-! Lines. -/

theorem readLineEnd_newline (rest : List Char) : readLineEnd ('\n' :: rest) = some rest := by
  have hspaces : skipSpaces ('\n' :: rest) = '\n' :: rest := skipSpaces_cons (by decide) rest
  rw [readLineEnd, hspaces]
  rfl

def Line.body : Line → List Char
  | assign key v => quoteKey key.toList ++ ([' ', '=', ' '] ++ v.render)
  | header h => h.render

def Line.IsShort : Line → Prop
  | assign _ _ => True
  | header h => h.path.length < depthLimit - 1

theorem readHeader_render {h : Header} (hpath : h.path.length < depthLimit - 1)
    (rest : List Char) : ∃ t, h.render ++ rest = '[' :: t ∧ readHeader t = some (h, rest) := by
  obtain ⟨path, key, isElement⟩ := h
  cases isElement with
  | true =>
    have hread := readPath_renderPath hpath key (']' :: ']' :: rest) (by simp [isBare]) (by
      rw [skipSpaces_cons (by decide)]
      simp)
    refine ⟨'[' :: (renderPath path key ++ ']' :: ']' :: rest), by simp [Header.render], ?_⟩
    rw [readHeader, hread, skipSpaces_cons (by decide)]
    rfl
  | false =>
    have hread := readPath_renderPath hpath key (']' :: rest) (by simp [isBare]) (by
      rw [skipSpaces_cons (by decide)]
      simp)
    refine ⟨renderPath path key ++ ']' :: rest, by simp [Header.render], ?_⟩
    -- The path begins with a key, so it is not taken for the second bracket of an element.
    obtain ⟨c, t, hs, hc⟩ := exists_renderPath_cons path key
    rw [readHeader, hread, skipSpaces_cons (by decide)]
    · rfl
    · rintro t' ht'
      rw [hs] at ht'
      exact ne_of_class hc (by decide) (List.cons.inj ht').1

theorem readAssignment_render (depth : Nat) (key : String) (v : Literal) (rest : List Char) :
    readAssignment (readValue (depth + 1))
        (quoteKey key.toList ++ ' ' :: '=' :: ' ' :: (v.render ++ '\n' :: rest)) =
      some (⟨[], key, v.document⟩, '\n' :: rest) := by
  have hequals (rest : List Char) : skipSpaces (' ' :: '=' :: rest) = '=' :: rest := by
    rw [skipSpaces_space, skipSpaces_cons (by decide)]
  have hread := readPath_renderPath (show ([] : List String).length < depthLimit - 1 by decide) key
    (' ' :: '=' :: ' ' :: (v.render ++ '\n' :: rest)) (by simp [isBare]) (by rw [hequals]; simp)
  rw [hequals] at hread
  have hvalue := readValue_render depth v rest
  rw [← skipSpaces_render, ← skipSpaces_space] at hvalue
  unfold readAssignment
  rw [show quoteKey key.toList = renderPath [] key from rfl, hread]
  exact congrArg (Option.map fun x => ((⟨[], key, x.1⟩ : Assignment), x.2)) hvalue

/-- The statement of a line is read up to the end of the line. -/
theorem readStatement_body {line : Line} (h : line.IsShort) (rest : List Char) :
    readStatement (line.body ++ '\n' :: rest) = some (line.statement, '\n' :: rest) := by
  cases line with
  | header header =>
    obtain ⟨t, ht, hread⟩ := readHeader_render h ('\n' :: rest)
    rw [Line.body, ht, readStatement, hread]
    rfl
  | assign key v =>
    have hread := readAssignment_render (depthLimit - 2) key v rest
    have hsplit : (Line.assign key v).body ++ '\n' :: rest =
        quoteKey key.toList ++ ' ' :: '=' :: ' ' :: (v.render ++ '\n' :: rest) := by
      simp [Line.body]
    rw [hsplit, readStatement]
    · rw [show depthLimit - 1 = depthLimit - 2 + 1 from rfl, hread]
      rfl
    · -- The line begins with a key, so it is not taken for a header.
      obtain ⟨c, t, hs, hc⟩ := exists_quoteKey_cons key.toList
      rintro t' ht'
      rw [hs] at ht'
      exact ne_of_class hc (by decide) (List.cons.inj ht').1

theorem exists_body_cons (line : Line) : ∃ c t, line.body = c :: t ∧ isLineStart c := by
  cases line with
  | header h =>
    obtain ⟨path, key, _ | _⟩ := h
    · exact ⟨'[', _, rfl, by decide⟩
    · exact ⟨'[', _, rfl, by decide⟩
  | assign key v =>
    obtain ⟨c, t, hs, hc⟩ := exists_quoteKey_cons key.toList
    exact ⟨c, _, by rw [Line.body, hs]; rfl, isLineStart_of_isKeyStart hc⟩

/-- An empty line holds no statement. -/
theorem readLines_newline (fuel : Nat) (rest : List Char) :
    readLines (fuel + 1) ('\n' :: rest) = readLines fuel rest := by
  have hspaces : skipSpaces ('\n' :: rest) = '\n' :: rest := skipSpaces_cons (by decide) rest
  rw [readLines, hspaces]
  dsimp only
  rw [readLineEnd_newline]
  rfl

/-- A line holds one statement. -/
theorem readLines_body (fuel : Nat) {line : Line} (h : line.IsShort) (rest : List Char) :
    readLines (fuel + 1) (line.body ++ '\n' :: rest) =
      (readLines fuel rest).map (line.statement :: ·) := by
  have hread := readStatement_body h rest
  obtain ⟨c, t, hs, hc⟩ := exists_body_cons line
  have hcomment : c ≠ '#' := ne_of_class hc (by decide)
  have hnewline : c ≠ '\n' := ne_of_class hc (by decide)
  have hreturn : c ≠ '\r' := ne_of_class hc (by decide)
  rw [hs, List.cons_append] at hread ⊢
  rw [readLines, skipSpaces_cons (isSpace_of_isLineStart hc)]
  simp [hcomment, hnewline, hreturn, hread, readLineEnd_newline]

theorem render_eq_body (line : Line) :
    line.render = line.body ++ ['\n'] ∨ line.render = '\n' :: (line.body ++ ['\n']) := by
  cases line with
  | assign key v =>
    left
    simp [Line.render, Line.body]
  | header h => exact .inr rfl

/-- A written line takes no more fuel than it has characters. -/
theorem exists_readLines_line {line : Line} (h : line.IsShort) {fuel : Nat}
    (hfuel : line.render.length ≤ fuel) (rest : List Char) :
    ∃ left, fuel ≤ left + line.render.length ∧ readLines fuel (line.render ++ rest) =
      (readLines left rest).map (line.statement :: ·) := by
  rcases render_eq_body line with hrender | hrender
  · rw [hrender] at hfuel ⊢
    simp only [List.length_append, List.length_singleton] at hfuel ⊢
    obtain ⟨left, rfl⟩ : ∃ left, fuel = left + 1 := ⟨fuel - 1, by omega⟩
    refine ⟨left, by omega, ?_⟩
    rw [List.append_assoc, List.singleton_append, readLines_body left h]
  · rw [hrender] at hfuel ⊢
    simp only [List.length_cons, List.length_append, List.length_nil] at hfuel ⊢
    obtain ⟨left, rfl⟩ : ∃ left, fuel = left + 1 + 1 := ⟨fuel - 2, by omega⟩
    refine ⟨left, by omega, ?_⟩
    rw [List.cons_append, readLines_newline, List.append_assoc, List.singleton_append,
      readLines_body left h]

/-- Written lines are read one by one, as the statements that they are. -/
theorem readLines_render {lines : List Line} (h : ∀ line ∈ lines, line.IsShort) {fuel : Nat}
    (hfuel : (lines.flatMap Line.render).length ≤ fuel) :
    readLines fuel (lines.flatMap Line.render) = some (lines.map Line.statement) := by
  induction lines generalizing fuel with
  | nil => cases fuel <;> rfl
  | cons line lines ih =>
    obtain ⟨hline, hlines⟩ := List.forall_mem_cons.mp h
    rw [List.flatMap_cons, List.length_append] at hfuel
    obtain ⟨left, hleft, hread⟩ := exists_readLines_line hline
      (Nat.le_of_add_right_le hfuel) (lines.flatMap Line.render)
    rw [List.flatMap_cons, hread, ih hlines (by omega)]
    rfl

/-- A written text holds the statements of its lines, and does not begin with a byte order mark. -/
theorem statements_render {lines : List Line} (h : ∀ line ∈ lines, line.IsShort) :
    statements (render lines).toList = some (lines.map Line.statement) := by
  have hread := readLines_render h (Nat.le_refl _)
  rw [render, String.toList_ofList]
  unfold statements
  split
  · rename_i rest hmark
    cases lines with
    | nil => simp at hmark
    | cons line lines =>
      obtain ⟨c, t, hs, hc⟩ := exists_body_cons line
      rw [List.flatMap_cons] at hmark
      rcases render_eq_body line with hrender | hrender
      · rw [hrender, hs] at hmark
        exact absurd (List.cons.inj hmark).1 (ne_of_class hc (by decide))
      · rw [hrender] at hmark
        exact absurd (List.cons.inj hmark).1 (by decide)
  · exact hread

/-- A written text is read as the record that its statements make. -/
theorem read_render {lines : List Line} (h : ∀ line ∈ lines, line.IsShort) :
    read (render lines) = ofStatements (lines.map Line.statement) := by
  rw [read, statements_render h]
  rfl

end ColumnCipher.Toml
