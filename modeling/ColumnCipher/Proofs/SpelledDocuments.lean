import ColumnCipher.Document.Json
/-!
Writing documents as JSON texts. Every document is spelled by some text: its tokens stand one after
the other with a space after each, and a document is read from the tokens whatever is still open
around it.
-/
namespace ColumnCipher.Json

/-! The tokens of a document. -/

mutual

def tokensOf : Document → List Token
  | .null => [.null]
  | .bool b => [.bool b]
  | .number => [.number]
  | .text s => [.text s]
  | .list [] => [.openList, .closeList]
  | .list (d :: items) => .openList :: (tokensOf d ++ moreItems items)
  | .record [] => [.openRecord, .closeRecord]
  | .record ((name, d) :: members) =>
    .openRecord :: .text name :: .colon :: (tokensOf d ++ moreMembers members)

/-- The tokens from the end of one list item to the end of the list. -/
def moreItems : List Document → List Token
  | [] => [.closeList]
  | d :: items => .comma :: (tokensOf d ++ moreItems items)

def moreMembers : List (Option String × Document) → List Token
  | [] => [.closeRecord]
  | (name, d) :: members =>
    .comma :: .text name :: .colon :: (tokensOf d ++ moreMembers members)

end

/-! Reading the tokens of a document. -/

open State

def run (s : State) (tokens : List Token) : Option State := tokens.foldlM step s

theorem run_cons (s : State) (token : Token) (tokens : List Token) :
    run s (token :: tokens) = (step s token).bind (run · tokens) :=
  List.foldlM_cons

theorem run_append (s : State) (before after : List Token) :
    run s (before ++ after) = (run s before).bind (run · after) :=
  List.foldlM_append

/-- Where an item is expected a list may also end, and reading an item there is the same. -/
theorem step_itemOrClose {token : Token} (h : token ≠ .closeList) (stack : List Open) :
    step ⟨stack, .itemOrClose⟩ token = step ⟨stack, .item⟩ token := by
  cases token <;> first | rfl | exact absurd rfl h

theorem tokensOf_eq_cons (d : Document) :
    ∃ token tokens, tokensOf d = token :: tokens ∧ token ≠ .closeList := by
  cases d with
  | list items => cases items <;> exact ⟨_, _, rfl, by simp⟩
  | record members => cases members <;> exact ⟨_, _, rfl, by simp⟩
  | _ => exact ⟨_, _, rfl, by simp⟩

theorem run_itemOrClose (d : Document) (stack : List Open) :
    run ⟨stack, .itemOrClose⟩ (tokensOf d) = run ⟨stack, .item⟩ (tokensOf d) := by
  obtain ⟨token, tokens, heq, htoken⟩ := tokensOf_eq_cons d
  rw [heq, run_cons, run_cons, step_itemOrClose htoken]

mutual

/-- The tokens of a document complete it, whatever is open around it. -/
theorem run_tokensOf (d : Document) (stack : List Open) :
    run ⟨stack, .item⟩ (tokensOf d) = complete d stack := by
  match d with
  | .null | .bool _ | .number | .text _ => simp [tokensOf, run, step, item]
  | .list [] => simp [tokensOf, run, step, item, close]
  | .list (d :: items) =>
    have hfirst : run ⟨.list [] :: stack, .itemOrClose⟩ (tokensOf d) =
        some ⟨.list [d] :: stack, .separator⟩ := (run_itemOrClose d _).trans (run_tokensOf d _)
    have hmore := run_moreItems items [d] stack
    rw [tokensOf, run_cons]
    change run _ (tokensOf d ++ moreItems items) = _
    rw [run_append, hfirst]
    exact hmore
  | .record [] => simp [tokensOf, run, step, item, close]
  | .record ((name, d) :: members) =>
    have hfirst : run ⟨.member name [] :: stack, .item⟩ (tokensOf d) =
        some ⟨.record [(name, d)] :: stack, .separator⟩ := run_tokensOf d _
    have hmore := run_moreMembers members [(name, d)] stack
    rw [tokensOf, run_cons]
    change run _ (tokensOf d ++ moreMembers members) = _
    rw [run_append, hfirst]
    exact hmore

/-- The tokens after a list item complete the list. -/
theorem run_moreItems (items done : List Document) (stack : List Open) :
    run ⟨.list done :: stack, .separator⟩ (moreItems items) =
      complete (.list (done.reverse ++ items)) stack := by
  match items with
  | [] => simp [moreItems, run, step, close]
  | d :: items =>
    have hfirst : run ⟨.list done :: stack, .item⟩ (tokensOf d) =
        some ⟨.list (d :: done) :: stack, .separator⟩ := run_tokensOf d _
    have hmore := run_moreItems items (d :: done) stack
    rw [moreItems, run_cons]
    change run _ (tokensOf d ++ moreItems items) = _
    rw [run_append, hfirst]
    simpa using hmore

/-- The tokens after a member complete the record. -/
theorem run_moreMembers (members done : List (Option String × Document)) (stack : List Open) :
    run ⟨.record done :: stack, .separator⟩ (moreMembers members) =
      complete (.record (done.reverse ++ members)) stack := by
  match members with
  | [] => simp [moreMembers, run, step, close]
  | (name, d) :: members =>
    have hfirst : run ⟨.member name done :: stack, .item⟩ (tokensOf d) =
        some ⟨.record ((name, d) :: done) :: stack, .separator⟩ := run_tokensOf d _
    have hmore := run_moreMembers members ((name, d) :: done) stack
    rw [moreMembers, run_cons]
    change run _ (tokensOf d ++ moreMembers members) = _
    rw [run_append, hfirst]
    simpa using hmore

end

theorem ofTokens_tokensOf (d : Document) : ofTokens (tokensOf d) = some d := by
  have hrun := run_tokensOf d []
  rw [run] at hrun
  rw [ofTokens, hrun]
  rfl

/-! The characters of a token. -/

/-- How a character stands in a string: quotes and backslashes behind a backslash, and control
characters as their number. -/
def escape (c : Char) : List Char :=
  if c = '"' ∨ c = '\\' then ['\\', c]
  else if c.toNat < 0x20 then
    ['\\', 'u', '0', '0', Nat.digitChar (c.toNat / 16), Nat.digitChar (c.toNat % 16)]
  else [c]

def piece (c : Char) : Piece := if c.toNat < 0x20 then .unit c.toNat else .char c

/-- The characters of a token. A text that has no characters to give is half of a surrogate pair. -/
def Token.chars : Token → List Char
  | .openRecord => ['\x7b']
  | .closeRecord => ['\x7d']
  | .openList => ['[']
  | .closeList => [']']
  | .colon => [':']
  | .comma => [',']
  | .null => ['n', 'u', 'l', 'l']
  | .bool true => ['t', 'r', 'u', 'e']
  | .bool false => ['f', 'a', 'l', 's', 'e']
  | .number => ['0']
  | .text (some s) => '"' :: (s.toList.flatMap escape ++ ['"'])
  | .text none => ['"', '\\', 'u', 'd', '8', '0', '0', '"']

theorem hexDigit?_digitChar : ∀ n < 16, hexDigit? (Nat.digitChar n) = some n := by decide

theorem joinPieces_unit {n : Nat} (h : n < 0xD800) (pieces : List Piece) :
    joinPieces (.unit n :: pieces) = (joinPieces pieces).map (Char.ofNat n :: ·) := by
  have hhigh : isHigh n = false := by simp [isHigh]; omega
  have hlow : isLow n = false := by simp [isLow]; omega
  cases pieces with
  | nil => simp [joinPieces, hhigh, hlow]
  | cons p pieces => cases p <;> simp [joinPieces, hhigh, hlow]

theorem joinPieces_pieces (cs : List Char) : joinPieces (cs.map piece) = some cs := by
  induction cs with
  | nil => rfl
  | cons c cs ih =>
    rw [List.map_cons, piece]
    split
    · rw [joinPieces_unit (by omega), ih, Option.map_some, Char.ofNat_toNat]
    · rw [joinPieces, ih, Option.map_some]

theorem readString_escape (c : Char) (before : List Piece) (rest : List Char) :
    readString before (escape c ++ rest) = readString (piece c :: before) rest := by
  unfold escape piece
  split
  · rename_i h
    obtain rfl | rfl := h <;> rfl
  · split
    · have hhigh := hexDigit?_digitChar (c.toNat / 16) (by omega)
      have hlow := hexDigit?_digitChar (c.toNat % 16) (by omega)
      have hzero : hexDigit? '0' = some 0 := rfl
      have hcode : ((0 * 16 + 0) * 16 + c.toNat / 16) * 16 + c.toNat % 16 = c.toNat := by omega
      simp only [List.cons_append, List.nil_append, readString, hzero, hhigh, hlow, hcode]
    · rename_i hplain hcontrol
      rw [not_or] at hplain
      rw [List.singleton_append, readString, if_neg hcontrol] <;> simp_all

theorem readString_flatMap_escape (cs : List Char) (before : List Piece) (rest : List Char) :
    readString before (cs.flatMap escape ++ '"' :: rest) =
      some (before.reverse ++ cs.map piece, rest) := by
  induction cs generalizing before with
  | nil => simp [readString]
  | cons c cs ih =>
    rw [List.flatMap_cons, List.append_assoc, readString_escape, ih]
    simp

theorem readToken_chars (token : Token) (rest : List Char) :
    readToken (token.chars ++ ' ' :: rest) = some (token, ' ' :: rest) := by
  match token with
  | .text (some s) =>
    rw [Token.chars, List.cons_append, List.append_assoc, List.singleton_append]
    change (readString [] _).map _ = _
    rw [readString_flatMap_escape, Option.map_some, List.reverse_nil, List.nil_append]
    dsimp only
    rw [joinPieces_pieces, Option.map_some, String.ofList_toList]
  | .text none | .openRecord | .closeRecord | .openList | .closeList | .colon | .comma | .null
  | .bool true | .bool false | .number => rfl

/-! The text of a document. -/

def spell (tokens : List Token) : List Char := tokens.flatMap fun token => token.chars ++ [' ']

def write (d : Document) : String := String.ofList (spell (tokensOf d))

theorem spell_cons (token : Token) (tokens : List Token) :
    spell (token :: tokens) = token.chars ++ ' ' :: spell tokens := by
  simp [spell]

/-- A token begins with a character that is no white space. -/
theorem chars_eq_cons (token : Token) :
    ∃ c rest, token.chars = c :: rest ∧ isBlank c = false := by
  match token with
  | .text (some _) | .text none | .openRecord | .closeRecord | .openList | .closeList | .colon
  | .comma | .null | .bool true | .bool false | .number => exact ⟨_, _, rfl, rfl⟩

theorem readTokens_blank (before : List Token) (fuel : Nat) (text : List Char) :
    readTokens before fuel (' ' :: text) = readTokens before fuel text := by
  have hblank : (' ' :: text).dropWhile isBlank = text.dropWhile isBlank := rfl
  rw [readTokens.eq_def, readTokens.eq_def before fuel text]
  simp only [hblank]

theorem readTokens_spell (tokens before : List Token) {fuel : Nat} (h : tokens.length ≤ fuel) :
    readTokens before fuel (spell tokens) = some (before.reverse ++ tokens) := by
  induction tokens generalizing before fuel with
  | nil => simp [spell, readTokens]
  | cons token tokens ih =>
    obtain ⟨fuel, rfl⟩ : ∃ n, fuel = n + 1 := ⟨fuel - 1, by simp at h; omega⟩
    obtain ⟨c, rest, hchars, hc⟩ := chars_eq_cons token
    have hread := readToken_chars token (spell tokens)
    rw [hchars, List.cons_append] at hread
    rw [spell_cons, hchars, List.cons_append, readTokens, List.dropWhile_cons_of_neg (by simp [hc])]
    simp only [hread]
    rw [readTokens_blank, ih (token :: before) (by simpa using h)]
    simp

/-- Each token takes a character at least. -/
theorem length_le_length_spell (tokens : List Token) : tokens.length ≤ (spell tokens).length := by
  induction tokens with
  | nil => exact Nat.zero_le _
  | cons token tokens ih =>
    rw [spell_cons, List.length_append, List.length_cons, List.length_cons]
    omega

/-- A document is read from the text that spells it. -/
theorem read_write (d : Document) : read (write d) = some d := by
  rw [read, write, String.toList_ofList, tokens,
    readTokens_spell _ [] (length_le_length_spell (tokensOf d))]
  exact ofTokens_tokensOf d

end ColumnCipher.Json
