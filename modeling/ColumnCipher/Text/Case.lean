import ColumnCipher.Text.CaseData
/-!
Lower-case and upper-case forms of texts, by the full Unicode mappings. One character may become
several, and a capital sigma becomes a final sigma at the end of a word. Identifiers are compared by
their lower-case forms.
-/
namespace ColumnCipher.Case

def applyRuns (c : Nat) : List (Nat × Nat × Nat × Nat) → Nat
  | [] => c
  | (first, last, step, target) :: rest =>
    if c < first then c
    else if c ≤ last ∧ (c - first) % step = 0 then target + (c - first)
    else applyRuns c rest

def inRanges (c : Nat) : List (Nat × Nat) → Bool
  | [] => false
  | (first, last) :: rest => if c < first then false else c ≤ last || inRanges c rest

def isCased (c : Char) : Bool := inRanges c.toNat casedRanges

def isIgnorable (c : Char) : Bool := inRanges c.toNat ignorableRanges

/-- The lower-case form of a character outside its context. -/
def lowerChar (c : Char) : List Char :=
  if c = 'İ' then ['i', '\u0307'] else [Char.ofNat (applyRuns c.toNat lowerRuns)]

def upperChar (c : Char) : List Char :=
  match upperExpansions.lookup c.toNat with
  | some expansion => expansion.map Char.ofNat
  | none => [Char.ofNat (applyRuns c.toNat upperRuns)]

/-- Whether a cased character follows, after characters that casing looks through. -/
def casedNext : List Char → Bool
  | [] => false
  | c :: rest => if isIgnorable c then casedNext rest else isCased c

/-- The lower-case form of the rest of a text. `inWord` tells whether a cased character stands
before it, after characters that casing looks through. -/
def lowerFrom (inWord : Bool) : List Char → List Char
  | [] => []
  | c :: rest =>
    let image :=
      if c = 'Σ' then (if inWord && !casedNext rest then ['ς'] else ['σ']) else lowerChar c
    image ++ lowerFrom (if isIgnorable c then inWord else isCased c) rest

def lower (s : String) : String := String.ofList (lowerFrom false s.toList)

def upper (s : String) : String := String.ofList (s.toList.flatMap upperChar)

end ColumnCipher.Case
