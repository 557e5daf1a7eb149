import ColumnCipher.Text.Case
/-!
Lower case once and again. The images of the lower-case table are in no run of the table, and a
lower-casing leaves no capital sigma, whose form would depend on where it stands. So what was put in
lower case stays as it is.
-/
namespace ColumnCipher.Case

/-! What a table sends where. -/

def pairs : Nat × Nat × Nat × Nat → List (Nat × Nat)
  | (first, last, step, target) =>
    (List.range' 0 ((last - first) / step + 1) step).map fun k => (first + k, target + k)

theorem mem_pairs {first last step target c : Nat} (hfirst : first ≤ c) (hlast : c ≤ last)
    (hstep : (c - first) % step = 0) :
    (c, target + (c - first)) ∈ pairs (first, last, step, target) := by
  have hk : (c - first) / step < (last - first) / step + 1 :=
    Nat.lt_succ_of_le (Nat.div_le_div_right (by omega))
  have heq : c - first = 0 + step * ((c - first) / step) := by
    rw [Nat.zero_add, Nat.mul_div_cancel' (Nat.dvd_of_mod_eq_zero hstep)]
  refine List.mem_map.mpr ⟨c - first, List.mem_range'.mpr ⟨_, hk, heq⟩, ?_⟩
  rw [Nat.add_sub_cancel' hfirst]

def sends (runs : List (Nat × Nat × Nat × Nat)) : List (Nat × Nat) := runs.flatMap pairs

/-- A table leaves a character as it is or sends it to its image. -/
theorem applyRuns_eq_self_or_mem (c : Nat) (runs : List (Nat × Nat × Nat × Nat)) :
    applyRuns c runs = c ∨ (c, applyRuns c runs) ∈ sends runs := by
  induction runs with
  | nil => exact .inl rfl
  | cons run rest ih =>
    obtain ⟨first, last, step, target⟩ := run
    rw [applyRuns, sends, List.flatMap_cons]
    split
    · exact .inl rfl
    · rename_i hfirst
      split
      · rename_i hrun
        exact .inr (List.mem_append_left _ (mem_pairs (Nat.le_of_not_lt hfirst) hrun.1 hrun.2))
      · exact ih.imp_right (List.mem_append_right _)

/-- A set of characters as a number, whose binary digits tell its members. The tables are long, and
to look for a digit takes one step. -/
def mask (cs : List Nat) : Nat := cs.foldr (fun c m => 1 <<< c ||| m) 0

theorem testBit_mask {cs : List Nat} {c : Nat} : (mask cs).testBit c = true ↔ c ∈ cs := by
  induction cs with
  | nil => simp [mask]
  | cons d rest ih =>
    rw [mask, List.foldr_cons, ← mask, Nat.testBit_or, Nat.one_shiftLeft, Nat.testBit_two_pow,
      Bool.or_eq_true, decide_eq_true_eq, ih, List.mem_cons, eq_comm]

theorem applyRuns_of_testBit {d : Nat} {runs : List (Nat × Nat × Nat × Nat)}
    (h : (mask ((sends runs).map Prod.fst)).testBit d = false) : applyRuns d runs = d := by
  rcases applyRuns_eq_self_or_mem d runs with hself | hsends
  · exact hself
  · rw [testBit_mask.mpr (List.mem_map_of_mem hsends)] at h
    exact absurd h (by decide)

/-! What was put in lower case. -/

/-- The images of the lower-case table are characters that the table leaves as they are. None is the
dotted capital, whose lower-case form is two characters. -/
theorem lowerRuns_leave : (sends lowerRuns).all (fun p =>
    !(mask ((sends lowerRuns).map Prod.fst)).testBit p.2 && (Char.ofNat p.2).toNat.beq p.2 &&
      !p.2.beq 0x130) = true := by
  decide +kernel

/-- The characters that lower-casing leaves as they are, wherever they stand. -/
structure IsLower (c : Char) : Prop where
  ne_sigma : c ≠ 'Σ'
  lowerChar : lowerChar c = [c]

theorem isLower_smallSigma {c : Char} (hc : c = 'σ' ∨ c = 'ς') : IsLower c := by
  rcases hc with rfl | rfl
  · exact ⟨by decide, by decide⟩
  · exact ⟨by decide, by decide⟩

theorem isLower_of_sends {c d : Nat} (hd : (c, d) ∈ sends lowerRuns) : IsLower (Char.ofNat d) := by
  have hleave := List.all_eq_true.mp lowerRuns_leave _ hd
  simp only [Bool.and_eq_true, Bool.not_eq_true', Nat.beq_eq] at hleave
  obtain ⟨⟨hbit, htoNat⟩, hdotted⟩ := hleave
  have hfixed := applyRuns_of_testBit hbit
  constructor
  · rintro hsigma
    rw [← htoNat, hsigma] at hfixed
    exact absurd hfixed (by decide)
  · have hne : Char.ofNat d ≠ 'İ' := by
      intro hi
      rw [← htoNat, hi] at hdotted
      exact absurd hdotted (by decide)
    rw [Case.lowerChar, if_neg hne, htoNat, hfixed]

theorem isLower_of_mem_lowerChar {c d : Char} (hc : c ≠ 'Σ') (hd : d ∈ lowerChar c) :
    IsLower d := by
  rw [Case.lowerChar] at hd
  split at hd
  · simp only [List.mem_cons, List.not_mem_nil, or_false] at hd
    rcases hd with rfl | rfl
    · exact ⟨by decide, by decide⟩
    · exact ⟨by decide, by decide⟩
  · rename_i hi
    obtain rfl := List.mem_singleton.mp hd
    rcases applyRuns_eq_self_or_mem c.toNat lowerRuns with hself | hsends
    · rw [hself, Char.ofNat_toNat]
      refine ⟨hc, ?_⟩
      rw [Case.lowerChar, if_neg hi, hself, Char.ofNat_toNat]
    · exact isLower_of_sends hsends

theorem isLower_of_mem_lowerFrom {inWord : Bool} {s : List Char} {d : Char}
    (hd : d ∈ lowerFrom inWord s) : IsLower d := by
  induction s generalizing inWord with
  | nil => simp [lowerFrom] at hd
  | cons c rest ih =>
    rw [lowerFrom] at hd
    rcases List.mem_append.mp hd with hd | hd
    · split at hd
      · split at hd
        · exact isLower_smallSigma (.inr (List.mem_singleton.mp hd))
        · exact isLower_smallSigma (.inl (List.mem_singleton.mp hd))
      · rename_i hc
        exact isLower_of_mem_lowerChar hc hd
    · exact ih hd

theorem lowerFrom_of_isLower {inWord : Bool} {s : List Char} (h : ∀ c ∈ s, IsLower c) :
    lowerFrom inWord s = s := by
  induction s generalizing inWord with
  | nil => rfl
  | cons c rest ih =>
    obtain ⟨hc, hrest⟩ := List.forall_mem_cons.mp h
    rw [lowerFrom, if_neg hc.ne_sigma, hc.lowerChar, ih hrest]
    rfl

/-- What was put in lower case stays as it is. -/
@[simp] theorem lower_lower (s : String) : lower (lower s) = lower s := by
  rw [lower, lower, String.toList_ofList,
    lowerFrom_of_isLower fun _ => isLower_of_mem_lowerFrom]

end ColumnCipher.Case
