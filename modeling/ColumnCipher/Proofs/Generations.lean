import ColumnCipher.Publisher.Run
import Mathlib.Data.List.Induction
/-!
Generations of rules. After any run a publisher knows what its calls say: how many rules they
published, which was the last, and what was last said about the database. So numbers are given out
one by one, and a call whose configuration is refused can be left out of the run.
-/
namespace ColumnCipher

namespace Answer

def number? {σ : Type} : Answer σ → Option UInt64
  | number n => some n
  | _ => none

end Answer

namespace Publisher

variable {σ : Type} [NonceSource σ]

/-- The publisher after a run knows how many rules the calls published, which was the last one, and
what was last said about the database. -/
theorem publisher_run (first : Rule σ) (calls : List (Call σ)) :
    (run (start first) calls).publisher =
      ⟨⟨UInt64.ofNat (1 + (published calls).length), ruleAfter first calls⟩,
        schemaAfter calls⟩ := by
  induction calls using List.reverseRecOn with
  | nil => rfl
  | append_singleton calls c ih =>
    rw [run_concat, ruleAfter_concat, schemaAfter_concat, published_concat, extend]
    obtain ⟨walk, rule, hrule, hschema, hstep⟩ | ⟨walk, database, schemas, rfl, hstep⟩ |
      ⟨hrule, hschema, answer, hstep⟩ := step_cases (run (start first) calls).publisher c
    · rw [hstep, ih, hrule, hschema]
      simp [publishIn, UInt64.ofNat_add, UInt64.add_assoc]
    · rw [hstep, ih]
      simp [setSchemaIn, Call.rule?, Call.schema?]
    · rw [hstep, ih, hrule, hschema]
      simp

/-! Answers -/

theorem length_answers (p : Publisher σ) (calls : List (Call σ)) :
    (run p calls).answers.length = calls.length := by
  induction calls using List.reverseRecOn with
  | nil => rfl
  | append_singleton calls c ih => simp [run_concat, extend, ih]

/-- Later calls do not change the answers to earlier ones. -/
theorem answers_prefix (p : Publisher σ) (calls later : List (Call σ)) :
    (run p calls).answers <+: (run p (calls ++ later)).answers := by
  induction later using List.reverseRecOn with
  | nil => simp
  | append_singleton later c ih =>
    rw [← List.append_assoc, run_concat]
    exact ih.trans (List.prefix_append _ _)

/-- A call is answered in the state that the calls before it left. -/
theorem getElem?_answers (p : Publisher σ) (before : List (Call σ)) (c : Call σ)
    (after : List (Call σ)) :
    (run p (before ++ c :: after)).answers[before.length]? =
      some ((run p before).publisher.step c).2.2 := by
  obtain ⟨rest, hrest⟩ := answers_prefix p (before ++ [c]) after
  rw [List.append_assoc, List.singleton_append] at hrest
  rw [← hrest, run_concat, ← length_answers p before]
  simp [extend]

/-- What a call is answered after others: numbers count the rules that were published, and a
snapshot is of the last of them. -/
inductive Due (first : Rule σ) (before : List (Call σ)) : Call σ → Answer σ → Prop where
  | setSchema (walk : Dict.Walk (Encryptor σ)) (database : String) (schemas : Schemas) :
      Due first before (.setSchema walk database schemas) .done
  | publish (walk : Dict.Walk (Encryptor σ)) (rule : Rule σ) (n : UInt64) :
      n.toNat = 2 + (published before).length → Due first before (.publish walk rule) (.number n)
  | reconfigure (order : Dict.Walk AlgorithmConfig) (walk : Dict.Walk (Encryptor σ)) (id : Nat)
      (config : RuleConfig) (rule : Rule σ) (n : UInt64) :
      Rule.ofConfigIn id config (order.entries config.encryptors) = .ok rule →
      n.toNat = 2 + (published before).length →
      Due first before (.reconfigure order walk id config) (.number n)
  | rejected (order : Dict.Walk AlgorithmConfig) (walk : Dict.Walk (Encryptor σ)) (id : Nat)
      (config : RuleConfig) (e : Error) :
      (Rule.ofConfigIn id config (order.entries config.encryptors) : Except Error (Rule σ)) =
        .error e →
      Due first before (.reconfigure order walk id config) (.refused e)
  | current (g : Generation σ) : g.rule = ruleAfter first before →
      Due first before .current (.snapshot g)
  | generation (n : UInt64) : n.toNat = 1 + (published before).length →
      Due first before .generation (.number n)

theorem toNat_number {n : Nat} (h : n < UInt64.size - 1) :
    (UInt64.ofNat (1 + n)).toNat = 1 + n := by
  have hsize : UInt64.size = 18446744073709551616 := rfl
  exact UInt64.toNat_ofNat_of_lt' (by omega)

theorem toNat_number_succ {n : Nat} (h : n + 1 < UInt64.size - 1) :
    (UInt64.ofNat (1 + n) + 1).toNat = 2 + n := by
  have hnext : UInt64.ofNat (1 + n) + 1 = UInt64.ofNat (1 + (n + 1)) := by
    simp [UInt64.ofNat_add, UInt64.add_assoc]
  rw [hnext, toNat_number h]
  omega

/-- Every call is answered what it is due. -/
theorem due_step (first : Rule σ) (before : List (Call σ)) (c : Call σ)
    (hfew : (published (before ++ [c])).length < UInt64.size - 1) :
    Due first before c ((run (start first) before).publisher.step c).2.2 := by
  rw [published_concat, List.length_append] at hfew
  rw [publisher_run]
  have hnext (h : c.rule?.isSome) :
      (UInt64.ofNat (1 + (published before).length) + 1).toNat = 2 + (published before).length := by
    obtain ⟨rule, hrule⟩ := Option.isSome_iff_exists.mp h
    rw [hrule] at hfew
    exact toNat_number_succ hfew
  cases c with
  | setSchema walk database schemas => exact .setSchema walk database schemas
  | publish walk rule => exact .publish walk rule _ (hnext rfl)
  | reconfigure order walk id config =>
    cases h : (Rule.ofConfigIn id config (order.entries config.encryptors) :
        Except Error (Rule σ)) with
    | ok rule =>
      have hrule : (Call.reconfigure order walk id config : Call σ).rule? = some rule := by
        simp only [Call.rule?, h]
        rfl
      simp only [step, reconfigureIn, h]
      exact .reconfigure order walk id config rule _ h (hnext (by rw [hrule]; rfl))
    | error e =>
      simp only [step, reconfigureIn, h]
      exact .rejected order walk id config e h
  | current => exact .current _ rfl
  | generation => exact .generation _ (toNat_number (by omega))

def issued (calls : List (Call σ)) (answers : List (Answer σ)) : List UInt64 :=
  (calls.zip answers).filterMap fun (c, answer) =>
    if c.rule?.isSome then answer.number? else none

/-- The numbers are given out one by one. -/
theorem issued_run (first : Rule σ) (calls : List (Call σ))
    (hfew : (published calls).length < UInt64.size - 1) :
    (issued calls (run (start first) calls).answers).map UInt64.toNat =
      List.range' 2 (published calls).length := by
  induction calls using List.reverseRecOn with
  | nil => rfl
  | append_singleton calls c ih =>
    rw [published_concat, List.length_append] at hfew
    rw [run_concat, issued, extend, List.zip_append (length_answers _ _).symm,
      List.filterMap_append, List.map_append, ← issued, ih (by omega), published_concat,
      List.length_append]
    obtain ⟨walk, rule, hrule, -, hstep⟩ | ⟨walk, database, schemas, rfl, hstep⟩ |
      ⟨hrule, -, answer, hstep⟩ := step_cases (run (start first) calls).publisher c
    · have hnumber : ((run (start first) calls).publisher.current.number + 1).toNat =
          2 + (published calls).length := by
        rw [hrule] at hfew
        rw [publisher_run]
        exact toNat_number_succ hfew
      rw [hstep]
      simp [hrule, Answer.number?, hnumber, List.range'_concat]
    · simp [Call.rule?]
    · simp [hrule]

/-! Refused configurations -/

theorem step_of_isRejected {c : Call σ} (h : c.isRejected) (p : Publisher σ) :
    ∃ e, p.step c = (p, [], .refused e) := by
  cases c with
  | reconfigure order walk id config =>
    cases hrule : (Rule.ofConfigIn id config (order.entries config.encryptors) :
        Except Error (Rule σ)) with
    | ok rule => simp [Call.isRejected, hrule, Except.isOk, Except.toBool] at h
    | error e =>
      refine ⟨e, ?_⟩
      simp only [step, reconfigureIn, hrule]
      rfl
  | _ => simp [Call.isRejected] at h

/-- A run without the calls that are rejected leaves the same, but for their answers. -/
theorem run_filter_not_isRejected (p : Publisher σ) (calls : List (Call σ)) :
    run p (calls.filter fun c => !c.isRejected) =
      ⟨(run p calls).publisher, (run p calls).deliveries,
        ((calls.zip (run p calls).answers).filter fun x => !x.1.isRejected).map Prod.snd⟩ := by
  induction calls using List.reverseRecOn with
  | nil => rfl
  | append_singleton calls c ih =>
    rw [run_concat, extend, List.zip_append (length_answers _ _).symm, List.filter_append,
      List.filter_append, List.map_append]
    cases h : c.isRejected with
    | true =>
      obtain ⟨e, hstep⟩ := step_of_isRejected h (run p calls).publisher
      simp [h, hstep, ih]
    | false => simp [h, run_concat, extend, ih]

/-- Generations are counted exactly, and rejected configurations leave no trace. After any run the
number of the publisher is one more than the number of rules that were published, its rule is the
last of them, and every call was answered accordingly, so the numbers given out are two, three, four
and so on. Without the calls that are rejected the run leaves the same publisher, the same
deliveries and so the same states of encryptors, and the same answers to all other calls. -/
theorem generations_count_publications (first : Rule σ) (calls : List (Call σ))
    (hfew : (published calls).length < UInt64.size - 1) :
    let left := run (start first) calls
    let kept := run (start first) (calls.filter fun c => !c.isRejected)
    (left.publisher.number.toNat = 1 + (published calls).length ∧
      left.publisher.current.rule = ruleAfter first calls ∧
      left.publisher.schema = schemaAfter calls) ∧
    (left.answers.length = calls.length ∧
      ∀ before c after, calls = before ++ c :: after →
        ∃ answer, left.answers[before.length]? = some answer ∧ Due first before c answer) ∧
    (issued calls left.answers).map UInt64.toNat = List.range' 2 (published calls).length ∧
    (kept.publisher = left.publisher ∧ kept.deliveries = left.deliveries ∧
      (∀ deliver s, kept.states deliver s = left.states deliver s) ∧
      kept.answers = ((calls.zip left.answers).filter fun x => !x.1.isRejected).map Prod.snd) := by
  intro left kept
  have hkept : kept = ⟨left.publisher, left.deliveries,
      ((calls.zip left.answers).filter fun x => !x.1.isRejected).map Prod.snd⟩ :=
    run_filter_not_isRejected (start first) calls
  have hleft := publisher_run first calls
  refine ⟨⟨?_, ?_, ?_⟩, ⟨length_answers _ _, ?_⟩, issued_run first calls hfew, ?_⟩
  · rw [number, hleft]
    exact toNat_number hfew
  · rw [hleft]
  · rw [hleft]
  · rintro before c after rfl
    -- Fewer rules are published before a call than in the whole run, so its number is exact too.
    refine ⟨_, getElem?_answers _ before c after, due_step first before c ?_⟩
    have hpart : (published (before ++ [c])).length ≤ (published (before ++ c :: after)).length := by
      have : before ++ [c] <+: before ++ c :: after := ⟨after, by simp⟩
      exact (this.filterMap Call.rule?).length_le
    exact Nat.lt_of_le_of_lt hpart hfew
  · rw [hkept]
    exact ⟨rfl, rfl, fun _ _ => rfl, rfl⟩

/-- Between a publication and a question for the number, a configuration without a cipher column is
refused, and both are as if it had not been there. -/
theorem generations_count_publications_one_rejected :
    let first : Rule NonceStream := .build .default .empty
    let bad : RuleConfig := {
      tables := [⟨"Orders", [⟨"Email", "", none, none, "aes", none, none⟩], none⟩]
      encryptors := .empty
      queryWithCipherColumn := true }
    let left := run (start first)
      [.publish .byKey first, .reconfigure .byKey .byKey 0 bad, .generation]
    left.publisher.number.toNat = 2 ∧
      left.answers[1]? =
        some (.refused (.invalidConfiguration "Orders" "Email" .cipherColumnRequired)) ∧
      (∃ n, left.answers[2]? = some (.number n) ∧ n.toNat = 2) ∧
      (run (start first) [.publish .byKey first, .generation]).publisher = left.publisher := by
  intro first bad left
  have hbad : (Rule.ofConfigIn 0 bad (Dict.Walk.byKey.entries bad.encryptors) :
      Except Error (Rule NonceStream)) =
        .error (.invalidConfiguration "Orders" "Email" .cipherColumnRequired) := by
    have hrefusal : bad.refusal? bad.encryptors.contains bad.encryptors.isEmpty =
        some (.invalidConfiguration "Orders" "Email" .cipherColumnRequired) := by decide +kernel
    simp only [Rule.ofConfigIn, hrefusal]
  have hrule : (Call.reconfigure .byKey .byKey 0 bad : Call NonceStream).rule? = none := by
    simp only [Call.rule?, hbad]
    rfl
  have hrejected : (Call.reconfigure .byKey .byKey 0 bad : Call NonceStream).isRejected = true := by
    simp only [Call.isRejected, hbad]
    rfl
  have hpublished (later : List (Call NonceStream)) :
      published (.publish .byKey first :: .reconfigure .byKey .byKey 0 bad :: later) =
        first :: published later := by
    have hfirst : (Call.publish .byKey first : Call NonceStream).rule? = some first := rfl
    rw [published, List.filterMap_cons_some hfirst, List.filterMap_cons_none hrule]
    rfl
  have hkept : ([.publish .byKey first, .reconfigure .byKey .byKey 0 bad, .generation] :
      List (Call NonceStream)).filter (fun c => !c.isRejected) =
        [.publish .byKey first, .generation] := by
    rw [List.filter_cons_of_pos rfl, List.filter_cons_of_neg (by rw [hrejected]; decide)]
    rfl
  obtain ⟨⟨hnumber, -, -⟩, ⟨-, hanswers⟩, -, hsame, -⟩ := generations_count_publications first
    [.publish .byKey first, .reconfigure .byKey .byKey 0 bad, .generation]
    (by rw [hpublished]; decide)
  refine ⟨by rw [hnumber, hpublished]; rfl, ?_, ?_, by rw [← hkept, hsame]⟩
  · obtain ⟨answer, hanswer, hdue⟩ := hanswers [.publish .byKey first] _ [.generation] rfl
    cases hdue with
    | reconfigure order walk id config rule n hok _ => simp [hbad] at hok
    | rejected order walk id config e herror =>
      rw [hbad] at herror
      exact Except.error.inj herror ▸ hanswer
  · obtain ⟨answer, hanswer, hdue⟩ := hanswers
      [.publish .byKey first, .reconfigure .byKey .byKey 0 bad] .generation [] rfl
    cases hdue with
    | generation n hn =>
      refine ⟨n, hanswer, ?_⟩
      rw [hn, hpublished]
      rfl

end Publisher
end ColumnCipher
