-- SUMMARY: Messages as a publisher writes them, with any of the optional keys, and that `parse_message` reads them back.
import FlowStudyJudge.Judge.Format

/-! # Publishing

A publisher writes the keys that the format requires, and of the others those that it
chooses. -/

namespace TestCase

def fields (t : TestCase) : List (Bytes × Json) :=
  [("testcase_id", .integer t.testcaseId.toNat), ("case_index", .integer t.caseIndex),
    ("input", .string t.input), ("expected_output", .string t.expectedOutput)]

/-- The keys that are always written. -/
def required (key : Bytes) : Bool :=
  key = "input" || key = "expected_output"

/-- An element of `testcases`, with the optional keys that `keep` selects. -/
def toJson (keep : Bytes → Bool) (t : TestCase) : Json :=
  .object (t.fields.filter fun f => required f.1 || keep f.1)

/-- The test case with the defaults for the keys that `keep` does not select, at a position
    counted from 0. -/
def restrict (keep : Bytes → Bool) (size : Nat) (t : TestCase) : TestCase :=
  { t with
    testcaseId := if keep "testcase_id" then t.testcaseId else 0
    caseIndex := if keep "case_index" then t.caseIndex else size + 1 }

end TestCase

namespace SubmissionMessage

/-- The elements of `testcases`. Each can have other keys. -/
def casesToJson (keep : Nat → Bytes → Bool) : Nat → List TestCase → List Json
  | _, [] => []
  | size, t :: ts => t.toJson (keep size) :: casesToJson keep (size + 1) ts

def restrictCases (keep : Nat → Bytes → Bool) : Nat → List TestCase → List TestCase
  | _, [] => []
  | size, t :: ts => t.restrict (keep size) size :: restrictCases keep (size + 1) ts

def fields (keepCase : Nat → Bytes → Bool) (msg : SubmissionMessage) : List (Bytes × Json) :=
  [("task_type", .string msg.taskType), ("run_id", .integer msg.runId.toNat),
    ("submission_id", .integer msg.submissionId.toNat),
    ("problem_id", .integer msg.problemId.toNat), ("language", .string msg.language),
    ("submit_mode", .string msg.submitMode), ("code", .string msg.code),
    ("time_limit", .integer msg.timeLimitMs), ("memory_limit", .integer msg.memoryLimitKb),
    ("testcases", .array (casesToJson keepCase 0 msg.testcases))]

/-- The keys that are always written. -/
def required (key : Bytes) : Bool :=
  key = "problem_id" || key = "code" || key = "testcases"

/-- The value that is published, with the optional keys that `keep` and `keepCase` select. -/
def toJson (keep : Bytes → Bool) (keepCase : Nat → Bytes → Bool) (msg : SubmissionMessage) : Json :=
  .object ((msg.fields keepCase).filter fun f => required f.1 || keep f.1)

/-- The message with the defaults for the keys that are not selected. -/
def restrict (keep : Bytes → Bool) (keepCase : Nat → Bytes → Bool) (msg : SubmissionMessage) :
    SubmissionMessage :=
  { taskType := if keep "task_type" then msg.taskType else "SUBMISSION"
    runId := if keep "run_id" then msg.runId else 0
    submissionId := if keep "submission_id" then msg.submissionId else 0
    problemId := msg.problemId
    language := if keep "language" then msg.language else "cpp"
    submitMode := if keep "submit_mode" then msg.submitMode else "FULL_PROGRAM"
    code := msg.code
    timeLimitMs := if keep "time_limit" then msg.timeLimitMs else 1000
    memoryLimitKb := if keep "memory_limit" then msg.memoryLimitKb else 262144
    testcases := restrictCases keepCase 0 msg.testcases }

/-- The numbers are in the range of `int`, and so is the number of test cases. -/
structure Ranged (msg : SubmissionMessage) : Prop where
  timeLimit : Bytes.intMin ≤ msg.timeLimitMs ∧ msg.timeLimitMs ≤ Bytes.intMax
  memoryLimit : Bytes.intMin ≤ msg.memoryLimitKb ∧ msg.memoryLimitKb ≤ Bytes.intMax
  caseIndex : ∀ t ∈ msg.testcases, Bytes.intMin ≤ t.caseIndex ∧ t.caseIndex ≤ Bytes.intMax
  count : msg.testcases.length < 2 ^ 31

end SubmissionMessage

namespace JudgeEngine

open Json

/-! ## One key -/

section

variable {j : Json} {key : Bytes} {keep : Bool}

theorem getUInt64_toNat (id : UInt64) : (Json.integer id.toNat).getUInt64 = .ok id := by
  have hid : UInt64.ofInt id.toNat = id := by
    apply UInt64.toNat_inj.mp
    simp [UInt64.ofInt, Int.toNat_emod]
  exact congrArg Except.ok hid

theorem optionalId_of_lookup {id : UInt64}
    (h : j.lookup key = if keep then some (.integer id.toNat) else none) :
    optionalId j key = .ok (if keep then id else 0) := by
  cases keep with
  | false => exact optionalId_eq_ok.mpr (.inr ⟨by simp [h], rfl⟩)
  | true =>
    exact optionalId_eq_ok.mpr (.inl ⟨_, h, rfl, getUInt64_toNat id⟩)

theorem value_of_lookup {α : Type} {get : Json → Except JsonException α} {a default : α} {v : Json}
    (hobject : j.isObject = true) (h : j.lookup key = if keep then some v else none)
    (hget : get v = .ok a) : j.value key get default = .ok (if keep then a else default) := by
  refine value_eq_ok.mpr ⟨hobject, ?_⟩
  cases keep with
  | false => exact .inr ⟨h, rfl⟩
  | true => exact .inl ⟨v, h, hget⟩

end

/-! ## Test cases -/

theorem readsCase_toJson {t : TestCase} {size : Nat} (keep : Bytes → Bool)
    (hindex : Bytes.intMin ≤ t.caseIndex ∧ t.caseIndex ≤ Bytes.intMax) (hsize : size < 2 ^ 31) :
    ReadsCase size (t.toJson keep) (t.restrict keep size) := by
  have hnodup : (t.fields.map (·.1)).Nodup := by
    have hkeys : t.fields.map (·.1) = ["testcase_id", "case_index", "input", "expected_output"] :=
      rfl
    rw [hkeys]
    decide
  have hlookup {key : Bytes} {v : Json} (hmem : (key, v) ∈ t.fields) :
      (t.toJson keep).lookup key = if TestCase.required key || keep key then some v else none :=
    @lookup_filter _ (fun key => TestCase.required key || keep key) _ _ hnodup hmem
  have hposition : castInt size = size := by
    apply castInt_of_bounds
    unfold Bytes.intMin Bytes.intMax
    omega
  exact {
    testcaseId := optionalId_of_lookup (hlookup (.head _))
    caseIndex := by
      rw [hposition]
      exact value_of_lookup rfl (hlookup (.tail _ (.head _)))
        (congrArg Except.ok (castInt_of_bounds hindex))
    input := hlookup (.tail _ (.tail _ (.head _)))
    expectedOutput := hlookup (.tail _ (.tail _ (.tail _ (.head _)))) }

theorem readTestcases_toJson (keep : Nat → Bytes → Bool) {size : Nat} {ts : List TestCase}
    (hindex : ∀ t ∈ ts, Bytes.intMin ≤ t.caseIndex ∧ t.caseIndex ≤ Bytes.intMax)
    (hcount : size + ts.length < 2 ^ 31) :
    readTestcases size (SubmissionMessage.casesToJson keep size ts) =
      .ok (SubmissionMessage.restrictCases keep size ts) := by
  induction ts generalizing size with
  | nil => rfl
  | cons t ts ih =>
    obtain ⟨ht, hts⟩ := List.forall_mem_cons.mp hindex
    rw [List.length_cons] at hcount
    exact readTestcases_cons.mpr
      ⟨_, _, rfl, readsCase_toJson (keep size) ht (by omega), ih hts (by omega)⟩

/-! ## Messages -/

theorem reads_toJson (keep : Bytes → Bool) (keepCase : Nat → Bytes → Bool)
    {msg : SubmissionMessage} (h : msg.Ranged) :
    Reads (msg.toJson keep keepCase) (msg.restrict keep keepCase) := by
  have hnodup : ((msg.fields keepCase).map (·.1)).Nodup := by
    have hkeys : (msg.fields keepCase).map (·.1) =
        ["task_type", "run_id", "submission_id", "problem_id", "language", "submit_mode", "code",
          "time_limit", "memory_limit", "testcases"] := rfl
    rw [hkeys]
    decide
  have hlookup {key : Bytes} {v : Json} (hmem : (key, v) ∈ msg.fields keepCase) :
      (msg.toJson keep keepCase).lookup key =
        if SubmissionMessage.required key || keep key then some v else none :=
    @lookup_filter _ (fun key => SubmissionMessage.required key || keep key) _ _ hnodup hmem
  have hint {n : Int} (hrange : Bytes.intMin ≤ n ∧ n ≤ Bytes.intMax) : getInt (.integer n) = .ok n :=
    congrArg Except.ok (castInt_of_bounds hrange)
  exact {
    taskType := value_of_lookup rfl (hlookup (List.mem_of_getElem? (i := 0) rfl)) rfl
    runId := optionalId_of_lookup (hlookup (List.mem_of_getElem? (i := 1) rfl))
    submissionId := optionalId_of_lookup (hlookup (List.mem_of_getElem? (i := 2) rfl))
    problemId := ⟨_, hlookup (List.mem_of_getElem? (i := 3) rfl), getUInt64_toNat msg.problemId⟩
    language := value_of_lookup rfl (hlookup (List.mem_of_getElem? (i := 4) rfl)) rfl
    submitMode := value_of_lookup rfl (hlookup (List.mem_of_getElem? (i := 5) rfl)) rfl
    code := hlookup (List.mem_of_getElem? (i := 6) rfl)
    timeLimitMs :=
      value_of_lookup rfl (hlookup (List.mem_of_getElem? (i := 7) rfl)) (hint h.timeLimit)
    memoryLimitKb :=
      value_of_lookup rfl (hlookup (List.mem_of_getElem? (i := 8) rfl)) (hint h.memoryLimit)
    testcases := ⟨_, hlookup (List.mem_of_getElem? (i := 9) rfl),
      readTestcases_toJson keepCase h.caseIndex (by simpa using h.count)⟩ }

/-- Every message can be published and is read as it was, whichever of the optional keys the
    publisher leaves out: these fall back to their defaults, a test case without index to its
    position, and nothing else changes. -/
theorem parseMessage_toJson {parse : Bytes → Option Json} {text : Bytes} {keep : Bytes → Bool}
    {keepCase : Nat → Bytes → Bool} {msg : SubmissionMessage} (hranged : msg.Ranged)
    (hparse : parse text = some (msg.toJson keep keepCase)) :
    parseMessage parse text = some (msg.restrict keep keepCase) :=
  parseMessage_of_some hparse (readMessage_eq_ok.mpr (reads_toJson keep keepCase hranged))

/-- A submission with a shorter time limit, as the test publisher has it. -/
def published (indices : List Int) : SubmissionMessage :=
  { submissionId := 4
    problemId := 1
    language := "cpp"
    code := "int main() \x7b for (;;); \x7d"
    timeLimitMs := 500
    testcases := [{ caseIndex := indices.getD 0 0, input := "1 2", expectedOutput := "3" },
      { caseIndex := indices.getD 1 0, input := "5 7", expectedOutput := "12" },
      { caseIndex := indices.getD 2 0, input := "-3 8", expectedOutput := "5" }] }

/-- The keys that the test publisher writes. -/
def publishedKeys (key : Bytes) : Bool :=
  key = "submission_id" || key = "language" || key = "time_limit" || key = "memory_limit"

def publishedParse (_ : Bytes) : Option Json :=
  some ((published []).toJson publishedKeys fun _ _ => false)

theorem parseMessage_toJson_published :
    parseMessage publishedParse [] = some (published [1, 2, 3]) := by
  have hranged : (published []).Ranged := by
    constructor <;> decide
  have hparse : publishedParse [] = some ((published []).toJson publishedKeys fun _ _ => false) :=
    rfl
  rw [parseMessage_toJson hranged hparse]
  decide +kernel

end JudgeEngine
