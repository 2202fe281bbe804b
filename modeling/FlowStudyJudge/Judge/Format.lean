-- SUMMARY: Which JSON values `parse_message` accepts, beside the message format of the documentation.
import FlowStudyJudge.Judge.Message
import Mathlib.Data.List.Forall2

/-! # The message format

`parse_message` refuses a value where one of the library's accessors throws. This
module says for which values none of them does, and where these values and the
documented format differ. -/

theorem bind_eq_ok {ε α β : Type} {x : Except ε α} {f : α → Except ε β} {b : β} :
    (x >>= f) = .ok b ↔ ∃ a, x = .ok a ∧ f a = .ok b := by
  cases x <;> simp [bind, Except.bind]

namespace Json

/-! ## Kinds of values -/

def isBoolean : Json → Bool
  | .boolean _ => true
  | _ => false

def isNumberInteger : Json → Bool
  | .integer _ => true
  | _ => false

/-- `is_number`: an integer or a float. -/
def isNumber : Json → Bool
  | .integer _ | .float _ => true
  | _ => false

def isString : Json → Bool
  | .string _ => true
  | _ => false

def isArray : Json → Bool
  | .array _ => true
  | _ => false

def isObject : Json → Bool
  | .object _ => true
  | _ => false

/-- The key is there, with a value of this kind. -/
def Requires (j : Json) (key : Bytes) (kind : Json → Bool) : Prop :=
  ∃ v, j.lookup key = some v ∧ kind v = true

/-- If the key is there, then with a value of this kind. -/
def Allows (j : Json) (key : Bytes) (kind : Json → Bool) : Prop :=
  ∀ v, j.lookup key = some v → kind v = true

theorem isObject_of_lookup {j : Json} {key : Bytes} {v : Json} (h : j.lookup key = some v) :
    j.isObject = true := by
  cases j with
  | object fields => rfl
  | _ => cases h

theorem Requires.isObject {j : Json} {key : Bytes} {kind : Json → Bool}
    (h : j.Requires key kind) : j.isObject = true := by
  obtain ⟨v, hv, -⟩ := h
  exact isObject_of_lookup hv

theorem Allows.mono {j : Json} {key : Bytes} {kind kind' : Json → Bool}
    (h : j.Allows key kind) (himp : ∀ v, kind v = true → kind' v = true) : j.Allows key kind' :=
  fun v hv => himp v (h v hv)

/-! ## What the accessors accept -/

/-- The values that a conversion does not throw on. -/
def Converts {α : Type} (get : Json → Except JsonException α) (kind : Json → Bool) : Prop :=
  ∀ v, (∃ a, get v = .ok a) ↔ kind v = true

/-- An integer, a float or a boolean. -/
def isArithmetic (v : Json) : Bool :=
  v.isNumber || v.isBoolean

/-- What an optional id may be. -/
def isNullOrNumber (v : Json) : Bool :=
  v.isNull || v.isNumber

def isNullOrInteger (v : Json) : Bool :=
  v.isNull || v.isNumberInteger

theorem getUInt64_converts : Converts getUInt64 isNumber := by
  intro v
  cases v <;> simp [getUInt64, isNumber]

theorem getInt_converts : Converts getInt isArithmetic := by
  intro v
  cases v <;> simp [getInt, isArithmetic, isNumber, isBoolean]

/-! Whatever it is cast from, an `int` is in its range. -/

theorem castInt_bounds (n : Int) : Bytes.intMin ≤ castInt n ∧ castInt n ≤ Bytes.intMax := by
  unfold castInt Bytes.intMin Bytes.intMax
  rw [Int.bmod_def]
  split <;> omega

theorem castInt_of_bounds {n : Int} (h : Bytes.intMin ≤ n ∧ n ≤ Bytes.intMax) :
    castInt n = n := by
  unfold Bytes.intMin Bytes.intMax at h
  unfold castInt
  rw [Int.bmod_def]
  split <;> omega

theorem getInt_bounds {v : Json} {n : Int} (h : v.getInt = .ok n) :
    Bytes.intMin ≤ n ∧ n ≤ Bytes.intMax := by
  cases v with
  | integer m =>
    cases h
    exact castInt_bounds m
  | float x =>
    cases h
    exact x.toInt_bounds
  | boolean b =>
    cases h
    cases b <;> decide
  | _ => cases h

theorem getString_converts : Converts getString isString := by
  intro v
  cases v <;> simp [getString, isString]

section

variable {α : Type} {get : Json → Except JsonException α} {kind : Json → Bool}

theorem atKey_eq_ok {j v : Json} {key : Bytes} : j.atKey key = .ok v ↔ j.lookup key = some v := by
  cases j with
  | object fields =>
    simp only [atKey]
    cases (object fields).lookup key <;> simp
  | _ => simp [atKey, lookup]

theorem value_eq_ok {j : Json} {key : Bytes} {default a : α} :
    j.value key get default = .ok a ↔ j.isObject = true ∧
      ((∃ v, j.lookup key = some v ∧ get v = .ok a) ∨ j.lookup key = none ∧ default = a) := by
  cases j with
  | object fields =>
    simp only [value, isObject, true_and]
    cases (object fields).lookup key <;> simp
  | _ => simp [value, isObject]

theorem value_ok (hget : Converts get kind) (j : Json) (key : Bytes) (default : α) :
    (∃ a, j.value key get default = .ok a) ↔ j.isObject = true ∧ j.Allows key kind := by
  simp only [value_eq_ok]
  constructor
  · rintro ⟨a, hobject, hcase⟩
    refine ⟨hobject, ?_⟩
    intro v hv
    rcases hcase with ⟨v', hv', ha⟩ | ⟨hnone, -⟩
    · cases hv.symm.trans hv'
      exact (hget v).mp ⟨a, ha⟩
    · cases hv.symm.trans hnone
  · rintro ⟨hobject, hallows⟩
    cases hlookup : j.lookup key with
    | none => exact ⟨default, hobject, .inr ⟨rfl, rfl⟩⟩
    | some v =>
      obtain ⟨a, ha⟩ := (hget v).mpr (hallows v hlookup)
      exact ⟨a, hobject, .inl ⟨v, rfl, ha⟩⟩

end

/-! ## What is in an object -/

theorem lookup_of_mem {fields : List (Bytes × Json)} {key : Bytes} {v : Json}
    (hnodup : (fields.map (·.1)).Nodup) (hmem : (key, v) ∈ fields) :
    (Json.object fields).lookup key = some v := by
  have hfind : fields.find? (fun f => f.1 = key) = some (key, v) := by
    induction fields with
    | nil => cases hmem
    | cons f rest ih =>
      rw [List.map_cons, List.nodup_cons] at hnodup
      rcases List.mem_cons.mp hmem with rfl | hrest
      · simp
      · have hne : f.1 ≠ key := by
          rintro rfl
          exact hnodup.1 (List.mem_map.mpr ⟨_, hrest, rfl⟩)
        rw [List.find?_cons_of_neg (by simpa using hne)]
        exact ih hnodup.2 hrest
  simp [lookup, hfind]

/-- A key that is kept is found, one that is not kept is absent. -/
theorem lookup_filter {fields : List (Bytes × Json)} {keep : Bytes → Bool} {key : Bytes}
    {v : Json} (hnodup : (fields.map (·.1)).Nodup) (hmem : (key, v) ∈ fields) :
    (Json.object (fields.filter fun f => keep f.1)).lookup key =
      if keep key then some v else none := by
  split
  · rename_i hkeep
    refine lookup_of_mem (hnodup.sublist (List.filter_sublist.map _)) ?_
    exact List.mem_filter.mpr ⟨hmem, hkeep⟩
  · rename_i hkeep
    have hnone : (fields.filter fun f => keep f.1).find? (fun f => f.1 = key) = none := by
      rw [List.find?_eq_none]
      intro f hf heq
      have hkept := (List.mem_filter.mp hf).2
      rw [of_decide_eq_true heq] at hkept
      exact hkeep hkept
    simp [lookup, hnone]

end Json

namespace JudgeEngine

open Json

theorem optionalId_eq_ok {j : Json} {key : Bytes} {id : UInt64} :
    optionalId j key = .ok id ↔
      (∃ v, j.lookup key = some v ∧ v.isNull = false ∧ v.getUInt64 = .ok id) ∨
      (∀ v, j.lookup key = some v → v.isNull = true) ∧ id = 0 := by
  unfold optionalId
  cases j.lookup key with
  | none => simp [@eq_comm _ id]
  | some v => cases hnull : v.isNull <;> simp [hnull, @eq_comm _ id]

theorem optionalId_ok (j : Json) (key : Bytes) :
    (∃ id, optionalId j key = .ok id) ↔ j.Allows key isNullOrNumber := by
  unfold optionalId Allows
  cases j.lookup key with
  | none => simp
  | some v =>
    have hconverts := getUInt64_converts v
    cases hnull : v.isNull <;> simp [isNullOrNumber, hnull, hconverts]

/-! ## What a message reads -/

/-- What one element of `testcases` is read as. -/
structure ReadsCase (size : Nat) (tc : Json) (t : TestCase) : Prop where
  testcaseId : optionalId tc "testcase_id" = .ok t.testcaseId
  caseIndex : tc.value "case_index" getInt (castInt size + 1) = .ok t.caseIndex
  input : tc.lookup "input" = some (.string t.input)
  expectedOutput : tc.lookup "expected_output" = some (.string t.expectedOutput)

/-- What a whole value is read as. -/
structure Reads (j : Json) (msg : SubmissionMessage) : Prop where
  taskType : j.value "task_type" getString "SUBMISSION" = .ok msg.taskType
  runId : optionalId j "run_id" = .ok msg.runId
  submissionId : optionalId j "submission_id" = .ok msg.submissionId
  problemId : ∃ v, j.lookup "problem_id" = some v ∧ v.getUInt64 = .ok msg.problemId
  language : j.value "language" getString "cpp" = .ok msg.language
  submitMode : j.value "submit_mode" getString "FULL_PROGRAM" = .ok msg.submitMode
  code : j.lookup "code" = some (.string msg.code)
  timeLimitMs : j.value "time_limit" getInt 1000 = .ok msg.timeLimitMs
  memoryLimitKb : j.value "memory_limit" getInt 262144 = .ok msg.memoryLimitKb
  testcases : ∃ v, j.lookup "testcases" = some v ∧
    readTestcases 0 v.elements = .ok msg.testcases

theorem getString_eq_ok {v : Json} {s : Bytes} : v.getString = .ok s ↔ v = .string s := by
  cases v <;> simp [getString]

theorem readTestcases_cons {size : Nat} {tc : Json} {rest : List Json} {ts : List TestCase} :
    readTestcases size (tc :: rest) = .ok ts ↔ ∃ t ts', ts = t :: ts' ∧ ReadsCase size tc t ∧
      readTestcases (size + 1) rest = .ok ts' := by
  simp only [readTestcases, bind_eq_ok, atKey_eq_ok, getString_eq_ok, pure, Except.pure,
    Except.ok.injEq]
  constructor
  · rintro ⟨testcaseId, hid, caseIndex, hindex, v, hv, input, rfl, v', hv', expected, rfl,
      ts', hts', rfl⟩
    exact ⟨⟨testcaseId, caseIndex, input, expected⟩, ts', rfl, ⟨hid, hindex, hv, hv'⟩, hts'⟩
  · rintro ⟨t, ts', rfl, ht, hts'⟩
    exact ⟨t.testcaseId, ht.testcaseId, t.caseIndex, ht.caseIndex, _, ht.input, t.input, rfl,
      _, ht.expectedOutput, t.expectedOutput, rfl, ts', hts', rfl⟩

theorem readMessage_eq_ok {j : Json} {msg : SubmissionMessage} :
    readMessage j = .ok msg ↔ Reads j msg := by
  simp only [readMessage, bind_eq_ok, atKey_eq_ok, getString_eq_ok, pure, Except.pure,
    Except.ok.injEq]
  constructor
  · rintro ⟨taskType, htask, runId, hrun, submissionId, hsubmission, v, hv, problemId, hproblem,
      language, hlanguage, submitMode, hmode, v', hv', code, rfl, timeLimitMs, htime,
      memoryLimitKb, hmemory, v'', hv'', ts, hts, rfl⟩
    exact ⟨htask, hrun, hsubmission, ⟨v, hv, hproblem⟩, hlanguage, hmode, hv', htime, hmemory,
      ⟨v'', hv'', hts⟩⟩
  · intro h
    obtain ⟨v, hv, hproblem⟩ := h.problemId
    obtain ⟨v', hv', hts⟩ := h.testcases
    exact ⟨_, h.taskType, _, h.runId, _, h.submissionId, v, hv, _, hproblem, _, h.language,
      _, h.submitMode, _, h.code, _, rfl, _, h.timeLimitMs, _, h.memoryLimitKb, v', hv',
      _, hts, rfl⟩

/-- The loop makes one test case of each element, in order. -/
theorem readTestcases_getElem {size : Nat} {xs : List Json} {ts : List TestCase}
    (h : readTestcases size xs = .ok ts) :
    ts.length = xs.length ∧
      ∀ k tc t, xs[k]? = some tc → ts[k]? = some t → ReadsCase (size + k) tc t := by
  induction xs generalizing size ts with
  | nil =>
    cases h
    simp
  | cons x xs ih =>
    obtain ⟨t, ts', rfl, ht, hts'⟩ := readTestcases_cons.mp h
    obtain ⟨hlength, hcases⟩ := ih hts'
    refine ⟨congrArg (· + 1) hlength, ?_⟩
    intro k tc t' hx ht'
    cases k with
    | zero =>
      cases hx
      cases ht'
      exact ht
    | succ k =>
      have hcase := hcases k tc t' hx ht'
      have hsize : size + 1 + k = size + (k + 1) := by omega
      exact hsize ▸ hcase

/-! ## Acceptance -/

/-- The elements that the loop over `testcases` does not throw on. -/
structure ReadableCase (tc : Json) : Prop where
  testcaseId : tc.Allows "testcase_id" isNullOrNumber
  caseIndex : tc.Allows "case_index" isArithmetic
  input : tc.Requires "input" isString
  expectedOutput : tc.Requires "expected_output" isString

/-- The values that `parse_message` does not throw on. -/
structure Readable (j : Json) : Prop where
  taskType : j.Allows "task_type" isString
  runId : j.Allows "run_id" isNullOrNumber
  submissionId : j.Allows "submission_id" isNullOrNumber
  problemId : j.Requires "problem_id" isNumber
  language : j.Allows "language" isString
  submitMode : j.Allows "submit_mode" isString
  code : j.Requires "code" isString
  timeLimit : j.Allows "time_limit" isArithmetic
  memoryLimit : j.Allows "memory_limit" isArithmetic
  testcases : ∃ v, j.lookup "testcases" = some v ∧ ∀ tc ∈ v.elements, ReadableCase tc

theorem requires_isString {j : Json} {key : Bytes} :
    j.Requires key isString ↔ ∃ s, j.lookup key = some (.string s) := by
  constructor
  · rintro ⟨v, hv, hstring⟩
    obtain ⟨s, hs⟩ := (getString_converts v).mpr hstring
    exact ⟨s, getString_eq_ok.mp hs ▸ hv⟩
  · rintro ⟨s, hs⟩
    exact ⟨.string s, hs, rfl⟩

theorem readsCase_iff (size : Nat) (tc : Json) :
    (∃ t, ReadsCase size tc t) ↔ ReadableCase tc := by
  constructor
  · rintro ⟨t, ht⟩
    have hindex := (value_ok getInt_converts tc "case_index" _).mp ⟨_, ht.caseIndex⟩
    exact ⟨(optionalId_ok tc _).mp ⟨_, ht.testcaseId⟩, hindex.2,
      requires_isString.mpr ⟨_, ht.input⟩, requires_isString.mpr ⟨_, ht.expectedOutput⟩⟩
  · intro h
    have hobject : tc.isObject = true := h.input.isObject
    obtain ⟨testcaseId, hid⟩ := (optionalId_ok tc _).mpr h.testcaseId
    obtain ⟨caseIndex, hindex⟩ :=
      (value_ok getInt_converts tc "case_index" (castInt size + 1)).mpr ⟨hobject, h.caseIndex⟩
    obtain ⟨input, hinput⟩ := requires_isString.mp h.input
    obtain ⟨expected, hexpected⟩ := requires_isString.mp h.expectedOutput
    exact ⟨⟨testcaseId, caseIndex, input, expected⟩, hid, hindex, hinput, hexpected⟩

theorem readTestcases_iff (size : Nat) (xs : List Json) :
    (∃ ts, readTestcases size xs = .ok ts) ↔ ∀ tc ∈ xs, ReadableCase tc := by
  induction xs generalizing size with
  | nil => simp [readTestcases]
  | cons x xs ih =>
    rw [List.forall_mem_cons, ← readsCase_iff size x, ← ih (size + 1)]
    constructor
    · rintro ⟨ts, hts⟩
      obtain ⟨t, ts', -, ht, hts'⟩ := readTestcases_cons.mp hts
      exact ⟨⟨t, ht⟩, ts', hts'⟩
    · rintro ⟨⟨t, ht⟩, ts', hts'⟩
      exact ⟨t :: ts', readTestcases_cons.mpr ⟨t, ts', rfl, ht, hts'⟩⟩

/-- `parse_message` accepts a value when all its fields are of a kind that the
    accessors convert. -/
theorem readMessage_iff (j : Json) : (∃ msg, readMessage j = .ok msg) ↔ Readable j := by
  simp only [readMessage_eq_ok]
  constructor
  · rintro ⟨msg, h⟩
    obtain ⟨v, hv, hproblem⟩ := h.problemId
    obtain ⟨v', hv', hts⟩ := h.testcases
    exact
      { taskType := ((value_ok getString_converts j _ _).mp ⟨_, h.taskType⟩).2
        runId := (optionalId_ok j _).mp ⟨_, h.runId⟩
        submissionId := (optionalId_ok j _).mp ⟨_, h.submissionId⟩
        problemId := ⟨v, hv, (getUInt64_converts v).mp ⟨_, hproblem⟩⟩
        language := ((value_ok getString_converts j _ _).mp ⟨_, h.language⟩).2
        submitMode := ((value_ok getString_converts j _ _).mp ⟨_, h.submitMode⟩).2
        code := requires_isString.mpr ⟨_, h.code⟩
        timeLimit := ((value_ok getInt_converts j _ _).mp ⟨_, h.timeLimitMs⟩).2
        memoryLimit := ((value_ok getInt_converts j _ _).mp ⟨_, h.memoryLimitKb⟩).2
        testcases := ⟨v', hv', (readTestcases_iff 0 v'.elements).mp ⟨_, hts⟩⟩ }
  · intro h
    have hobject : j.isObject = true := h.code.isObject
    obtain ⟨taskType, htask⟩ :=
      (value_ok getString_converts j "task_type" "SUBMISSION").mpr ⟨hobject, h.taskType⟩
    obtain ⟨runId, hrun⟩ := (optionalId_ok j _).mpr h.runId
    obtain ⟨submissionId, hsubmission⟩ := (optionalId_ok j _).mpr h.submissionId
    obtain ⟨v, hv, hnumber⟩ := h.problemId
    obtain ⟨problemId, hproblem⟩ := (getUInt64_converts v).mpr hnumber
    obtain ⟨language, hlanguage⟩ :=
      (value_ok getString_converts j "language" "cpp").mpr ⟨hobject, h.language⟩
    obtain ⟨submitMode, hmode⟩ :=
      (value_ok getString_converts j "submit_mode" "FULL_PROGRAM").mpr ⟨hobject, h.submitMode⟩
    obtain ⟨code, hcode⟩ := requires_isString.mp h.code
    obtain ⟨timeLimitMs, htime⟩ :=
      (value_ok getInt_converts j "time_limit" 1000).mpr ⟨hobject, h.timeLimit⟩
    obtain ⟨memoryLimitKb, hmemory⟩ :=
      (value_ok getInt_converts j "memory_limit" 262144).mpr ⟨hobject, h.memoryLimit⟩
    obtain ⟨v', hv', hcases⟩ := h.testcases
    obtain ⟨testcases, hts⟩ := (readTestcases_iff 0 v'.elements).mpr hcases
    exact ⟨⟨taskType, runId, submissionId, problemId, language, submitMode, code, timeLimitMs,
      memoryLimitKb, testcases⟩, htask, hrun, hsubmission, ⟨v, hv, hproblem⟩, hlanguage, hmode,
      hcode, htime, hmemory, v', hv', hts⟩

theorem parseMessage_eq_some {parse : Bytes → Option Json} {jsonStr : Bytes}
    {msg : SubmissionMessage} : parseMessage parse jsonStr = some msg ↔
      ∃ j, parse jsonStr = some j ∧ Reads j msg := by
  unfold parseMessage
  cases parse jsonStr with
  | none => simp
  | some j =>
    simp only [Option.some.injEq, exists_eq_left', ← readMessage_eq_ok]
    cases readMessage j <;> simp

theorem parseMessage_isSome {parse : Bytes → Option Json} {jsonStr : Bytes} :
    (∃ msg, parseMessage parse jsonStr = some msg) ↔
      ∃ j, parse jsonStr = some j ∧ Readable j := by
  simp only [parseMessage_eq_some, ← readMessage_iff, readMessage_eq_ok]
  constructor
  · rintro ⟨msg, j, hj, hreads⟩
    exact ⟨j, hj, msg, hreads⟩
  · rintro ⟨j, hj, msg, hreads⟩
    exact ⟨msg, j, hj, hreads⟩

/-! ## The documented format -/

/-- `task_type` is there and is `RUN`. -/
def asksRun (j : Json) : Bool :=
  match j.lookup "task_type" with
  | some (.string s) => s == "RUN"
  | _ => false

/-- The id that the task needs. -/
def neededId (j : Json) : Bytes :=
  if asksRun j then "run_id" else "submission_id"

/-- The id of the other kind of task. -/
def otherId (j : Json) : Bytes :=
  if asksRun j then "submission_id" else "run_id"

/-- An element of `testcases` as the format has it. -/
structure CaseFormat (tc : Json) : Prop where
  object : tc.isObject = true
  input : tc.Requires "input" isString
  expectedOutput : tc.Requires "expected_output" isString
  caseIndex : tc.Allows "case_index" isNumberInteger
  testcaseId : tc.Allows "testcase_id" isNullOrInteger

/-- The message format. -/
structure Format (j : Json) : Prop where
  object : j.isObject = true
  problemId : j.Requires "problem_id" isNumber
  code : j.Requires "code" isString
  testcases : ∃ xs, j.lookup "testcases" = some (.array xs) ∧ ∀ tc ∈ xs, CaseFormat tc
  taskType : j.Allows "task_type" isString
  language : j.Allows "language" isString
  submitMode : j.Allows "submit_mode" isString
  timeLimit : j.Allows "time_limit" isNumberInteger
  memoryLimit : j.Allows "memory_limit" isNumberInteger
  id : j.Requires (neededId j) isNumberInteger

/-- The test case that an element stands for. -/
def IsCase (tc : Json) (t : TestCase) : Prop :=
  tc.lookup "input" = some (.string t.input) ∧
    tc.lookup "expected_output" = some (.string t.expectedOutput)

/-- `parse_message` answers on the texts of the format and on no other, and then with
    one test case for each element of the array, in order. -/
def Exact (parse : Bytes → Option Json) (jsonStr : Bytes) : Prop :=
  ((∃ msg, parseMessage parse jsonStr = some msg) ↔ ∃ j, parse jsonStr = some j ∧ Format j) ∧
  ∀ msg, parseMessage parse jsonStr = some msg →
    ∃ j xs, parse jsonStr = some j ∧ j.lookup "testcases" = some (.array xs) ∧
      List.Forall₂ IsCase xs msg.testcases

/-! ### Where the two differ -/

/-- What `parse_message` puts up with, against the format. -/
inductive Lenient (j : Json) : Prop
  /-- `testcases` is `null`, an object or a scalar. -/
  | testcases {v : Json} (h : j.lookup "testcases" = some v) (hkind : v.isArray = false)
  | timeLimit (h : ¬ j.Allows "time_limit" isNumberInteger)
  | memoryLimit (h : ¬ j.Allows "memory_limit" isNumberInteger)
  /-- The id that the task needs is missing, `null` or a float. -/
  | id (h : ¬ j.Requires (neededId j) isNumberInteger)
  | caseIndex {xs : List Json} {tc : Json} (h : j.lookup "testcases" = some (.array xs))
      (hmem : tc ∈ xs) (hindex : ¬ tc.Allows "case_index" isNumberInteger)
  | testcaseId {xs : List Json} {tc : Json} (h : j.lookup "testcases" = some (.array xs))
      (hmem : tc ∈ xs) (hid : ¬ tc.Allows "testcase_id" isNullOrInteger)

theorem isArithmetic_of_isNumberInteger {v : Json} (h : v.isNumberInteger = true) :
    v.isArithmetic = true := by
  cases v with
  | integer n => rfl
  | _ => cases h

theorem isNullOrNumber_of_integer {v : Json} (h : v.isNullOrInteger = true) :
    v.isNullOrNumber = true := by
  cases v with
  | null => rfl
  | integer n => rfl
  | _ => cases h

theorem isArray_eq_true {v : Json} (h : v.isArray = true) : ∃ xs, v = .array xs := by
  cases v with
  | array xs => exact ⟨xs, rfl⟩
  | _ => cases h

theorem CaseFormat.readable {tc : Json} (h : CaseFormat tc) : ReadableCase tc where
  testcaseId := h.testcaseId.mono fun _ => isNullOrNumber_of_integer
  caseIndex := h.caseIndex.mono fun _ => isArithmetic_of_isNumberInteger
  input := h.input
  expectedOutput := h.expectedOutput

/-- A value of the format is refused for the other id only. -/
theorem Format.readable {j : Json} (h : Format j) (hother : j.Allows (otherId j) isNullOrNumber) :
    Readable j := by
  have hneeded : j.Allows (neededId j) isNullOrNumber := by
    obtain ⟨v, hv, hinteger⟩ := h.id
    intro v' hv'
    cases hv.symm.trans hv'
    exact isNullOrNumber_of_integer (by simp [isNullOrInteger, hinteger])
  have hids : j.Allows "run_id" isNullOrNumber ∧ j.Allows "submission_id" isNullOrNumber := by
    unfold neededId at hneeded
    unfold otherId at hother
    cases hrun : asksRun j with
    | true =>
      simp only [hrun, if_true] at hneeded hother
      exact ⟨hneeded, hother⟩
    | false =>
      simp only [hrun, Bool.false_eq_true, if_false] at hneeded hother
      exact ⟨hother, hneeded⟩
  obtain ⟨xs, hxs, hcases⟩ := h.testcases
  exact
    { taskType := h.taskType
      runId := hids.1
      submissionId := hids.2
      problemId := h.problemId
      language := h.language
      submitMode := h.submitMode
      code := h.code
      timeLimit := h.timeLimit.mono fun _ => isArithmetic_of_isNumberInteger
      memoryLimit := h.memoryLimit.mono fun _ => isArithmetic_of_isNumberInteger
      testcases := ⟨.array xs, hxs, fun tc htc => (hcases tc htc).readable⟩ }

theorem Format.not_lenient {j : Json} (h : Format j) : ¬ Lenient j := by
  obtain ⟨xs, hxs, hcases⟩ := h.testcases
  intro hlenient
  cases hlenient with
  | testcases hv hkind =>
    cases hxs.symm.trans hv
    cases hkind
  | timeLimit hlimit => exact hlimit h.timeLimit
  | memoryLimit hlimit => exact hlimit h.memoryLimit
  | id hid => exact hid h.id
  | caseIndex hxs' hmem hindex =>
    cases hxs.symm.trans hxs'
    exact hindex (hcases _ hmem).caseIndex
  | testcaseId hxs' hmem hid =>
    cases hxs.symm.trans hxs'
    exact hid (hcases _ hmem).testcaseId

/-- What is read without leniency is of the format. -/
theorem Readable.format {j : Json} (h : Readable j) (hlenient : ¬ Lenient j) : Format j := by
  obtain ⟨v, hv, hcases⟩ := h.testcases
  have harray : ∃ xs, v = .array xs := by
    cases hkind : v.isArray with
    | true => exact isArray_eq_true hkind
    | false => exact absurd (.testcases hv hkind) hlenient
  obtain ⟨xs, rfl⟩ := harray
  have hformat : ∀ tc ∈ xs, CaseFormat tc := by
    intro tc htc
    have htcReadable : ReadableCase tc := hcases tc htc
    exact
      { object := htcReadable.input.isObject
        input := htcReadable.input
        expectedOutput := htcReadable.expectedOutput
        caseIndex := not_not.mp fun hindex => hlenient (.caseIndex hv htc hindex)
        testcaseId := not_not.mp fun hid => hlenient (.testcaseId hv htc hid) }
  exact
    { object := h.code.isObject
      problemId := h.problemId
      code := h.code
      testcases := ⟨xs, hv, hformat⟩
      taskType := h.taskType
      language := h.language
      submitMode := h.submitMode
      timeLimit := not_not.mp fun hlimit => hlenient (.timeLimit hlimit)
      memoryLimit := not_not.mp fun hlimit => hlenient (.memoryLimit hlimit)
      id := not_not.mp fun hid => hlenient (.id hid) }

theorem Readable.otherId {j : Json} (h : Readable j) : j.Allows (otherId j) isNullOrNumber := by
  unfold JudgeEngine.otherId
  cases asksRun j with
  | true => exact h.submissionId
  | false => exact h.runId

/-- The loop over an array makes a test case of each element. -/
theorem Reads.forall₂ {j : Json} {msg : SubmissionMessage} (h : Reads j msg) {xs : List Json}
    (hxs : j.lookup "testcases" = some (.array xs)) : List.Forall₂ IsCase xs msg.testcases := by
  obtain ⟨v, hv, hts⟩ := h.testcases
  cases hxs.symm.trans hv
  obtain ⟨hlength, hcases⟩ := readTestcases_getElem hts
  refine List.forall₂_iff_get.mpr ⟨hlength.symm, ?_⟩
  intro k hk hk'
  have hread := hcases k _ _ (List.getElem?_eq_getElem hk) (List.getElem?_eq_getElem hk')
  exact ⟨hread.input, hread.expectedOutput⟩

/-- `parse_message` is exact on a text, except where the value is read in spite of a
    lenient place, or refused although only the id of the other task is wrong. -/
theorem parseMessage_exact_iff (parse : Bytes → Option Json) (jsonStr : Bytes) :
    Exact parse jsonStr ↔ ∀ j, parse jsonStr = some j →
      (Readable j → ¬ Lenient j) ∧ (Format j → j.Allows (otherId j) isNullOrNumber) := by
  unfold Exact
  rw [parseMessage_isSome]
  constructor
  · rintro ⟨haccepts, -⟩ j hj
    have hsame : Readable j ↔ Format j := by simpa [hj] using haccepts
    exact ⟨fun h => (hsame.mp h).not_lenient, fun h => (hsame.mpr h).otherId⟩
  · intro h
    have hsame : ∀ j, parse jsonStr = some j → (Readable j ↔ Format j) := by
      intro j hj
      obtain ⟨hlenient, hother⟩ := h j hj
      exact ⟨fun hread => hread.format (hlenient hread), fun hformat =>
        hformat.readable (hother hformat)⟩
    refine ⟨exists_congr fun j => and_congr_right (hsame j), ?_⟩
    intro msg hmsg
    obtain ⟨j, hj, hreads⟩ := parseMessage_eq_some.mp hmsg
    have hreadable : Readable j := (readMessage_iff j).mp ⟨msg, readMessage_eq_ok.mpr hreads⟩
    obtain ⟨xs, hxs, -⟩ := ((hsame j hj).mp hreadable).testcases
    exact ⟨j, xs, hj, hxs, hreads.forall₂ hxs⟩

/-- The text of a submission without test cases. -/
def nullBody : Bytes :=
  "\x7b\"submission_id\":7,\"problem_id\":3,\"code\":\"print(1)\",\"testcases\":null\x7d"

/-- The value of that text. -/
def nullJson : Json :=
  .object
    [("submission_id", .integer 7), ("problem_id", .integer 3), ("code", .string "print(1)"),
      ("testcases", .null)]

def nullParse (jsonStr : Bytes) : Option Json :=
  if jsonStr = nullBody then some nullJson else none

theorem not_always_exact :
    ¬ ∀ (parse : Bytes → Option Json) (jsonStr : Bytes), Exact parse jsonStr := by
  intro h
  have hparse : nullParse nullBody = some nullJson := if_pos rfl
  have hread : ∃ msg, readMessage nullJson = .ok msg :=
    ⟨{ submissionId := 7, problemId := 3, language := "cpp", code := "print(1)", testcases := [] },
      by decide +kernel⟩
  have haccepted : ∃ msg, parseMessage nullParse nullBody = some msg :=
    parseMessage_isSome.mpr ⟨nullJson, hparse, (readMessage_iff nullJson).mp hread⟩
  obtain ⟨j, hj, hformat⟩ := (h nullParse nullBody).1.mp haccepted
  cases hparse.symm.trans hj
  obtain ⟨xs, hxs, -⟩ := hformat.testcases
  have hnull : nullJson.lookup "testcases" = some .null := rfl
  cases hnull.symm.trans hxs

end JudgeEngine
