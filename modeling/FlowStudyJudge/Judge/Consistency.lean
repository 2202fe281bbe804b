-- SUMMARY: The result of `judge` as a function of the outcomes of compilation and runs: verdict, case results, index and maxima agree.
import FlowStudyJudge.Judge.Verdicts
import Mathlib.Data.List.Forall2

/-! # Consistency of results

`judge` puts its result together by hand on each of its return paths. This file says
what the result has to be, in terms of what `compile` and the calls of `run` returned,
and proves that every path delivers it. -/

namespace Json

/-- A small number of test cases survives the cast to `int`. -/
theorem castInt_of_lt {n : Nat} (h : n < 2 ^ 31) : castInt n = n := by
  unfold castInt
  rw [Int.bmod_eq_of_le] <;> omega

end Json

namespace JudgeEngine

/-! ## What is asked of a result -/

/-- The verdict that an outcome calls for: a timeout counts before memory, memory
    before the exit, and the exit before the output. -/
inductive Decides (memoryLimitKb : Int) (expectedOutput : Bytes) (r : SandboxResult) :
    JudgeStatus → Prop where
  | timeout (htime : r.timedOut = true ∨ r.status = "TO") :
      Decides memoryLimitKb expectedOutput r .timeLimitExceeded
  | memory (htime : ¬ (r.timedOut = true ∨ r.status = "TO"))
      (hmemory : memoryLimitKb < r.memoryUsedKb) :
      Decides memoryLimitKb expectedOutput r .memoryLimitExceeded
  | exit (htime : ¬ (r.timedOut = true ∨ r.status = "TO"))
      (hmemory : r.memoryUsedKb ≤ memoryLimitKb) (hexit : r.exitCode ≠ 0 ∨ r.signalNum ≠ 0) :
      Decides memoryLimitKb expectedOutput r .runtimeError
  | output (htime : ¬ (r.timedOut = true ∨ r.status = "TO"))
      (hmemory : r.memoryUsedKb ≤ memoryLimitKb) (hexit : r.exitCode = 0)
      (hsignal : r.signalNum = 0) (houtput : compareOutput expectedOutput r.stdoutOutput = false) :
      Decides memoryLimitKb expectedOutput r .wrongAnswer
  | clean (hpasses : Passes memoryLimitKb expectedOutput r) :
      Decides memoryLimitKb expectedOutput r .accepted

/-- `case_` reports the outcome `r` of the test case `tc`. -/
structure Reports (memoryLimitKb : Int) (tc : TestCase) (r : SandboxResult)
    (case_ : JudgeCaseResultInternal) : Prop where
  testcaseId : case_.testcaseId = tc.testcaseId
  inputText : case_.inputText = tc.input
  expectedOutput : case_.expectedOutput = tc.expectedOutput
  actualOutput : case_.actualOutput = r.stdoutOutput
  timeUsedMs : case_.timeUsedMs = r.timeUsedMs
  memoryUsedKb : case_.memoryUsedKb = r.memoryUsedKb
  status : Decides memoryLimitKb tc.expectedOutput r case_.status

/-- The verdict on a list of case results: the last case that was recorded decides it,
    unless every test case was recorded and accepted. -/
inductive Decided (testcases : List TestCase) (caseResults : List JudgeCaseResultInternal) :
    JudgeStatus → Bytes → Int → Prop where
  | accepted (hall : caseResults.length = testcases.length)
      (haccepted : ∀ case_ ∈ caseResults, case_.status = .accepted) :
      Decided testcases caseResults .accepted [] (-1)
  | stopped {before : List JudgeCaseResultInternal} {last : JudgeCaseResultInternal}
      (hcases : caseResults = before ++ [last])
      (haccepted : ∀ case_ ∈ before, case_.status = .accepted)
      (hlast : last.status ≠ .accepted) :
      Decided testcases caseResults last.status last.errorMessage before.length

/-- The result agrees with the outcomes `runs` of the first test cases. -/
structure Consistent (submission : SubmissionMessage) (runs : List SandboxResult)
    (result : JudgeResultInternal) : Prop where
  runs_le : runs.length ≤ submission.testcases.length
  cases : List.Forall₂ (fun (tc, r) case_ => Reports submission.memoryLimitKb tc r case_)
    (submission.testcases.zip runs) result.caseResults
  decided : Decided submission.testcases result.caseResults result.status result.errorMessage
    result.failedTestcaseIndex
  timeUsedMs : result.timeUsedMs = (result.caseResults.map (·.timeUsedMs)).foldl max 0
  memoryUsedKb : result.memoryUsedKb = (result.caseResults.map (·.memoryUsedKb)).foldl max 0

/-- `tr` consists of one call of `run` for each outcome, on the first test cases in
    their order. -/
inductive RanEach (sandbox : Sandbox) (submission : SubmissionMessage) :
    List TestCase → List SandboxResult → Trace Op.Res → Prop where
  | nil {testcases : List TestCase} : RanEach sandbox submission testcases [] []
  | cons {tc : TestCase} {rest : List TestCase} {r : SandboxResult} {runs : List SandboxResult}
      {tr tr' : Trace Op.Res}
      (hrun : sandbox.Ran submission.language submission.timeLimitMs submission.memoryLimitKb
        tc.input tr (.ok r))
      (hrest : RanEach sandbox submission rest runs tr') :
      RanEach sandbox submission (tc :: rest) (r :: runs) (tr ++ tr')

/-- The whole call: a box, the compilation, the runs of the recorded test cases and no
    others, and the box given back. -/
inductive Accounted (cfg : IsolateConfig) (submission : SubmissionMessage) :
    Trace Op.Res → JudgeResultInternal → Prop where
  | compilationError {boxId : Int} {compile : Trace Op.Res} {sandbox : Sandbox}
      {compileResult : SandboxResult} {result : JudgeResultInternal}
      (hcompile : (Sandbox.make boxId cfg).Compiled submission.language submission.code compile
        (.ok (sandbox, compileResult)))
      (hexit : compileResult.exitCode ≠ 0)
      (hstatus : result.status = .compilationError) (hcases : result.caseResults = [])
      (htime : result.timeUsedMs = 0) (hmemory : result.memoryUsedKb = 0)
      (hindex : result.failedTestcaseIndex = -1) :
      Accounted cfg submission (⟨.acquire, boxId⟩ :: (compile ++ [⟨.release boxId, ()⟩])) result
  | judged {boxId : Int} {compile loop : Trace Op.Res} {sandbox : Sandbox}
      {compileResult : SandboxResult} {runs : List SandboxResult} {result : JudgeResultInternal}
      (hcompile : (Sandbox.make boxId cfg).Compiled submission.language submission.code compile
        (.ok (sandbox, compileResult)))
      (hexit : compileResult.exitCode = 0)
      (hruns : RanEach sandbox submission submission.testcases runs loop)
      (hresult : Consistent submission runs result) :
      Accounted cfg submission
        (⟨.acquire, boxId⟩ :: (compile ++ (loop ++ [⟨.release boxId, ()⟩]))) result

/-! ## One test case -/

theorem caseVerdict_decides (memoryLimitKb : Int) (i : Nat) (expectedOutput : Bytes)
    (r : SandboxResult) :
    Decides memoryLimitKb expectedOutput r (caseVerdict memoryLimitKb i expectedOutput r).1 := by
  generalize hverdict : caseVerdict memoryLimitKb i expectedOutput r = verdict
  unfold caseVerdict at hverdict
  split at hverdict
  · rename_i htime
    subst hverdict
    exact .timeout htime
  · rename_i htime
    split at hverdict
    · rename_i hmemory
      subst hverdict
      exact .memory htime hmemory
    · rename_i hmemory
      have hle : r.memoryUsedKb ≤ memoryLimitKb := Int.not_lt.mp hmemory
      split at hverdict
      · rename_i hexit
        split at hverdict <;> subst hverdict <;> exact .exit htime hle hexit
      · rename_i hexit
        simp only [not_or, ne_eq, not_not] at hexit
        split at hverdict
        · rename_i houtput
          subst hverdict
          have htimes := not_or.mp htime
          exact .clean ⟨by simpa using htimes.1, htimes.2, hle, hexit.1, hexit.2, houtput⟩
        · rename_i houtput
          subst hverdict
          exact .output htime hle hexit.1 hexit.2 (by simpa using houtput)

theorem caseResult_reports {memoryLimitKb : Int} {i : Nat} {tc : TestCase} {r : SandboxResult}
    {verdict : JudgeStatus × Bytes}
    (hverdict : caseVerdict memoryLimitKb i tc.expectedOutput r = verdict) :
    Reports memoryLimitKb tc r (caseResult i tc r verdict) where
  testcaseId := rfl
  inputText := rfl
  expectedOutput := rfl
  actualOutput := rfl
  timeUsedMs := rfl
  memoryUsedKb := rfl
  status := hverdict ▸ caseVerdict_decides memoryLimitKb i tc.expectedOutput r

/-! ## The loop -/

theorem Progress.record_maxTimeMs (p : Progress) (r : SandboxResult)
    (case_ : JudgeCaseResultInternal) :
    (p.record r case_).maxTimeMs = max p.maxTimeMs r.timeUsedMs := by
  unfold Progress.record
  dsimp only
  split <;> omega

theorem Progress.record_maxMemoryKb (p : Progress) (r : SandboxResult)
    (case_ : JudgeCaseResultInternal) :
    (p.record r case_).maxMemoryKb = max p.maxMemoryKb r.memoryUsedKb := by
  unfold Progress.record
  dsimp only
  split <;> omega

/-- What the loop adds, from test case number `i` and the progress `p` on, to the cases
    recorded before it. -/
structure Added (memoryLimitKb : Int) (i : Nat) (p : Progress) (testcases : List TestCase)
    (runs : List SandboxResult) (cases : List JudgeCaseResultInternal)
    (result : JudgeResultInternal) : Prop where
  runs_le : runs.length ≤ testcases.length
  caseResults : result.caseResults = p.caseResults ++ cases
  reports : List.Forall₂ (fun (tc, r) case_ => Reports memoryLimitKb tc r case_)
    (testcases.zip runs) cases
  timeUsedMs : result.timeUsedMs = (cases.map (·.timeUsedMs)).foldl max p.maxTimeMs
  memoryUsedKb : result.memoryUsedKb = (cases.map (·.memoryUsedKb)).foldl max p.maxMemoryKb
  decided : ∃ index, Decided testcases cases result.status result.errorMessage index ∧
    result.failedTestcaseIndex = if index = -1 then -1 else Json.castInt (i + index)

theorem Decided.index_ge {testcases : List TestCase} {cases : List JudgeCaseResultInternal}
    {status : JudgeStatus} {errorMessage : Bytes} {index : Int}
    (h : Decided testcases cases status errorMessage index) : -1 ≤ index := by
  cases h with
  | accepted => exact Int.le_refl _
  | stopped => omega

/-- An accepted case in front shifts the deciding one. -/
theorem Decided.cons {testcases : List TestCase} {cases : List JudgeCaseResultInternal}
    {status : JudgeStatus} {errorMessage : Bytes} {index : Int} (tc : TestCase)
    {case_ : JudgeCaseResultInternal} (haccepted : case_.status = .accepted)
    (h : Decided testcases cases status errorMessage index) :
    Decided (tc :: testcases) (case_ :: cases) status errorMessage
      (if index = -1 then -1 else index + 1) := by
  cases h with
  | accepted hall hrest =>
    refine .accepted ?_ ?_
    · simp [hall]
    · simp only [List.mem_cons, forall_eq_or_imp]
      exact ⟨haccepted, hrest⟩
  | @stopped before last hcases hbefore hlast =>
    have hindex : (before.length : Int) ≠ -1 := by omega
    rw [if_neg hindex]
    have hlength : (before.length : Int) + 1 = (case_ :: before).length := by simp
    rw [hlength]
    refine .stopped (congrArg (case_ :: ·) hcases) ?_ hlast
    simp only [List.mem_cons, forall_eq_or_imp]
    exact ⟨haccepted, hbefore⟩

/-- The loop runs the test cases in order up to the deciding one, gives the box back,
    and adds one case for each run. -/
theorem Looped.added {sandbox : Sandbox} {submission : SubmissionMessage} {i : Nat}
    {p : Progress} {testcases : List TestCase} {tr : Trace Op.Res} {result : JudgeResultInternal}
    (h : Looped sandbox submission i p testcases tr (.ok result)) :
    ∃ runs loop cases, tr = loop ++ [⟨.release sandbox.boxId, ()⟩] ∧
      RanEach sandbox submission testcases runs loop ∧
      Added submission.memoryLimitKb i p testcases runs cases result := by
  generalize hout : (Except.ok result : Except Abort JudgeResultInternal) = out at h
  induction h with
  | finished =>
    cases hout
    refine ⟨[], [], [], rfl, .nil, ?_⟩
    exact {
      runs_le := Nat.le_refl _
      caseResults := (List.append_nil _).symm
      reports := .nil
      timeUsedMs := rfl
      memoryUsedKb := rfl
      decided := ⟨-1, .accepted rfl (by simp), rfl⟩ }
  | thrown hrun => cases hout
  | @stopped i p tc rest tr r verdict hrun hverdict hstop =>
    cases hout
    refine ⟨[r], tr, [caseResult i tc r verdict], rfl, ?_, ?_⟩
    · have hnone : RanEach sandbox submission rest [] [] := .nil
      have hran := RanEach.cons hrun hnone
      rw [List.append_nil] at hran
      exact hran
    · exact {
        runs_le := by simp
        caseResults := rfl
        reports := by
          rw [List.zip_cons_cons, List.zip_nil_right]
          exact .cons (caseResult_reports hverdict) .nil
        timeUsedMs := p.record_maxTimeMs r (caseResult i tc r verdict)
        memoryUsedKb := p.record_maxMemoryKb r (caseResult i tc r verdict)
        decided := by
          have hnone : ∀ case_ ∈ ([] : List JudgeCaseResultInternal), case_.status = .accepted := by
            simp
          refine ⟨0, .stopped rfl hnone hstop, ?_⟩
          simp [Progress.result] }
  | @next i p tc rest tr tr' r verdict out hrun hverdict haccepted hrest ih =>
    obtain ⟨runs, loop, cases, rfl, hruns, hadded⟩ := ih hout
    refine ⟨r :: runs, tr ++ loop, caseResult i tc r verdict :: cases, ?_, .cons hrun hruns, ?_⟩
    · rw [List.append_assoc]
    · obtain ⟨index, hdecided, hindex⟩ := hadded.decided
      exact {
        runs_le := Nat.succ_le_succ hadded.runs_le
        caseResults := by
          rw [hadded.caseResults]
          simp [Progress.record]
        reports := by
          rw [List.zip_cons_cons]
          exact .cons (caseResult_reports hverdict) hadded.reports
        timeUsedMs := by
          rw [hadded.timeUsedMs, Progress.record_maxTimeMs]
          rfl
        memoryUsedKb := by
          rw [hadded.memoryUsedKb, Progress.record_maxMemoryKb]
          rfl
        decided := by
          refine ⟨_, hdecided.cons tc haccepted, ?_⟩
          rw [hindex]
          split
          · rfl
          · rename_i hne
            have hge : -1 ≤ index := hdecided.index_ge
            have hindex' : index + 1 ≠ -1 := by omega
            have hsum : ((i + 1 : Nat) : Int) + index = i + (index + 1) := by omega
            rw [if_neg hindex', hsum] }

/-! ## The whole call -/

theorem Added.consistent {submission : SubmissionMessage} {runs : List SandboxResult}
    {cases : List JudgeCaseResultInternal} {result : JudgeResultInternal}
    (hcount : submission.testcases.length < 2 ^ 31)
    (h : Added submission.memoryLimitKb 0 {} submission.testcases runs cases result) :
    Consistent submission runs result := by
  have hcases : result.caseResults = cases := h.caseResults
  obtain ⟨index, hdecided, hindex⟩ := h.decided
  have hlength : cases.length ≤ submission.testcases.length := by
    have hzip : (submission.testcases.zip runs).length = cases.length := h.reports.length_eq
    rw [List.length_zip] at hzip
    omega
  have hsame : result.failedTestcaseIndex = index := by
    rw [hindex]
    generalize result.status = status, result.errorMessage = message at hdecided
    cases hdecided with
    | accepted => rfl
    | @stopped before last hlast =>
      have hlt : before.length < 2 ^ 31 := by
        rw [hlast, List.length_append] at hlength
        simp only [List.length_singleton] at hlength
        omega
      have hne : (before.length : Int) ≠ -1 := by omega
      have hcast : Json.castInt before.length = before.length := Json.castInt_of_lt hlt
      rw [if_neg hne]
      simpa using hcast
  exact {
    runs_le := h.runs_le
    cases := hcases ▸ h.reports
    decided := by
      rw [hcases, hsame]
      exact hdecided
    timeUsedMs := hcases ▸ h.timeUsedMs
    memoryUsedKb := hcases ▸ h.memoryUsedKb }

/-- On every return path the fields of the result agree with the outcomes of the
    compilation and of the runs, and the test cases behind the deciding one are not run. -/
theorem judge_consistent {cfg : IsolateConfig} {submission : SubmissionMessage}
    {tr : Trace Op.Res} {result : JudgeResultInternal}
    (hcount : submission.testcases.length < 2 ^ 31)
    (h : (judge cfg submission).Runs tr (.ok result)) : Accounted cfg submission tr result := by
  generalize hout : (Except.ok result : Except Abort JudgeResultInternal) = out at h
  cases judge_runs h with
  | compileThrown hcompile => cases hout
  | compileFailed hcompile hexit =>
    cases hout
    exact .compilationError hcompile hexit rfl rfl rfl rfl rfl
  | looped hcompile hexit hloop =>
    cases hout
    obtain ⟨runs, loop, cases, rfl, hruns, hadded⟩ := hloop.added
    rw [hcompile.boxId]
    exact .judged hcompile hexit hruns (hadded.consistent hcount)

/-- A submission that passes its first test case and fails the second of three. -/
def threeCases : SubmissionMessage :=
  { sampleMessage with
    testcases :=
      [{ testcaseId := 4, input := "", expectedOutput := "1" },
        { testcaseId := 5, input := "", expectedOutput := "2" },
        { testcaseId := 6, input := "", expectedOutput := "1" }] }

/-- The result when the program prints `1` every time. -/
def threeResult : JudgeResultInternal :=
  { status := .wrongAnswer
    timeUsedMs := 300
    memoryUsedKb := 9000
    errorMessage := "Wrong answer on testcase 2"
    failedTestcaseIndex := 1
    caseResults :=
      [{ status := .accepted, testcaseId := 4, caseIndex := 1, timeUsedMs := 300,
         memoryUsedKb := 9000, actualOutput := "1\n", expectedOutput := "1" },
        { status := .wrongAnswer, testcaseId := 5, caseIndex := 2, timeUsedMs := 300,
          memoryUsedKb := 9000, actualOutput := "1\n", expectedOutput := "2",
          errorMessage := "Wrong answer on testcase 2" }] }

theorem judge_consistent_threeCases :
    Accounted {} threeCases ((judge {} threeCases).trace slowHost ()) threeResult := by
  have hruns : (judge {} threeCases).Runs ((judge {} threeCases).trace slowHost ())
      (.ok threeResult) :=
    Prog.runs_trace_of_eval (by decide +kernel)
  exact judge_consistent (by decide) hruns

end JudgeEngine
