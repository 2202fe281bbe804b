-- SUMMARY: What the verdicts of `judge` rest on: the test case cascade, the recorded cases and their runs, and the limits behind an acceptance.
import FlowStudyJudge.Judge.Behaviour

/-! # Verdicts -/

namespace JudgeEngine

/-! ## The cascade -/

/-- What the cascade of comparisons asks of a run before it accepts. -/
structure Passes (memoryLimitKb : Int) (expectedOutput : Bytes) (runResult : SandboxResult) :
    Prop where
  timedOut : runResult.timedOut = false
  status : runResult.status ≠ "TO"
  memory : runResult.memoryUsedKb ≤ memoryLimitKb
  exitCode : runResult.exitCode = 0
  signalNum : runResult.signalNum = 0
  output : compareOutput expectedOutput runResult.stdoutOutput = true

theorem caseVerdict_accepted {memoryLimitKb : Int} {i : Nat} {expectedOutput : Bytes}
    {runResult : SandboxResult} :
    (caseVerdict memoryLimitKb i expectedOutput runResult).1 = .accepted ↔
      Passes memoryLimitKb expectedOutput runResult := by
  unfold caseVerdict
  refine ⟨fun h => ?_, fun h => ?_⟩
  · split at h
    · cases h
    rename_i htime
    split at h
    · cases h
    rename_i hmemory
    split at h
    · split at h <;> cases h
    rename_i hexit
    split at h
    · rename_i houtput
      simp only [not_or, ne_eq, not_not] at htime hexit
      exact ⟨by simpa using htime.1, htime.2, by omega, hexit.1, hexit.2, houtput⟩
    · cases h
  · rw [if_neg, if_neg, if_neg, if_pos h.output]
    · simp [h.exitCode, h.signalNum]
    · have hmemory := h.memory
      omega
    · simp [h.timedOut, h.status]

/-- The cascade gives a test case verdict. -/
theorem caseVerdict_isVerdict (memoryLimitKb : Int) (i : Nat) (expectedOutput : Bytes)
    (runResult : SandboxResult) :
    (caseVerdict memoryLimitKb i expectedOutput runResult).1.isVerdict = true := by
  unfold caseVerdict
  repeat' split
  all_goals rfl

/-! ## The status -/

/-- The loop ends in a test case verdict. -/
theorem Looped.isVerdict {sandbox : Sandbox} {submission : SubmissionMessage} {i : Nat}
    {p : Progress} {testcases : List TestCase} {tr : Trace Op.Res}
    {result : JudgeResultInternal}
    (h : Looped sandbox submission i p testcases tr (.ok result)) :
    result.status.isVerdict = true := by
  generalize hout : (Except.ok result : Except Abort JudgeResultInternal) = out at h
  induction h with
  | finished =>
    cases hout
    rfl
  | thrown hrun => cases hout
  | stopped hrun hverdict hstop =>
    cases hout
    rw [← hverdict]
    exact caseVerdict_isVerdict ..
  | next hrun hverdict haccepted hrest ih => exact ih hout

/-- `judge` itself never reports a failure: it ends in a compilation error or in
    a test case verdict. -/
theorem judge_status {cfg : IsolateConfig} {submission : SubmissionMessage}
    {tr : Trace Op.Res} {result : JudgeResultInternal}
    (h : (judge cfg submission).Runs tr (.ok result)) :
    result.status = .compilationError ∨ result.status.isVerdict = true := by
  generalize hout : (Except.ok result : Except Abort JudgeResultInternal) = out at h
  cases judge_runs h with
  | compileThrown hcompile => cases hout
  | compileFailed hcompile hexit =>
    cases hout
    exact .inl rfl
  | looped hcompile hexit hloop =>
    cases hout
    exact .inr hloop.isVerdict

end JudgeEngine

/-! ## Limits -/

namespace Sandbox

/-- `run` hands the wall-time limit to isolate, whatever the language. -/
theorem wallTimeOption_mem (sb : Sandbox) (timeLimitMs memoryLimitKb : Int) (lang : Language) :
    wallTimeOption timeLimitMs ∈ sb.runArgs timeLimitMs memoryLimitKb lang := by
  simp [runArgs]

end Sandbox

namespace JudgeEngine

open Sandbox (Language languageOf parseMeta secondsToBytes)

/-- What is enforced behind the acceptance of a test case: the run has called isolate once,
    on the input of the test case and with a wall-time limit of twice the time limit, but at
    least 5 s. The meta file read after the call has the measurements of the case. It does
    not report a timeout, and its memory is within the limit. -/
inductive Limited (sb : Sandbox) (submission : SubmissionMessage) (tc : TestCase) :
    Trace Op.Res → JudgeCaseResultInternal → Prop where
  | intro {w : Written} {lang : Language} {ret : Int} {content output error : Option Bytes}
      {r : SandboxResult} {case_ : JudgeCaseResultInternal}
      (hwritten : w ≠ .refused) (hlang : languageOf submission.language = some lang)
      (hret : ret ≠ -1)
      (hoption : "--wall-time=" ++ secondsToBytes (max 5000 (2 * submission.timeLimitMs)) ∈
        sb.runArgs submission.timeLimitMs submission.memoryLimitKb lang)
      (hparse : parseMeta (sb.path "run_meta.txt") content = .ok r) (hstatus : r.status ≠ "TO")
      (htimeUsed : case_.timeUsedMs = r.timeUsedMs)
      (hmemoryUsed : case_.memoryUsedKb = r.memoryUsedKb)
      (hmemory : case_.memoryUsedKb ≤ submission.memoryLimitKb) :
      Limited sb submission tc
        [⟨.ofstream (sb.path "input.txt") tc.input, w⟩,
          ⟨.system (sb.commandLine
            (sb.runArgs submission.timeLimitMs submission.memoryLimitKb lang) "run_meta.txt"), ret⟩,
          ⟨.ifstream (sb.path "run_meta.txt") .text, content⟩,
          ⟨.ifstream (sb.path "output.txt") .binary, output⟩,
          ⟨.ifstream (sb.path "error.txt") .binary, error⟩] case_

theorem Passes.limited {sb : Sandbox} {submission : SubmissionMessage} {tc : TestCase}
    {tr : Trace Op.Res} {runResult : SandboxResult}
    (h : Passes submission.memoryLimitKb tc.expectedOutput runResult)
    (hran : sb.Ran submission.language submission.timeLimitMs submission.memoryLimitKb tc.input tr
      (.ok runResult)) (i : Nat) (verdict : JudgeStatus × Bytes) :
    Limited sb submission tc tr (caseResult i tc runResult verdict) := by
  have hmemory := h.memory
  have hstatus := h.status
  have hexit := h.exitCode
  generalize hout : (Except.ok runResult : Except Abort SandboxResult) = out at hran
  cases hran with
  | notWritten =>
    cases hout
    cases hexit
  | unsupported hw hlang =>
    cases hout
    cases hexit
  | @executed w lang tr out hw hlang hexec =>
    cases hexec with
    | notStarted =>
      cases hout
      cases hexit
    | thrown hret hparse => cases hout
    | finished hret hparse =>
      cases hout
      have hoption := sb.wallTimeOption_mem submission.timeLimitMs submission.memoryLimitKb lang
      exact .intro hw hlang hret hoption hparse hstatus rfl rfl hmemory

/-- An accepted loop has recorded every test case, each with a run of its own. -/
theorem Looped.limited {sandbox : Sandbox} {submission : SubmissionMessage} {i : Nat}
    {p : Progress} {testcases : List TestCase} {tr : Trace Op.Res}
    {result : JudgeResultInternal}
    (h : Looped sandbox submission i p testcases tr (.ok result))
    (haccepted : result.status = .accepted) :
    ∃ runs cases, tr = runs.flatten ++ [⟨.release sandbox.boxId, ()⟩] ∧
      result.caseResults = p.caseResults ++ cases ∧ runs.length = testcases.length ∧
      List.Forall₂ (fun (tc, run) case_ => Limited sandbox submission tc run case_)
        (testcases.zip runs) cases := by
  generalize hout : (Except.ok result : Except Abort JudgeResultInternal) = out at h
  induction h with
  | finished =>
    cases hout
    exact ⟨[], [], rfl, (List.append_nil _).symm, rfl, .nil⟩
  | thrown hrun => cases hout
  | stopped hrun hverdict hstop =>
    cases hout
    exact absurd haccepted hstop
  | @next i p tc rest tr tr' runResult verdict out hrun hverdict hcase hrest ih =>
    obtain ⟨runs, cases, htr, hcases, hlength, hlimited⟩ := ih hout
    have hpasses : Passes submission.memoryLimitKb tc.expectedOutput runResult := by
      rw [← hverdict] at hcase
      exact caseVerdict_accepted.mp hcase
    refine ⟨tr :: runs, caseResult i tc runResult verdict :: cases, ?_, ?_, ?_, ?_⟩
    · rw [htr, List.flatten_cons, List.append_assoc]
    · rw [hcases]
      simp [Progress.record]
    · simp [hlength]
    · exact .cons (hpasses.limited hrun i verdict) hlimited

/-- Behind an acceptance every test case is recorded, and the call of `judge` is the
    compilation and then, in the box that it has acquired, one run for each test case in
    their order, each within the limits. -/
theorem judge_accepted_limits {cfg : IsolateConfig} {submission : SubmissionMessage}
    {tr : Trace Op.Res} {result : JudgeResultInternal}
    (h : (judge cfg submission).Runs tr (.ok result)) (haccepted : result.status = .accepted) :
    ∃ (boxId : Int) (sb : Sandbox) (compileResult : SandboxResult) (compile : Trace Op.Res)
      (runs : List (Trace Op.Res)),
      (Sandbox.make boxId cfg).Compiled submission.language submission.code compile
        (.ok (sb, compileResult)) ∧
      tr = ⟨.acquire, boxId⟩ :: (compile ++ (runs.flatten ++ [⟨.release boxId, ()⟩])) ∧
      sb.boxId = boxId ∧ runs.length = submission.testcases.length ∧
      List.Forall₂ (fun (tc, run) case_ => Limited sb submission tc run case_)
        (submission.testcases.zip runs) result.caseResults := by
  generalize hout : (Except.ok result : Except Abort JudgeResultInternal) = out at h
  cases judge_runs h with
  | compileThrown hcompile => cases hout
  | compileFailed hcompile hexit =>
    cases hout
    cases haccepted
  | @looped boxId compile loop sandbox compileResult _ hcompile hexit hloop =>
    cases hout
    obtain ⟨runs, cases, hloopRuns, hcases, hlength, hlimited⟩ := hloop.limited haccepted
    have hbox : sandbox.boxId = boxId := hcompile.boxId
    have hresult : result.caseResults = cases := hcases
    rw [hbox] at hloopRuns
    rw [hresult]
    exact ⟨boxId, sandbox, compileResult, compile, runs, hcompile,
      congrArg (fun loop => ⟨.acquire, boxId⟩ :: (compile ++ loop)) hloopRuns, hbox, hlength,
      hlimited⟩

/-- A submission with a time limit of 100 ms. -/
def hurriedMessage : SubmissionMessage :=
  { sampleMessage with timeLimitMs := 100 }

/-- A host on which the program takes 300 ms and answers rightly. -/
def slowHost : Handler Op.Res Unit :=
  Host.fixed (Sandbox.boxFiles "exitcode:0\n" "time:0.300\nmax-rss:9000\nexitcode:0\n" "1\n")

/-- The result of that run. -/
def slowResult : JudgeResultInternal :=
  { status := .accepted
    timeUsedMs := 300
    memoryUsedKb := 9000
    caseResults :=
      [{ status := .accepted, caseIndex := 1, timeUsedMs := 300, memoryUsedKb := 9000,
         actualOutput := "1\n", expectedOutput := "1" }] }

theorem slow_runs :
    (judge {} hurriedMessage).Runs ((judge {} hurriedMessage).trace slowHost ())
      (.ok slowResult) :=
  Prog.runs_trace_of_eval (by decide +kernel)

theorem judge_accepted_limits_slow :
    ∃ (boxId : Int) (sb : Sandbox) (compileResult : SandboxResult) (compile : Trace Op.Res)
      (runs : List (Trace Op.Res)),
      (Sandbox.make boxId {}).Compiled hurriedMessage.language hurriedMessage.code compile
        (.ok (sb, compileResult)) ∧
      (judge {} hurriedMessage).trace slowHost () =
        ⟨.acquire, boxId⟩ :: (compile ++ (runs.flatten ++ [⟨.release boxId, ()⟩])) ∧
      sb.boxId = boxId ∧ runs.length = 1 ∧
      List.Forall₂ (fun (tc, run) case_ => Limited sb hurriedMessage tc run case_)
        (hurriedMessage.testcases.zip runs) slowResult.caseResults :=
  judge_accepted_limits slow_runs rfl

/-- The measured time is compared with nothing: a run of 300 ms is accepted under a
    limit of 100 ms. -/
theorem not_always_within_limits :
    ¬ ∀ (cfg : IsolateConfig) (submission : SubmissionMessage) (tr : Trace Op.Res)
      (result : JudgeResultInternal), (judge cfg submission).Runs tr (.ok result) →
      result.status = .accepted → ∀ case_ ∈ result.caseResults,
        case_.timeUsedMs ≤ submission.timeLimitMs ∧
        case_.memoryUsedKb ≤ submission.memoryLimitKb := by
  intro h
  have hlimits := h _ _ _ _ slow_runs rfl _ (List.mem_cons_self ..)
  have htime := hlimits.1
  revert htime
  decide

end JudgeEngine
