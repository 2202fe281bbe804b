-- SUMMARY: `JudgeEngine::judge`: compile, run the test cases in order, stop at the first that is not clean.
import FlowStudyJudge.Judge.Sandbox
import FlowStudyJudge.Judge.Message
import FlowStudyJudge.Judge.Status
import FlowStudyJudge.Judge.Compare

structure JudgeCaseResultInternal where
  testcaseId : UInt64 := 0
  caseIndex : Int := 0
  status : JudgeStatus := .systemError
  timeUsedMs : Int := 0
  memoryUsedKb : Int := 0
  inputText : Bytes := []
  actualOutput : Bytes := []
  expectedOutput : Bytes := []
  errorMessage : Bytes := []
  deriving DecidableEq

structure JudgeResultInternal where
  status : JudgeStatus := .systemError
  timeUsedMs : Int := 0
  memoryUsedKb : Int := 0
  errorMessage : Bytes := []
  compilerOutput : Bytes := []
  failedTestcaseIndex : Int := -1
  caseResults : List JudgeCaseResultInternal := []
  deriving DecidableEq

namespace JudgeEngine

/-! ## One test case -/

/-- The comparisons that `judge` makes on the result of a run, in their order: the
    status of test case number `i`, and its error message. -/
def caseVerdict (memoryLimitKb : Int) (i : Nat) (expectedOutput : Bytes)
    (runResult : SandboxResult) : JudgeStatus × Bytes :=
  let testcase := Bytes.ofNat (i + 1)
  if runResult.timedOut ∨ runResult.status = "TO" then
    (.timeLimitExceeded, "Time limit exceeded on testcase " ++ testcase)
  else if runResult.memoryUsedKb > memoryLimitKb then
    (.memoryLimitExceeded, "Memory limit exceeded on testcase " ++ testcase ++
      " (" ++ Bytes.ofInt runResult.memoryUsedKb ++ " KB)")
  else if runResult.exitCode ≠ 0 ∨ runResult.signalNum ≠ 0 then
    if runResult.signalNum ≠ 0 then
      (.runtimeError, "Program terminated by signal " ++ Bytes.ofInt runResult.signalNum ++
        " on testcase " ++ testcase)
    else
      (.runtimeError, "Non-zero exit code " ++ Bytes.ofInt runResult.exitCode ++
        " on testcase " ++ testcase ++ "\n" ++ runResult.stderrOutput)
  else if compareOutput expectedOutput runResult.stdoutOutput then (.accepted, [])
  else (.wrongAnswer, "Wrong answer on testcase " ++ testcase)

/-- The fields of `case_result` that are filled for every test case, and the
    status and message of its verdict. -/
def caseResult (i : Nat) (tc : TestCase) (runResult : SandboxResult)
    (verdict : JudgeStatus × Bytes) : JudgeCaseResultInternal :=
  { testcaseId := tc.testcaseId
    caseIndex := if tc.caseIndex > 0 then tc.caseIndex else Json.castInt i + 1
    inputText := tc.input
    expectedOutput := tc.expectedOutput
    timeUsedMs := runResult.timeUsedMs
    memoryUsedKb := runResult.memoryUsedKb
    actualOutput := runResult.stdoutOutput
    status := verdict.1
    errorMessage := verdict.2 }

/-! ## The test case loop -/

/-- The locals of `judge` that the loop updates. -/
structure Progress where
  maxTimeMs : Int := 0
  maxMemoryKb : Int := 0
  caseResults : List JudgeCaseResultInternal := []

/-- The tracking of the maxima, and `push_back` of the case result. -/
def Progress.record (p : Progress) (runResult : SandboxResult)
    (case_ : JudgeCaseResultInternal) : Progress :=
  { maxTimeMs := if runResult.timeUsedMs > p.maxTimeMs then runResult.timeUsedMs else p.maxTimeMs
    maxMemoryKb :=
      if runResult.memoryUsedKb > p.maxMemoryKb then runResult.memoryUsedKb else p.maxMemoryKb
    caseResults := p.caseResults ++ [case_] }

/-- `result` as the returns of the loop fill it: the four early ones with the
    verdict and the index of the last test case, the final one without. -/
def Progress.result (p : Progress) (verdict : JudgeStatus × Bytes) (failedTestcaseIndex : Int) :
    JudgeResultInternal :=
  { status := verdict.1
    timeUsedMs := p.maxTimeMs
    memoryUsedKb := p.maxMemoryKb
    errorMessage := verdict.2
    failedTestcaseIndex := failedTestcaseIndex
    caseResults := p.caseResults }

/-- The loop of `judge` from test case number `i` on. -/
def judgeTestcases (sandbox : Sandbox) (submission : SubmissionMessage) (i : Nat)
    (p : Progress) : List TestCase → Comp JudgeResultInternal
  | [] => do
    Host.release sandbox.boxId
    return p.result (.accepted, []) (-1)
  | tc :: rest => do
    let runResult ← sandbox.run submission.language submission.timeLimitMs
      submission.memoryLimitKb tc.input
    let verdict := caseVerdict submission.memoryLimitKb i tc.expectedOutput runResult
    let p := p.record runResult (caseResult i tc runResult verdict)
    if verdict.1 = .accepted then
      judgeTestcases sandbox submission (i + 1) p rest
    else do
      Host.release sandbox.boxId
      return p.result verdict (Json.castInt i)

/-! ## The whole call -/

def judge (cfg : IsolateConfig) (submission : SubmissionMessage) : Comp JudgeResultInternal := do
  let boxId ← Host.acquire
  let (sandbox, compileResult) ←
    (Sandbox.make boxId cfg).compile submission.language submission.code
  if compileResult.exitCode ≠ 0 then do
    Host.release boxId
    return { status := .compilationError
             compilerOutput := compileResult.stderrOutput
             errorMessage := compileResult.stderrOutput }
  else
    judgeTestcases sandbox submission 0 {} submission.testcases

end JudgeEngine
