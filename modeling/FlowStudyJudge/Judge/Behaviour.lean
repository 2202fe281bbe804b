-- SUMMARY: The possible runs of the sandbox methods, one inversion lemma for each method.
import FlowStudyJudge.Judge.Engine

/-! # Runs of the sandbox methods

Each lemma says everything a method can do: the operations it issues, in order,
and its outcome. Proofs about `judge` use these lemmas and unfold no method. -/

namespace Sandbox

variable {sb : Sandbox} {tr : Trace Op.Res}

theorem writeFile_runs {filename content : Bytes} {out : Except Abort Bool}
    (h : (sb.writeFile filename content).Runs tr out) :
    ∃ w, tr = [⟨.ofstream (sb.path filename) content, w⟩] ∧
      out = .ok (decide (w ≠ .refused)) := by
  unfold writeFile Host.ofstream at h
  obtain ⟨w, tr', rfl, hk⟩ := Prog.runs_perform_bind.mp h
  refine ⟨w, ?_⟩
  cases w with
  | refused | truncated | complete =>
    obtain ⟨rfl, rfl⟩ := Prog.runs_done.mp hk
    exact ⟨rfl, rfl⟩

theorem readFile_runs {filename : Bytes} {out : Except Abort Bytes}
    (h : (sb.readFile filename).Runs tr out) :
    ∃ content, tr = [⟨.ifstream (sb.path filename) .binary, content⟩] ∧
      out = .ok (content.getD []) := by
  unfold readFile Host.ifstream at h
  obtain ⟨content, tr', rfl, hk⟩ := Prog.runs_perform_bind.mp h
  obtain ⟨rfl, rfl⟩ := Prog.runs_done.mp hk
  exact ⟨content, rfl, rfl⟩

theorem readFile_bind_runs {filename : Bytes} {α : Type} {f : Bytes → Comp α}
    {out : Except Abort α} (h : (sb.readFile filename >>= f).Runs tr out) :
    ∃ content tr', tr = ⟨.ifstream (sb.path filename) .binary, content⟩ :: tr' ∧
      (f (content.getD [])).Runs tr' out := by
  rcases Prog.runs_bind.mp h with ⟨a, tr₁, tr₂, h₁, h₂, rfl⟩ | ⟨x, h₁, -⟩
  · obtain ⟨content, rfl, ha⟩ := readFile_runs h₁
    cases ha
    exact ⟨content, tr₂, rfl, h₂⟩
  · obtain ⟨_, _, hx⟩ := readFile_runs h₁
    cases hx

/-- Behind a `write_file` whose result is tested: it failed, or it went on. -/
theorem writeFile_bind_runs {filename content : Bytes} {α : Type} {f : Bool → Comp α}
    {out : Except Abort α} (h : (sb.writeFile filename content >>= f).Runs tr out) :
    ∃ w tr', tr = ⟨.ofstream (sb.path filename) content, w⟩ :: tr' ∧
      (f (decide (w ≠ .refused))).Runs tr' out := by
  rcases Prog.runs_bind.mp h with ⟨a, tr₁, tr₂, h₁, h₂, rfl⟩ | ⟨x, h₁, -⟩
  · obtain ⟨w, rfl, ha⟩ := writeFile_runs h₁
    cases ha
    exact ⟨w, tr₂, rfl, h₂⟩
  · obtain ⟨_, _, hx⟩ := writeFile_runs h₁
    cases hx

/-- The three ways `execute` can go. -/
inductive Executed (sb : Sandbox) (args : List Bytes) (metaFilename : Bytes) :
    Trace Op.Res → Except Abort SandboxResult → Prop where
  /-- The shell could not be started. -/
  | notStarted :
      Executed sb args metaFilename [⟨.system (sb.commandLine args metaFilename), (-1 : Int)⟩]
        (.ok (failure "Failed to execute isolate binary"))
  /-- A numeric record of the meta file does not convert. -/
  | thrown {ret : Int} {content : Option Bytes} {x : StdException} (hret : ret ≠ -1)
      (hparse : parseMeta (sb.path metaFilename) content = .error x) :
      Executed sb args metaFilename
        [⟨.system (sb.commandLine args metaFilename), ret⟩,
          ⟨.ifstream (sb.path metaFilename) .text, content⟩]
        (.error (.thrown x))
  | finished {ret : Int} {content output error : Option Bytes} {result : SandboxResult}
      (hret : ret ≠ -1) (hparse : parseMeta (sb.path metaFilename) content = .ok result) :
      Executed sb args metaFilename
        [⟨.system (sb.commandLine args metaFilename), ret⟩,
          ⟨.ifstream (sb.path metaFilename) .text, content⟩,
          ⟨.ifstream (sb.path "output.txt") .binary, output⟩,
          ⟨.ifstream (sb.path "error.txt") .binary, error⟩]
        (.ok { result with stdoutOutput := output.getD [], stderrOutput := error.getD [] })

theorem execute_runs {args : List Bytes} {metaFilename : Bytes}
    {out : Except Abort SandboxResult} (h : (sb.execute args metaFilename).Runs tr out) :
    Executed sb args metaFilename tr out := by
  unfold execute Host.system Host.ifstream at h
  obtain ⟨ret, tr₁, rfl, h₁⟩ := Prog.runs_perform_bind.mp h
  by_cases hret : ret = -1
  · subst hret
    obtain ⟨rfl, rfl⟩ := Prog.runs_done.mp h₁
    exact .notStarted
  · rw [if_neg hret] at h₁
    obtain ⟨content, tr₂, rfl, h₂⟩ := Prog.runs_perform_bind.mp h₁
    cases hparse : parseMeta (sb.path metaFilename) content with
    | error x =>
      rw [hparse] at h₂
      obtain ⟨rfl, rfl⟩ := Prog.runs_raise.mp h₂
      exact .thrown hret hparse
    | ok result =>
      rw [hparse, Prog.ofExcept_ok, Prog.done_bind] at h₂
      obtain ⟨output, tr₃, rfl, h₃⟩ := readFile_bind_runs h₂
      obtain ⟨error, tr₄, rfl, h₄⟩ := readFile_bind_runs h₃
      obtain ⟨rfl, rfl⟩ := Prog.runs_done.mp h₄
      exact .finished hret hparse

/-- The ways `run` can go. -/
inductive Ran (sb : Sandbox) (language : Bytes) (timeLimitMs memoryLimitKb : Int)
    (stdinInput : Bytes) : Trace Op.Res → Except Abort SandboxResult → Prop where
  | notWritten :
      Ran sb language timeLimitMs memoryLimitKb stdinInput
        [⟨.ofstream (sb.path "input.txt") stdinInput, .refused⟩]
        (.ok (failure "Failed to write input file"))
  | unsupported {w : Written} (hw : w ≠ .refused) (hlang : languageOf language = none) :
      Ran sb language timeLimitMs memoryLimitKb stdinInput
        [⟨.ofstream (sb.path "input.txt") stdinInput, w⟩]
        (.ok (failure ("Unsupported language: " ++ language)))
  | executed {w : Written} {lang : Language} {tr : Trace Op.Res}
      {out : Except Abort SandboxResult} (hw : w ≠ .refused)
      (hlang : languageOf language = some lang)
      (hexec : Executed sb (sb.runArgs timeLimitMs memoryLimitKb lang) "run_meta.txt" tr out) :
      Ran sb language timeLimitMs memoryLimitKb stdinInput
        (⟨.ofstream (sb.path "input.txt") stdinInput, w⟩ :: tr)
        (out.map fun result => { result with timedOut := decide (result.status = "TO") })

theorem run_runs {language : Bytes} {timeLimitMs memoryLimitKb : Int} {stdinInput : Bytes}
    {out : Except Abort SandboxResult}
    (h : (sb.run language timeLimitMs memoryLimitKb stdinInput).Runs tr out) :
    Ran sb language timeLimitMs memoryLimitKb stdinInput tr out := by
  unfold run at h
  obtain ⟨w, tr₁, rfl, h₁⟩ := writeFile_bind_runs h
  by_cases hw : w = .refused
  · subst hw
    obtain ⟨rfl, rfl⟩ := Prog.runs_done.mp h₁
    exact .notWritten
  · simp only [hw, ne_eq, not_false_eq_true, decide_true, Bool.not_true, Bool.false_eq_true,
      if_false] at h₁
    cases hlang : languageOf language with
    | none =>
      rw [hlang] at h₁
      obtain ⟨rfl, rfl⟩ := Prog.runs_done.mp h₁
      exact .unsupported hw hlang
    | some lang =>
      rw [hlang] at h₁
      rcases Prog.runs_bind.mp h₁ with ⟨result, tr₂, tr₃, h₂, h₃, rfl⟩ | ⟨x, h₂, rfl⟩
      · obtain ⟨rfl, rfl⟩ := Prog.runs_done.mp h₃
        rw [List.append_nil]
        exact .executed hw hlang (execute_runs h₂)
      · exact .executed hw hlang (execute_runs h₂)

/-! ## Compilation -/

@[simp] theorem setMainClass_boxId (sb : Sandbox) (lang : Language) (sourceCode : Bytes) :
    (sb.setMainClass lang sourceCode).boxId = sb.boxId := by
  unfold setMainClass
  split <;> rfl

@[simp] theorem setMainClass_isolateBin (sb : Sandbox) (lang : Language) (sourceCode : Bytes) :
    (sb.setMainClass lang sourceCode).isolateBin = sb.isolateBin := by
  unfold setMainClass
  split <;> rfl

@[simp] theorem setMainClass_path (sb : Sandbox) (lang : Language) (sourceCode f : Bytes) :
    (sb.setMainClass lang sourceCode).path f = sb.path f := by
  simp [path]

@[simp] theorem setMainClass_commandLine (sb : Sandbox) (lang : Language)
    (sourceCode : Bytes) (args : List Bytes) (f : Bytes) :
    (sb.setMainClass lang sourceCode).commandLine args f = sb.commandLine args f := by
  unfold setMainClass
  split <;> rfl

/-- The ways the preparation of the Go directories can go, with the message of
    the failure. -/
inductive DirsMade (sb : Sandbox) : Language → Trace Op.Res → Option Bytes → Prop where
  | notGo {lang : Language} (hlang : lang ≠ .go) : DirsMade sb lang [] none
  | tmpFailed :
      DirsMade sb .go [⟨.mkdir (sb.path "tmp"), .failed⟩]
        (some "Failed to create Go temp directory")
  | cacheFailed {r : MkdirResult} (hr : r ≠ .failed) :
      DirsMade sb .go
        [⟨.mkdir (sb.path "tmp"), r⟩, ⟨.mkdir (sb.path "tmp" ++ "/go-cache"), .failed⟩]
        (some "Failed to create Go build cache directory")
  | made {r r' : MkdirResult} (hr : r ≠ .failed) (hr' : r' ≠ .failed) :
      DirsMade sb .go
        [⟨.mkdir (sb.path "tmp"), r⟩, ⟨.mkdir (sb.path "tmp" ++ "/go-cache"), r'⟩] none

theorem makeDirs_runs {lang : Language} {out : Except Abort (Option Bytes)}
    (h : (sb.makeDirs lang).Runs tr out) :
    ∃ message, out = .ok message ∧ DirsMade sb lang tr message := by
  cases lang with
  | cpp | java | python =>
    obtain ⟨rfl, rfl⟩ := Prog.runs_done.mp h
    exact ⟨none, rfl, .notGo (by decide)⟩
  | go =>
    unfold makeDirs Host.mkdir at h
    obtain ⟨r, tr₁, rfl, h₁⟩ := Prog.runs_perform_bind.mp h
    by_cases hr : r = .failed
    · subst hr
      obtain ⟨rfl, rfl⟩ := Prog.runs_done.mp h₁
      exact ⟨_, rfl, .tmpFailed⟩
    · rw [if_neg hr] at h₁
      obtain ⟨r', tr₂, rfl, h₂⟩ := Prog.runs_perform_bind.mp h₁
      by_cases hr' : r' = .failed
      · subst hr'
        obtain ⟨rfl, rfl⟩ := Prog.runs_done.mp h₂
        exact ⟨_, rfl, .cacheFailed hr⟩
      · rw [if_neg hr'] at h₂
        obtain ⟨rfl, rfl⟩ := Prog.runs_done.mp h₂
        exact ⟨_, rfl, .made hr hr'⟩

/-- `compile` reads `error.txt` once more when `execute` found it empty: the events
    of that, and the result afterwards. -/
inductive StderrRead (sb : Sandbox) (result : SandboxResult) :
    Trace Op.Res → SandboxResult → Prop where
  | filled (h : result.stderrOutput ≠ []) : StderrRead sb result [] result
  | empty (h : result.stderrOutput = []) {content : Option Bytes} :
      StderrRead sb result [⟨.ifstream (sb.path "error.txt") .binary, content⟩]
        { result with stderrOutput := content.getD [] }

theorem StderrRead.eq {result result' : SandboxResult} (h : StderrRead sb result tr result') :
    result' = { result with stderrOutput := result'.stderrOutput } := by
  cases h <;> rfl

/-- The ways `compile` can go. -/
inductive Compiled (sb : Sandbox) (language sourceCode : Bytes) :
    Trace Op.Res → Except Abort (Sandbox × SandboxResult) → Prop where
  | unsupported (hlang : languageOf language = none) :
      Compiled sb language sourceCode []
        (.ok (sb, failure ("Unsupported language: " ++ language)))
  | noDirs {lang : Language} {dirs : Trace Op.Res} {message : Bytes}
      (hlang : languageOf language = some lang) (hdirs : DirsMade sb lang dirs (some message)) :
      Compiled sb language sourceCode dirs
        (.ok (sb.setMainClass lang sourceCode, failure message))
  | notWritten {lang : Language} {dirs : Trace Op.Res}
      (hlang : languageOf language = some lang) (hdirs : DirsMade sb lang dirs none) :
      Compiled sb language sourceCode
        (dirs ++ [⟨.ofstream (sb.path (sourceFile sourceCode lang)) sourceCode, .refused⟩])
        (.ok (sb.setMainClass lang sourceCode,
          failure ("Failed to write source file: " ++ sourceFile sourceCode lang)))
  | thrown {lang : Language} {dirs tr : Trace Op.Res} {w : Written} {x : Abort}
      (hlang : languageOf language = some lang) (hdirs : DirsMade sb lang dirs none)
      (hw : w ≠ .refused)
      (hexec : Executed sb (compileArgs sb.boxId (sourceFile sourceCode lang) lang)
        "compile_meta.txt" tr (.error x)) :
      Compiled sb language sourceCode
        (dirs ++ ⟨.ofstream (sb.path (sourceFile sourceCode lang)) sourceCode, w⟩ :: tr)
        (.error x)
  | executed {lang : Language} {dirs tr tail : Trace Op.Res} {w : Written}
      {result result' : SandboxResult}
      (hlang : languageOf language = some lang) (hdirs : DirsMade sb lang dirs none)
      (hw : w ≠ .refused)
      (hexec : Executed sb (compileArgs sb.boxId (sourceFile sourceCode lang) lang)
        "compile_meta.txt" tr (.ok result))
      (htail : StderrRead sb result tail result') :
      Compiled sb language sourceCode
        (dirs ++ ⟨.ofstream (sb.path (sourceFile sourceCode lang)) sourceCode, w⟩ :: (tr ++ tail))
        (.ok (sb.setMainClass lang sourceCode, result'))

/-- The box of the object decides all that `execute` does. -/
theorem Executed.setMainClass {lang : Language} {sourceCode : Bytes} {args : List Bytes}
    {f : Bytes} {out : Except Abort SandboxResult}
    (h : Executed (sb.setMainClass lang sourceCode) args f tr out) :
    Executed sb args f tr out := by
  cases h with
  | notStarted =>
    rw [setMainClass_commandLine]
    exact .notStarted
  | thrown hret hparse =>
    rw [setMainClass_path] at hparse ⊢
    rw [setMainClass_commandLine]
    exact .thrown hret hparse
  | finished hret hparse =>
    rw [setMainClass_path] at hparse
    rw [setMainClass_commandLine, setMainClass_path, setMainClass_path, setMainClass_path]
    exact .finished hret hparse

theorem DirsMade.setMainClass {lang : Language} {sourceCode : Bytes} {lang' : Language}
    {message : Option Bytes} (h : DirsMade (sb.setMainClass lang sourceCode) lang' tr message) :
    DirsMade sb lang' tr message := by
  cases h with
  | notGo hlang => exact .notGo hlang
  | tmpFailed =>
    rw [setMainClass_path]
    exact .tmpFailed
  | cacheFailed hr =>
    rw [setMainClass_path]
    exact .cacheFailed hr
  | made hr hr' =>
    rw [setMainClass_path]
    exact .made hr hr'

theorem compile_runs {language sourceCode : Bytes}
    {out : Except Abort (Sandbox × SandboxResult)}
    (h : (sb.compile language sourceCode).Runs tr out) :
    Compiled sb language sourceCode tr out := by
  unfold compile at h
  cases hlang : languageOf language with
  | none =>
    rw [hlang] at h
    obtain ⟨rfl, rfl⟩ := Prog.runs_done.mp h
    exact .unsupported hlang
  | some lang =>
    rw [hlang] at h
    rcases Prog.runs_bind.mp h with ⟨message, dirs, tr₁, h₁, h₂, rfl⟩ | ⟨x, h₁, -⟩
    case inr =>
      obtain ⟨_, hx, -⟩ := makeDirs_runs h₁
      cases hx
    obtain ⟨_, hm, hmade⟩ := makeDirs_runs h₁
    cases hm
    have hdirs := hmade.setMainClass
    cases message with
    | some message =>
      obtain ⟨rfl, rfl⟩ := Prog.runs_done.mp h₂
      rw [List.append_nil]
      exact .noDirs hlang hdirs
    | none =>
      unfold compileSource at h₂
      rw [Prog.bind_assoc] at h₂
      obtain ⟨w, tr₂, rfl, h₃⟩ := writeFile_bind_runs h₂
      rw [setMainClass_path]
      by_cases hw : w = .refused
      · subst hw
        obtain ⟨rfl, rfl⟩ := Prog.runs_done.mp h₃
        exact .notWritten hlang hdirs
      · simp only [hw, ne_eq, not_false_eq_true, decide_true, Bool.not_true,
          Bool.false_eq_true, if_false, setMainClass_boxId] at h₃
        rw [Prog.bind_assoc] at h₃
        rcases Prog.runs_bind.mp h₃ with ⟨result, tr₃, tr₄, h₄, h₅, rfl⟩ | ⟨x, h₄, rfl⟩
        · have hexec := (execute_runs h₄).setMainClass
          by_cases hstderr : result.stderrOutput = []
          · rw [if_pos hstderr, Prog.bind_assoc] at h₅
            obtain ⟨content, tr₅, rfl, h₆⟩ := readFile_bind_runs h₅
            obtain ⟨rfl, rfl⟩ := Prog.runs_done.mp h₆
            rw [setMainClass_path]
            exact .executed hlang hdirs hw hexec (.empty hstderr)
          · rw [if_neg hstderr] at h₅
            obtain ⟨rfl, rfl⟩ := Prog.runs_done.mp h₅
            exact .executed hlang hdirs hw hexec (.filled hstderr)
        · exact .thrown hlang hdirs hw (execute_runs h₄).setMainClass

/-! ## Operations

A method of the sandbox issues operations of the sandbox only. -/

theorem Executed.only {args : List Bytes} {f : Bytes}
    {out : Except Abort SandboxResult} (h : Executed sb args f tr out) :
    Trace.Only Op.isSandbox tr := by
  cases h <;> simp [Op.isSandbox]

theorem Ran.only {language : Bytes} {timeLimitMs memoryLimitKb : Int} {stdinInput : Bytes}
    {out : Except Abort SandboxResult}
    (h : Ran sb language timeLimitMs memoryLimitKb stdinInput tr out) :
    Trace.Only Op.isSandbox tr := by
  cases h with
  | notWritten => simp [Op.isSandbox]
  | unsupported hw hlang => simp [Op.isSandbox]
  | executed hw hlang hexec => simp [Op.isSandbox, hexec.only]

theorem DirsMade.only {lang : Language} {message : Option Bytes}
    (h : DirsMade sb lang tr message) : Trace.Only Op.isSandbox tr := by
  cases h <;> simp [Op.isSandbox]

theorem StderrRead.only {result result' : SandboxResult}
    (h : StderrRead sb result tr result') : Trace.Only Op.isSandbox tr := by
  cases h <;> simp [Op.isSandbox]

/-- Neither the directories nor the second look at `error.txt` take a command. -/
theorem DirsMade.noCommand {lang : Language} {message : Option Bytes}
    (h : DirsMade sb lang tr message) : ∀ e ∈ tr, ∀ cmd, e.op ≠ .system cmd := by
  cases h <;> simp

theorem StderrRead.noCommand {result result' : SandboxResult}
    (h : StderrRead sb result tr result') : ∀ e ∈ tr, ∀ cmd, e.op ≠ .system cmd := by
  cases h <;> simp

theorem Compiled.only {language sourceCode : Bytes}
    {out : Except Abort (Sandbox × SandboxResult)}
    (h : Compiled sb language sourceCode tr out) : Trace.Only Op.isSandbox tr := by
  cases h with
  | unsupported hlang => simp
  | noDirs hlang hdirs => exact hdirs.only
  | notWritten hlang hdirs => simp [Op.isSandbox, hdirs.only]
  | thrown hlang hdirs hw hexec => simp [Op.isSandbox, hdirs.only, hexec.only]
  | executed hlang hdirs hw hexec htail =>
    simp [Op.isSandbox, hdirs.only, hexec.only, htail.only]

/-- `compile` keeps the box. -/
theorem Compiled.boxId {language sourceCode : Bytes} {sb' : Sandbox} {result : SandboxResult}
    (h : Compiled sb language sourceCode tr (.ok (sb', result))) : sb'.boxId = sb.boxId := by
  cases h with
  | unsupported hlang => rfl
  | noDirs hlang hdirs => exact setMainClass_boxId ..
  | notWritten hlang hdirs => exact setMainClass_boxId ..
  | executed hlang hdirs hw hexec htail => exact setMainClass_boxId ..

end Sandbox

namespace JudgeEngine

/-! ## The judge -/

/-- The ways the test case loop can go from test case number `i` on. -/
inductive Looped (sandbox : Sandbox) (submission : SubmissionMessage) :
    Nat → Progress → List TestCase → Trace Op.Res → Except Abort JudgeResultInternal →
      Prop where
  | finished {i : Nat} {p : Progress} :
      Looped sandbox submission i p [] [⟨.release sandbox.boxId, ()⟩]
        (.ok (p.result (.accepted, []) (-1)))
  | thrown {i : Nat} {p : Progress} {tc : TestCase} {rest : List TestCase}
      {tr : Trace Op.Res} {x : Abort}
      (hrun : sandbox.Ran submission.language submission.timeLimitMs submission.memoryLimitKb
        tc.input tr (.error x)) :
      Looped sandbox submission i p (tc :: rest) tr (.error x)
  | stopped {i : Nat} {p : Progress} {tc : TestCase} {rest : List TestCase}
      {tr : Trace Op.Res} {runResult : SandboxResult} {verdict : JudgeStatus × Bytes}
      (hrun : sandbox.Ran submission.language submission.timeLimitMs submission.memoryLimitKb
        tc.input tr (.ok runResult))
      (hverdict : caseVerdict submission.memoryLimitKb i tc.expectedOutput runResult = verdict)
      (hstop : verdict.1 ≠ .accepted) :
      Looped sandbox submission i p (tc :: rest) (tr ++ [⟨.release sandbox.boxId, ()⟩])
        (.ok ((p.record runResult (caseResult i tc runResult verdict)).result verdict
          (Json.castInt i)))
  | next {i : Nat} {p : Progress} {tc : TestCase} {rest : List TestCase}
      {tr tr' : Trace Op.Res} {runResult : SandboxResult} {verdict : JudgeStatus × Bytes}
      {out : Except Abort JudgeResultInternal}
      (hrun : sandbox.Ran submission.language submission.timeLimitMs submission.memoryLimitKb
        tc.input tr (.ok runResult))
      (hverdict : caseVerdict submission.memoryLimitKb i tc.expectedOutput runResult = verdict)
      (haccepted : verdict.1 = .accepted)
      (hrest : Looped sandbox submission (i + 1)
        (p.record runResult (caseResult i tc runResult verdict)) rest tr' out) :
      Looped sandbox submission i p (tc :: rest) (tr ++ tr') out

theorem judgeTestcases_runs {sandbox : Sandbox} {submission : SubmissionMessage} {i : Nat}
    {p : Progress} {testcases : List TestCase} {tr : Trace Op.Res}
    {out : Except Abort JudgeResultInternal}
    (h : (judgeTestcases sandbox submission i p testcases).Runs tr out) :
    Looped sandbox submission i p testcases tr out := by
  induction testcases generalizing i p tr with
  | nil =>
    unfold judgeTestcases Host.release at h
    obtain ⟨-, tr', rfl, h₁⟩ := Prog.runs_perform_bind.mp h
    obtain ⟨rfl, rfl⟩ := Prog.runs_done.mp h₁
    exact .finished
  | cons tc rest ih =>
    unfold judgeTestcases at h
    rcases Prog.runs_bind.mp h with ⟨runResult, tr₁, tr₂, h₁, h₂, rfl⟩ | ⟨x, h₁, rfl⟩
    · have hrun := Sandbox.run_runs h₁
      simp only at h₂
      split at h₂
      · rename_i haccepted
        exact .next hrun rfl haccepted (ih h₂)
      · rename_i hstop
        unfold Host.release at h₂
        obtain ⟨-, tr', rfl, h₃⟩ := Prog.runs_perform_bind.mp h₂
        obtain ⟨rfl, rfl⟩ := Prog.runs_done.mp h₃
        exact .stopped hrun rfl hstop
    · exact .thrown (Sandbox.run_runs h₁)

/-- The ways `judge` can go. -/
inductive Judged (cfg : IsolateConfig) (submission : SubmissionMessage) :
    Trace Op.Res → Except Abort JudgeResultInternal → Prop where
  | compileThrown {boxId : Int} {tr : Trace Op.Res} {x : Abort}
      (hcompile : (Sandbox.make boxId cfg).Compiled submission.language submission.code tr
        (.error x)) :
      Judged cfg submission (⟨.acquire, boxId⟩ :: tr) (.error x)
  | compileFailed {boxId : Int} {tr : Trace Op.Res} {sandbox : Sandbox}
      {compileResult : SandboxResult}
      (hcompile : (Sandbox.make boxId cfg).Compiled submission.language submission.code tr
        (.ok (sandbox, compileResult)))
      (hexit : compileResult.exitCode ≠ 0) :
      Judged cfg submission (⟨.acquire, boxId⟩ :: (tr ++ [⟨.release boxId, ()⟩]))
        (.ok { status := .compilationError
               compilerOutput := compileResult.stderrOutput
               errorMessage := compileResult.stderrOutput })
  | looped {boxId : Int} {tr tr' : Trace Op.Res} {sandbox : Sandbox}
      {compileResult : SandboxResult} {out : Except Abort JudgeResultInternal}
      (hcompile : (Sandbox.make boxId cfg).Compiled submission.language submission.code tr
        (.ok (sandbox, compileResult)))
      (hexit : compileResult.exitCode = 0)
      (hloop : Looped sandbox submission 0 {} submission.testcases tr' out) :
      Judged cfg submission (⟨.acquire, boxId⟩ :: (tr ++ tr')) out

theorem judge_runs {cfg : IsolateConfig} {submission : SubmissionMessage} {tr : Trace Op.Res}
    {out : Except Abort JudgeResultInternal} (h : (judge cfg submission).Runs tr out) :
    Judged cfg submission tr out := by
  unfold judge Host.acquire at h
  obtain ⟨boxId, tr₁, rfl, h₁⟩ := Prog.runs_perform_bind.mp h
  rcases Prog.runs_bind.mp h₁ with ⟨⟨sandbox, compileResult⟩, tr₂, tr₃, h₂, h₃, rfl⟩ | ⟨x, h₂, rfl⟩
  · have hcompile := Sandbox.compile_runs h₂
    simp only at h₃
    split at h₃
    · rename_i hexit
      unfold Host.release at h₃
      obtain ⟨-, tr', rfl, h₄⟩ := Prog.runs_perform_bind.mp h₃
      obtain ⟨rfl, rfl⟩ := Prog.runs_done.mp h₄
      exact .compileFailed hcompile hexit
    · rename_i hexit
      exact .looped hcompile (not_not.mp hexit) (judgeTestcases_runs h₃)
  · exact .compileThrown (Sandbox.compile_runs h₂)

theorem Looped.noDatabase {sandbox : Sandbox} {submission : SubmissionMessage} {i : Nat}
    {p : Progress} {testcases : List TestCase} {tr : Trace Op.Res}
    {out : Except Abort JudgeResultInternal}
    (h : Looped sandbox submission i p testcases tr out) :
    Trace.Only (fun op => !op.isDatabase) tr := by
  induction h with
  | finished => simp [Op.isDatabase]
  | thrown hrun => exact hrun.only.mono Op.isSandbox_not_isDatabase
  | stopped hrun hverdict hstop =>
    rw [Trace.only_append]
    exact ⟨hrun.only.mono Op.isSandbox_not_isDatabase, by simp [Op.isDatabase]⟩
  | next hrun hverdict haccepted hrest ih =>
    rw [Trace.only_append]
    exact ⟨hrun.only.mono Op.isSandbox_not_isDatabase, ih⟩

/-- `judge` does not talk to the database. -/
theorem judge_noDatabase {cfg : IsolateConfig} {submission : SubmissionMessage}
    {tr : Trace Op.Res} {out : Except Abort JudgeResultInternal}
    (h : (judge cfg submission).Runs tr out) : Trace.Only (fun op => !op.isDatabase) tr := by
  cases judge_runs h with
  | compileThrown hcompile =>
    rw [Trace.only_cons]
    exact ⟨rfl, hcompile.only.mono Op.isSandbox_not_isDatabase⟩
  | compileFailed hcompile hexit =>
    rw [Trace.only_cons, Trace.only_append]
    exact ⟨rfl, hcompile.only.mono Op.isSandbox_not_isDatabase, by simp [Op.isDatabase]⟩
  | looped hcompile hexit hloop =>
    rw [Trace.only_cons, Trace.only_append]
    exact ⟨rfl, hcompile.only.mono Op.isSandbox_not_isDatabase, hloop.noDatabase⟩

end JudgeEngine
