-- SUMMARY: What `judge` makes of failures: of compilations that did not end cleanly, and of the sandbox layer itself.
import FlowStudyJudge.Judge.Verdicts

/-! # Failures -/

namespace Host

/-- The commands that a run hands to the shell. -/
def commands (tr : Trace Op.Res) : List Bytes :=
  tr.filterMap fun e =>
    match e with
    | ⟨.system cmd, _⟩ => some cmd
    | _ => none

/-- The meta files that a run opens, each with its content. -/
def metaReads (tr : Trace Op.Res) : List (Bytes × Option Bytes) :=
  tr.filterMap fun e =>
    match e with
    | ⟨.ifstream path .text, content⟩ => some (path, content)
    | _ => none

@[simp] theorem commands_append (tr₁ tr₂ : Trace Op.Res) :
    commands (tr₁ ++ tr₂) = commands tr₁ ++ commands tr₂ := by
  simp [commands]

@[simp] theorem metaReads_append (tr₁ tr₂ : Trace Op.Res) :
    metaReads (tr₁ ++ tr₂) = metaReads tr₁ ++ metaReads tr₂ := by
  simp [metaReads]

end Host

open Host

namespace Sandbox

/-! ## Meta files of isolate -/

/-- How a command under isolate ends. -/
inductive Ending where
  | clean
  | timeout
  | signal (sig : Int)
  | internalError
  /-- The command exited with a code other than `0`. -/
  | failed (code : { code : Int // code ≠ 0 })

namespace Ending

/-- The status line. -/
def status : Ending → Option Bytes
  | .clean => none
  | .timeout => some "TO"
  | .signal _ => some "SG"
  | .internalError => some "XX"
  | .failed _ => some "RE"

/-- The `exitcode` line. -/
def exitCode : Ending → Option Int
  | .clean => some 0
  | .failed code => some code.val
  | .timeout | .signal _ | .internalError => none

end Ending

/-- `content` is a meta file that isolate writes for a command that ended so: the
    lines of the ending and any other lines, in any order. -/
structure IsolateMeta (content : Bytes) (ending : Ending) : Prop where
  convertible : metaConvertible content = true
  status : recordValues .status (records content) = ending.status.toList
  exitCode : (recordValues .exitcode (records content)).map stoiValue = ending.exitCode.toList
  exitSig : ∀ sig, ending = .signal sig →
    (recordValues .exitsig (records content)).map stoiValue = [sig]
  killed : ending = .timeout → recordValues .killed (records content) = ["1"]

/-- Without an `exitcode` line the field keeps its default. -/
theorem IsolateMeta.exitCode_eq {content : Bytes} {ending : Ending} {metaPath : Bytes}
    {result : SandboxResult} (h : IsolateMeta content ending)
    (hparse : parseMeta metaPath (some content) = .ok result) :
    result.exitCode = ending.exitCode.getD 0 := by
  rw [parseMeta_exitCode hparse, ← List.getLast?_map, h.exitCode]
  cases ending.exitCode <;> rfl

theorem IsolateMeta.parses {content : Bytes} {ending : Ending} (h : IsolateMeta content ending)
    (metaPath : Bytes) : ∃ result, parseMeta metaPath (some content) = .ok result := by
  have hok := (parseMeta_toBool metaPath content).trans h.convertible
  cases hparse : parseMeta metaPath (some content) with
  | ok result => exact ⟨result, rfl⟩
  | error x =>
    rw [hparse] at hok
    cases hok

/-! ## The meta files read by each step -/

variable {sb : Sandbox} {tr : Trace Op.Res}

theorem DirsMade.quiet {lang : Language} {message : Option Bytes}
    (h : DirsMade sb lang tr message) : metaReads tr = [] ∧ commands tr = [] := by
  cases h <;> exact ⟨rfl, rfl⟩

theorem StderrRead.quiet {result result' : SandboxResult}
    (h : StderrRead sb result tr result') : metaReads tr = [] ∧ commands tr = [] := by
  cases h <;> exact ⟨rfl, rfl⟩

/-- A run reads no meta file but its own. -/
theorem Ran.metaReads {language : Bytes} {timeLimitMs memoryLimitKb : Int} {stdinInput : Bytes}
    {out : Except Abort SandboxResult}
    (h : Ran sb language timeLimitMs memoryLimitKb stdinInput tr out) :
    ∀ r ∈ Host.metaReads tr, r.1 = sb.path "run_meta.txt" := by
  cases h with
  | notWritten => simp [Host.metaReads]
  | unsupported hw hlang => simp [Host.metaReads]
  | executed hw hlang hexec => cases hexec <;> simp [Host.metaReads]

/-- A compilation reads at most one meta file, after one command. Its exit code is
    the one in the file, and if the file throws then so does `compile`. -/
theorem Compiled.metaRead {language sourceCode : Bytes}
    {out : Except Abort (Sandbox × SandboxResult)} {path content : Bytes}
    (h : Compiled sb language sourceCode tr out)
    (hread : (path, some content) ∈ Host.metaReads tr) :
    (commands tr).length = 1 ∧
      ((∃ x, parseMeta path (some content) = .error x) ∨
        ∃ sb' result r, out = .ok (sb', result) ∧ parseMeta path (some content) = .ok r ∧
          result.exitCode = r.exitCode) := by
  cases h with
  | unsupported hlang => cases hread
  | noDirs hlang hdirs =>
    rw [hdirs.quiet.1] at hread
    cases hread
  | notWritten hlang hdirs =>
    rw [metaReads_append, hdirs.quiet.1] at hread
    cases hread
  | thrown hlang hdirs hw hexec =>
    rw [metaReads_append, hdirs.quiet.1] at hread
    rw [commands_append, hdirs.quiet.2]
    cases hexec with
    | thrown hret hparse =>
      simp only [Host.metaReads, List.filterMap_cons, List.filterMap_nil, List.nil_append,
        List.mem_singleton, Prod.mk.injEq] at hread
      obtain ⟨rfl, rfl⟩ := hread
      exact ⟨rfl, .inl ⟨_, hparse⟩⟩
  | @executed lang dirs tr tail w result result' hlang hdirs hw hexec htail =>
    rw [metaReads_append, hdirs.quiet.1] at hread
    rw [commands_append, hdirs.quiet.2]
    change _ ∈ Host.metaReads (tr ++ tail) at hread
    change (commands (tr ++ tail)).length = 1 ∧ _
    rw [metaReads_append, htail.quiet.1] at hread
    rw [commands_append, htail.quiet.2]
    rw [htail.eq]
    cases hexec with
    | notStarted => cases hread
    | finished hret hparse =>
      simp only [Host.metaReads, List.filterMap_cons, List.filterMap_nil, List.append_nil,
        List.mem_singleton, Prod.mk.injEq] at hread
      obtain ⟨rfl, rfl⟩ := hread
      exact ⟨rfl, .inr ⟨_, _, _, rfl, hparse, rfl⟩⟩

/-- Behind a meta file that parses, `compile` answers with the exit code in it. -/
theorem Compiled.exitCode_eq {language sourceCode : Bytes}
    {out : Except Abort (Sandbox × SandboxResult)} {path content : Bytes}
    {r : SandboxResult} (h : Compiled sb language sourceCode tr out)
    (hread : (path, some content) ∈ Host.metaReads tr)
    (hparse : parseMeta path (some content) = .ok r) :
    (commands tr).length = 1 ∧
      ∃ sb' result, out = .ok (sb', result) ∧ result.exitCode = r.exitCode := by
  obtain ⟨hcommands, ⟨x, hx⟩ | ⟨sb', result, r', hout, hparse', hresult⟩⟩ := h.metaRead hread
  · cases hparse.symm.trans hx
  · cases hparse.symm.trans hparse'
    exact ⟨hcommands, sb', result, hout, hresult⟩

end Sandbox

namespace JudgeEngine

theorem Looped.metaReads {sandbox : Sandbox} {submission : SubmissionMessage} {i : Nat}
    {p : Progress} {testcases : List TestCase} {tr : Trace Op.Res}
    {out : Except Abort JudgeResultInternal}
    (h : Looped sandbox submission i p testcases tr out) :
    ∀ r ∈ Host.metaReads tr, r.1 = sandbox.path "run_meta.txt" := by
  induction h with
  | finished => simp [Host.metaReads]
  | thrown hrun => exact hrun.metaReads
  | stopped hrun hverdict hstop =>
    rw [metaReads_append]
    intro r hr
    rcases List.mem_append.mp hr with hr | hr
    · exact hrun.metaReads r hr
    · cases hr
  | next hrun hverdict haccepted hrest ih =>
    rw [metaReads_append]
    intro r hr
    rcases List.mem_append.mp hr with hr | hr
    · exact hrun.metaReads r hr
    · exact ih r hr

/-- The submission is turned down behind its compilation: isolate has been called for
    the compiler alone, and the status is no verdict on a test case. -/
structure Rejected (tr : Trace Op.Res) (out : Except Abort JudgeResultInternal) :
    Prop where
  commands : (Host.commands tr).length = 1
  status : ∃ result, out = .ok result ∧ result.status.isVerdict = false

/-- A compilation that isolate reports as not clean is turned down exactly when the
    meta file has an `exitcode` line. -/
theorem judge_rejects_iff {cfg : IsolateConfig} {submission : SubmissionMessage}
    {tr : Trace Op.Res} {out : Except Abort JudgeResultInternal} {boxId : Int}
    {content : Bytes} {ending : Sandbox.Ending}
    (h : (judge cfg submission).Runs (⟨.acquire, boxId⟩ :: tr) out)
    (hread : (Sandbox.boxPath boxId ++ "compile_meta.txt", some content) ∈ metaReads tr)
    (hmeta : Sandbox.IsolateMeta content ending) (hstatus : ending.status ≠ none) :
    Rejected (⟨.acquire, boxId⟩ :: tr) out ↔ ending.exitCode ≠ none := by
  obtain ⟨r, hparse⟩ := hmeta.parses (Sandbox.boxPath boxId ++ "compile_meta.txt")
  have hcode := hmeta.exitCode_eq hparse
  generalize htr : (⟨.acquire, boxId⟩ :: tr : Trace Op.Res) = tr₀ at h
  cases judge_runs h with
  | compileThrown hcompile =>
    cases htr
    obtain ⟨-, sb, result, hout, -⟩ := hcompile.exitCode_eq hread hparse
    cases hout
  | @compileFailed boxId tr sandbox compileResult hcompile hexit =>
    cases htr
    have hread₁ : (Sandbox.boxPath boxId ++ "compile_meta.txt", some content) ∈ metaReads tr := by
      rw [metaReads_append] at hread
      exact (List.mem_append.mp hread).resolve_right (by simp [metaReads])
    obtain ⟨hcommands, sb, result, hout, hresult⟩ := hcompile.exitCode_eq hread₁ hparse
    cases hout
    refine ⟨fun _ hnone => ?_, fun _ => ⟨?_, _, rfl, rfl⟩⟩
    · rw [hresult, hcode, hnone] at hexit
      exact hexit rfl
    · change (Host.commands (tr ++ _)).length = 1
      rw [commands_append, List.length_append, hcommands]
      rfl
  | @looped boxId compile loop sandbox compileResult out hcompile hexit hloop =>
    cases htr
    have hbox : sandbox.boxId = boxId := hcompile.boxId
    have hread₁ : (Sandbox.boxPath boxId ++ "compile_meta.txt", some content) ∈
        metaReads compile := by
      rw [metaReads_append] at hread
      refine (List.mem_append.mp hread).resolve_right fun hr => ?_
      have hpath := hloop.metaReads _ hr
      unfold Sandbox.path at hpath
      rw [hbox] at hpath
      have hname := List.append_cancel_left hpath
      revert hname
      decide
    obtain ⟨-, sb, result, hout, hresult⟩ := hcompile.exitCode_eq hread₁ hparse
    cases hout
    rw [hresult, hcode] at hexit
    refine ⟨fun hrejected => ?_, fun hsome => ?_⟩
    · obtain ⟨result, rfl, hverdict⟩ := hrejected.status
      rw [hloop.isVerdict] at hverdict
      cases hverdict
    · cases ending with
      | clean => exact absurd rfl hstatus
      | timeout | signal | internalError => exact absurd rfl hsome
      | failed code => exact absurd hexit code.property

/-- A host on which the compiler ends as `compileMeta` says; the program runs well. -/
def compiledHost (compileMeta : Bytes) : Handler Op.Res Unit :=
  Host.fixed (Sandbox.boxFiles compileMeta "time:0.020\nexitcode:0\n" "1\n")

theorem judge_rejects_iff_failed :
    Rejected ((judge {} sampleMessage).trace (compiledHost "status:RE\nexitcode:1\n") ())
      ((judge {} sampleMessage).eval (compiledHost "status:RE\nexitcode:1\n") ()).1 := by
  have hmeta : Sandbox.IsolateMeta "status:RE\nexitcode:1\n" (.failed ⟨1, by decide⟩) := by
    refine ⟨?_, ?_, ?_, ?_, ?_⟩
    · decide +kernel
    · decide +kernel
    · decide +kernel
    · intro sig hsig
      cases hsig
    · intro hkilled
      cases hkilled
  have hruns := Prog.runs_trace (judge {} sampleMessage)
    (compiledHost "status:RE\nexitcode:1\n") ()
  exact (judge_rejects_iff hruns (by decide +kernel) hmeta (by decide)).mpr (by decide)

/-- A compiler that runs into the wall-time limit passes for one that succeeded. -/
theorem not_always_rejects :
    ¬ ∀ (cfg : IsolateConfig) (submission : SubmissionMessage) (tr : Trace Op.Res)
      (out : Except Abort JudgeResultInternal) (boxId : Int) (content : Bytes)
      (ending : Sandbox.Ending),
      (judge cfg submission).Runs (⟨.acquire, boxId⟩ :: tr) out →
      (Sandbox.boxPath boxId ++ "compile_meta.txt", some content) ∈ metaReads tr →
      Sandbox.IsolateMeta content ending → ending.status ≠ none →
      Rejected (⟨.acquire, boxId⟩ :: tr) out := by
  intro h
  have hmeta : Sandbox.IsolateMeta "time-wall:30.1\nkilled:1\nstatus:TO\n" .timeout := by
    refine ⟨?_, ?_, ?_, ?_, ?_⟩
    · decide +kernel
    · decide +kernel
    · decide +kernel
    · intro sig hsig
      cases hsig
    · intro _
      decide +kernel
  have hruns := Prog.runs_trace (judge {} sampleMessage)
    (compiledHost "time-wall:30.1\nkilled:1\nstatus:TO\n") ()
  have hrejected := h _ _ _ _ _ _ _ hruns (by decide +kernel) hmeta (by decide)
  have hcommands := hrejected.commands
  revert hcommands
  decide +kernel

/-! ## The sandbox layer -/

/-- The answers of `std::system` that say that isolate could not be executed: no shell,
    or a shell that exits with 126 or 127. -/
def isNotExecutable (ret : Int) : Bool :=
  ret == -1 || ret == 126 * 256 || ret == 127 * 256

/-- The sandbox layer fails in a run of `judge` with the events `tr`. -/
inductive SandboxFailure (submission : SubmissionMessage) (tr : Trace Op.Res) : Prop where
  | unsupportedLanguage (h : Sandbox.languageOf submission.language = none)
  | fileNotWritten {path content : Bytes} {w : Written} (hw : w ≠ .complete)
      (h : ⟨.ofstream path content, w⟩ ∈ tr)
  | directoryNotMade {path : Bytes} (h : ⟨.mkdir path, .failed⟩ ∈ tr)
  | notExecuted {cmd : Bytes} {ret : Int} (hret : isNotExecutable ret = true)
      (h : ⟨.system cmd, ret⟩ ∈ tr)
  | metaUnreadable {path : Bytes} (h : (path, none) ∈ metaReads tr)
  | internalError {path content : Bytes}
      (hstatus : ("XX" : Bytes) ∈ Sandbox.recordValues .status (Sandbox.records content))
      (h : (path, some content) ∈ metaReads tr)

/-- `judge` reports a failure of the sandbox layer. -/
def ReportsFailure (out : Except Abort JudgeResultInternal) : Prop :=
  ∃ result, out = .ok result ∧ result.status = .systemError

/-- Whatever fails in the sandbox layer, `judge` blames it on the submission or throws. -/
theorem judge_never_reports_failure {cfg : IsolateConfig} {submission : SubmissionMessage}
    {tr : Trace Op.Res} {out : Except Abort JudgeResultInternal}
    (h : (judge cfg submission).Runs tr out) (_hfailure : SandboxFailure submission tr) :
    ¬ ReportsFailure out := by
  rintro ⟨result, rfl, hsystem⟩
  rcases judge_status h with hstatus | hstatus
  · rw [hsystem] at hstatus
    cases hstatus
  · rw [hsystem] at hstatus
    cases hstatus

/-- isolate's own error in a test case, behind an output file that was there before. -/
def brokenHost : Handler Op.Res Unit :=
  Host.fixed (Sandbox.boxFiles "exitcode:0\n" "status:XX\nmessage:Cannot run proxy\n" "1\n")

theorem judge_never_reports_failure_accepted :
    ¬ ReportsFailure ((judge {} sampleMessage).eval brokenHost ()).1 := by
  refine judge_never_reports_failure (Prog.runs_trace _ brokenHost ()) ?_
  have hread : (Sandbox.boxPath 1 ++ "run_meta.txt",
      some ("status:XX\nmessage:Cannot run proxy\n" : Bytes)) ∈
      metaReads ((judge {} sampleMessage).trace brokenHost ()) := by
    decide +kernel
  exact .internalError (by decide +kernel) hread

/-- A submission in a language that is not supported. -/
def foreignMessage : SubmissionMessage :=
  { sampleMessage with language := "rust" }

/-- An unsupported language is reported as a compilation error. -/
theorem not_always_reports_failure :
    ¬ ∀ (cfg : IsolateConfig) (submission : SubmissionMessage) (tr : Trace Op.Res)
      (out : Except Abort JudgeResultInternal), (judge cfg submission).Runs tr out →
      SandboxFailure submission tr → ReportsFailure out := by
  intro h
  obtain ⟨result, hout, hsystem⟩ := h {} foreignMessage _ _
    (Prog.runs_trace _ (compiledHost "exitcode:0\n") ()) (.unsupportedLanguage (by decide))
  have heval : ((judge {} foreignMessage).eval (compiledHost "exitcode:0\n") ()).1 =
      .ok { status := .compilationError
            compilerOutput := "Unsupported language: rust"
            errorMessage := "Unsupported language: rust" } := by
    decide +kernel
  rw [heval] at hout
  cases hout
  cases hsystem

end JudgeEngine
