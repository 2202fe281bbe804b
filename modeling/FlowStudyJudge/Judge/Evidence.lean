-- SUMMARY: What an accepted test case rests on: the call of isolate behind it, its exit code and the files it wrote.
import FlowStudyJudge.Judge.Box
import FlowStudyJudge.Judge.Verdicts

/-! # Evidence for an acceptance -/

open Sandbox (boxPath)
open HostFs (boxDir)

namespace Call

/-- What `run` makes of the files that a call leaves. -/
def runResult (boxId : Int) (call : Call) : Except StdException SandboxResult :=
  (Sandbox.parseMeta (boxPath boxId ++ "run_meta.txt")
      (call.after (boxPath boxId ++ "run_meta.txt"))).map fun r =>
    { r with
      stdoutOutput := (call.after (boxPath boxId ++ "output.txt")).getD []
      stderrOutput := (call.after (boxPath boxId ++ "error.txt")).getD []
      timedOut := decide (r.status = "TO") }

/-- The files that a call leaves get a test case through the cascade of `judge`. -/
def Passes (boxId memoryLimitKb : Int) (expectedOutput : Bytes) (call : Call) : Prop :=
  ∃ result, call.runResult boxId = .ok result ∧
    JudgeEngine.Passes memoryLimitKb expectedOutput result

/-- The result of a call that passes does. -/
theorem Passes.of_runResult {boxId memoryLimitKb : Int} {expectedOutput : Bytes} {call : Call}
    {runResult : SandboxResult} (h : call.Passes boxId memoryLimitKb expectedOutput)
    (hresult : call.runResult boxId = .ok runResult) :
    JudgeEngine.Passes memoryLimitKb expectedOutput runResult := by
  obtain ⟨r, hr, hpass⟩ := h
  have hsame : r = runResult := Except.ok.inj (hr.symm.trans hresult)
  exact hsame ▸ hpass

/-- The contract of isolate: it exits with code 0 only for a program that ran and ended
    well, and has written the meta file and the output then. -/
def Honest (boxId : Int) (call : Call) : Prop :=
  call.ret = 0 → call.rewrites (boxPath boxId ++ "run_meta.txt") = true ∧
    call.rewrites (boxPath boxId ++ "output.txt") = true

instance (boxId : Int) (call : Call) : Decidable (call.Honest boxId) :=
  inferInstanceAs (Decidable (_ → _))

end Call

namespace Sandbox

variable {sb : Sandbox} {tr : Trace Op.Res} {b b' : Box}

/-- `execute` makes one call, and reads what the call leaves. -/
theorem Executed.box {args : List Bytes} {f : Bytes} {result : SandboxResult}
    (h : Executed sb args f tr (.ok result)) (hpath : Box.world.Path b tr b') :
    ∃ call, b'.calls = b.calls ++ [call] ∧ b'.fresh = call.freshAfter ∧
      (call.ret = -1 ∧ result = failure "Failed to execute isolate binary" ∨
        call.ret ≠ -1 ∧ ∃ r, parseMeta (sb.path f) (call.after (sb.path f)) = .ok r ∧
          result = { r with
            stdoutOutput := (call.after (sb.path "output.txt")).getD []
            stderrOutput := (call.after (sb.path "error.txt")).getD [] }) := by
  cases h with
  | notStarted =>
    obtain ⟨b₁, hcall, hnil⟩ := World.path_cons.mp hpath
    obtain rfl := World.path_nil.mp hnil
    obtain ⟨changes, rfl⟩ := Box.world_system hcall
    exact ⟨_, rfl, rfl, .inl ⟨rfl, rfl⟩⟩
  | finished hret hparse =>
    simp only [World.path_cons, World.path_nil, Box.world_ifstream] at hpath
    obtain ⟨b₁, hcall, _, ⟨rfl, rfl⟩, _, ⟨rfl, rfl⟩, _, ⟨rfl, rfl⟩, rfl⟩ := hpath
    obtain ⟨changes, rfl⟩ := Box.world_system hcall
    exact ⟨_, rfl, rfl, .inr ⟨hret, _, hparse, rfl⟩⟩

/-- `run` makes at most one call; without one, or when the call does not start, it
    reports a failure. -/
theorem Ran.box {language : Bytes} {timeLimitMs memoryLimitKb : Int} {stdinInput : Bytes}
    {result : SandboxResult}
    (h : Ran sb language timeLimitMs memoryLimitKb stdinInput tr (.ok result))
    (hpath : Box.world.Path b tr b') :
    result.exitCode ≠ 0 ∧ b'.calls = b.calls ∨
      ∃ call, b'.calls = b.calls ++ [call] ∧
        (call.ret = -1 ∧ result.exitCode ≠ 0 ∨
          call.ret ≠ -1 ∧ call.runResult sb.boxId = .ok result) := by
  generalize hout : (Except.ok result : Except Abort SandboxResult) = out at h
  cases h with
  | notWritten =>
    cases hout
    exact .inl ⟨by decide, Box.path_calls hpath (by simp)⟩
  | unsupported hw hlang =>
    cases hout
    exact .inl ⟨by simp [failure], Box.path_calls hpath (by simp)⟩
  | @executed w lang tr out hw hlang hexec =>
    cases out with
    | error x => cases hout
    | ok r =>
      cases hout
      obtain ⟨b₁, hwrite, hpath₁⟩ := World.path_cons.mp hpath
      have hcalls := Box.world_calls hwrite (by simp)
      obtain ⟨call, hcall, -, hresult⟩ := hexec.box hpath₁
      rw [hcalls] at hcall
      refine .inr ⟨call, hcall, ?_⟩
      rcases hresult with ⟨hret, rfl⟩ | ⟨hret, r', hparse, rfl⟩
      · exact .inl ⟨hret, by decide⟩
      · refine .inr ⟨hret, ?_⟩
        unfold path at hparse
        simp only [Call.runResult, hparse]
        rfl

/-- A run that passes is the result of its call. -/
theorem Ran.box_of_passes {language : Bytes} {timeLimitMs memoryLimitKb : Int} {stdinInput : Bytes}
    {result : SandboxResult}
    (h : Ran sb language timeLimitMs memoryLimitKb stdinInput tr (.ok result))
    (hpath : Box.world.Path b tr b') {limitKb : Int} {expectedOutput : Bytes}
    (hpass : JudgeEngine.Passes limitKb expectedOutput result) :
    ∃ call, b'.calls = b.calls ++ [call] ∧ call.ret ≠ -1 ∧
      call.runResult sb.boxId = .ok result := by
  rcases h.box hpath with ⟨hexit, -⟩ | ⟨call, hcall, ⟨-, hexit⟩ | ⟨hret, hr⟩⟩
  · exact absurd hpass.exitCode hexit
  · exact absurd hpass.exitCode hexit
  · exact ⟨call, hcall, hret, hr⟩

/-- `compile` makes at most one call, and exactly one if it reports success, which is then
    what the meta file says. -/
theorem Compiled.box {language sourceCode : Bytes} {sb' : Sandbox} {result : SandboxResult}
    (h : Compiled sb language sourceCode tr (.ok (sb', result)))
    (hpath : Box.world.Path b tr b') :
    result.exitCode ≠ 0 ∧ b'.calls = b.calls ∨
      ∃ call, b'.calls = b.calls ++ [call] ∧
        (∀ loc, call.freshAfter loc = true → b'.fresh loc = true) ∧
        (result.exitCode = 0 → ∃ r, r.exitCode = 0 ∧
          parseMeta (sb.path "compile_meta.txt") (call.after (sb.path "compile_meta.txt")) =
            .ok r) := by
  cases h with
  | unsupported hlang => exact .inl ⟨by simp [failure], by rw [World.path_nil.mp hpath]⟩
  | noDirs hlang hdirs => exact .inl ⟨by simp [failure], Box.path_calls hpath hdirs.noCommand⟩
  | notWritten hlang hdirs =>
    obtain ⟨b₁, hp, hwrite⟩ := World.path_append.mp hpath
    refine .inl ⟨by simp [failure], ?_⟩
    rw [Box.path_calls hwrite (by simp), Box.path_calls hp hdirs.noCommand]
  | executed hlang hdirs hw hexec htail =>
    obtain ⟨b₁, hp, hrest⟩ := World.path_append.mp hpath
    obtain ⟨b₂, hwrite, hrest₂⟩ := World.path_cons.mp hrest
    obtain ⟨b₃, hexecPath, htailPath⟩ := World.path_append.mp hrest₂
    obtain ⟨call, hcall, hfresh, hresult⟩ := hexec.box hexecPath
    refine .inr ⟨call, ?_, fun loc hloc => ?_, fun hexit => ?_⟩
    · rw [Box.path_calls htailPath htail.noCommand, hcall, Box.world_calls hwrite (by simp),
        Box.path_calls hp hdirs.noCommand]
    · exact (Box.grown_of_path htailPath).fresh loc (hfresh ▸ hloc)
    · rw [htail.eq] at hexit
      rcases hresult with ⟨-, rfl⟩ | ⟨-, r, hparse, rfl⟩
      · cases hexit
      · exact ⟨r, hexit, hparse⟩

theorem Compiled.one_call {language sourceCode : Bytes}
    {out : Except Abort (Sandbox × SandboxResult)} (h : Compiled sb language sourceCode tr out) (hpath : Box.world.Path b tr b') :
    b'.calls.length ≤ b.calls.length + 1 := by
  cases out with
  | ok c =>
    rcases h.box hpath with ⟨-, hcalls⟩ | ⟨call, hcalls, -⟩ <;> simp [hcalls]
  | error x =>
    cases h with
    | thrown hlang hdirs hw hexec =>
      obtain ⟨b₁, hp, hrest⟩ := World.path_append.mp hpath
      obtain ⟨b₂, hwrite, hexecPath⟩ := World.path_cons.mp hrest
      have hbefore : b₂.calls = b.calls := by
        rw [Box.world_calls hwrite (by simp), Box.path_calls hp hdirs.noCommand]
      cases hexec with
      | thrown hret hparse =>
        simp only [World.path_cons, World.path_nil, Box.world_ifstream] at hexecPath
        obtain ⟨b₃, hcall, _, ⟨rfl, rfl⟩, rfl⟩ := hexecPath
        obtain ⟨changes, rfl⟩ := Box.world_system hcall
        simp [hbefore]

end Sandbox

namespace JudgeEngine

/-- The recorded case `c` comes from what the call left, and passed. -/
structure Examined (boxId memoryLimitKb : Int) (tc : TestCase) (call : Call)
    (c : JudgeCaseResultInternal) : Prop where
  started : call.ret ≠ -1
  passes : ∃ r, call.runResult boxId = .ok r ∧ Passes memoryLimitKb tc.expectedOutput r ∧
    c.timeUsedMs = r.timeUsedMs ∧ c.memoryUsedKb = r.memoryUsedKb ∧
    c.actualOutput = r.stdoutOutput

/-- The calls of the loop and the cases it records go together: an accepted case was
    examined on its call, and a call that passes gets its case accepted. -/
theorem Looped.box {sandbox : Sandbox} {submission : SubmissionMessage} {i : Nat}
    {p : Progress} {testcases : List TestCase} {tr : Trace Op.Res}
    {result : JudgeResultInternal} {b b' : Box}
    (h : Looped sandbox submission i p testcases tr (.ok result))
    (hpath : Box.world.Path b tr b') :
    ∃ calls cases, b'.calls = b.calls ++ calls ∧ result.caseResults = p.caseResults ++ cases ∧
      (∀ (k : Nat) (c : JudgeCaseResultInternal), cases[k]? = some c → c.status = .accepted →
        ∃ tc call, testcases[k]? = some tc ∧ calls[k]? = some call ∧
          Examined sandbox.boxId submission.memoryLimitKb tc call c) ∧
      (∀ (k : Nat) (tc : TestCase) (call : Call), testcases[k]? = some tc →
        calls[k]? = some call → call.ret ≠ -1 →
        call.Passes sandbox.boxId submission.memoryLimitKb tc.expectedOutput →
        ∃ c, cases[k]? = some c ∧ c.status = .accepted) := by
  generalize hout : (Except.ok result : Except Abort JudgeResultInternal) = out at h
  induction h generalizing b with
  | finished =>
    cases hout
    refine ⟨[], [], ?_, (List.append_nil _).symm, ?_, ?_⟩
    · rw [Box.path_calls hpath (by simp), List.append_nil]
    · intro k c hk
      cases hk
    · intro k tc call hk
      cases hk
  | thrown hrun => cases hout
  | @stopped i p tc rest tr runResult verdict hrun hverdict hstop =>
    cases hout
    obtain ⟨b₁, hrunPath, hrelease⟩ := World.path_append.mp hpath
    have hcalls := Box.path_calls hrelease (by simp)
    have hcase : ∀ (k : Nat) (c : JudgeCaseResultInternal),
        [caseResult i tc runResult verdict][k]? = some c → c.status ≠ .accepted := by
      intro k c hk
      cases k with
      | zero =>
        cases hk
        exact hstop
      | succ k => cases hk
    rcases hrun.box hrunPath with ⟨hexit, hnone⟩ | ⟨call, hcall, hresult⟩
    · refine ⟨[], [caseResult i tc runResult verdict], ?_, rfl, ?_, ?_⟩
      · rw [hcalls, hnone, List.append_nil]
      · intro k c hk haccepted
        exact absurd haccepted (hcase k c hk)
      · intro k tc' call hk hcall
        cases hcall
    · refine ⟨[call], [caseResult i tc runResult verdict], ?_, rfl, ?_, ?_⟩
      · rw [hcalls, hcall]
      · intro k c hk haccepted
        exact absurd haccepted (hcase k c hk)
      · intro k tc' call' hk hcall' hret hpasses
        cases k with
        | succ k => cases hcall'
        | zero =>
          cases hk
          cases hcall'
          rcases hresult with ⟨hfailed, -⟩ | ⟨-, hrunResult⟩
          · exact absurd hfailed hret
          · rw [← hverdict] at hstop
            exact absurd (caseVerdict_accepted.mpr (hpasses.of_runResult hrunResult)) hstop
  | @next i p tc rest tr tr' runResult verdict out hrun hverdict haccepted hrest ih =>
    obtain ⟨b₁, hrunPath, hrestPath⟩ := World.path_append.mp hpath
    obtain ⟨calls, cases, hcalls, hcases, hexamined, hcomplete⟩ := ih hrestPath hout
    have hpass : Passes submission.memoryLimitKb tc.expectedOutput runResult := by
      rw [← hverdict] at haccepted
      exact caseVerdict_accepted.mp haccepted
    obtain ⟨call, hcall, hret, hrunResult⟩ := hrun.box_of_passes hrunPath hpass
    refine ⟨call :: calls, caseResult i tc runResult verdict :: cases, ?_, ?_, ?_, ?_⟩
    · rw [hcalls, hcall, List.append_assoc]
      rfl
    · rw [hcases]
      simp [Progress.record]
    · intro k c hk hstatus
      cases k with
      | zero =>
        cases hk
        exact ⟨tc, call, rfl, rfl, hret, runResult, hrunResult, hpass, rfl, rfl, rfl⟩
      | succ k => exact hexamined k c hk hstatus
    · intro k tc' call' hk hcall' hret' hpasses
      cases k with
      | zero => exact ⟨caseResult i tc runResult verdict, rfl, haccepted⟩
      | succ k => exact hcomplete k tc' call' hk hcall' hret' hpasses

/-- The acceptance of the case `c` has its evidence in the call: isolate exited with
    code 0, and what was examined is what it wrote. -/
structure Evidence (boxId : Int) (call : Call) (c : JudgeCaseResultInternal) : Prop where
  exited : call.ret = 0
  wroteMeta : call.rewrites (boxPath boxId ++ "run_meta.txt") = true
  wroteOutput : call.rewrites (boxPath boxId ++ "output.txt") = true
  examined : ∃ r, call.runResult boxId = .ok r ∧ c.timeUsedMs = r.timeUsedMs ∧
    c.memoryUsedKb = r.memoryUsedKb ∧ c.actualOutput = r.stdoutOutput

/-- Every accepted case has its evidence exactly when no call that exits with another
    code than 0 leaves files that pass. The call of test case number `k` is the one
    behind the compiler's and those of the test cases before it. -/
theorem judge_evidence_iff {cfg : IsolateConfig} {submission : SubmissionMessage} {boxId : Int}
    {fs : HostFs} {tr : Trace Op.Res} {result : JudgeResultInternal} {b : Box}
    (h : (judge cfg submission).Runs (⟨.acquire, boxId⟩ :: tr) (.ok result))
    (hpath : Box.world.Path (Box.start fs) (⟨.acquire, boxId⟩ :: tr) b)
    (hisolate : ∀ k call, b.calls[k + 1]? = some call → call.Honest boxId) :
    (∀ (k : Nat) (c : JudgeCaseResultInternal), result.caseResults[k]? = some c →
      c.status = .accepted → ∃ call, b.calls[k + 1]? = some call ∧ Evidence boxId call c) ↔
    ∀ (k : Nat) (tc : TestCase) (call : Call), submission.testcases[k]? = some tc →
      b.calls[k + 1]? = some call → call.ret ≠ 0 → call.ret ≠ -1 →
      ¬ call.Passes boxId submission.memoryLimitKb tc.expectedOutput := by
  generalize htr : (⟨.acquire, boxId⟩ :: tr : Trace Op.Res) = tr₀ at h hpath
  generalize hout : (Except.ok result : Except Abort JudgeResultInternal) = out at h
  cases judge_runs h with
  | compileThrown hcompile => cases hout
  | @compileFailed boxId' compile sandbox compileResult hcompile hexit =>
    cases htr
    cases hout
    obtain ⟨b₁, hacquire, hpath₁⟩ := World.path_cons.mp hpath
    obtain ⟨b₂, hcompilePath, hrelease⟩ := World.path_append.mp hpath₁
    have hstart := Box.world_calls hacquire (by simp)
    have hend := Box.path_calls hrelease (by simp)
    have hnone : ∀ k, b.calls[k + 1]? = none := by
      intro k
      rw [hend]
      rcases hcompile.box hcompilePath with ⟨-, hcalls⟩ | ⟨call, hcalls, -⟩
      · rw [hcalls, hstart]
        rfl
      · rw [hcalls, hstart]
        rfl
    refine ⟨fun _ k tc call _ hcall => ?_, fun _ k c hk => by cases hk⟩
    rw [hnone k] at hcall
    cases hcall
  | @looped boxId' compile loop sandbox compileResult out hcompile hexit hloop =>
    cases htr
    cases hout
    obtain ⟨b₁, hacquire, hpath₁⟩ := World.path_cons.mp hpath
    obtain ⟨b₂, hcompilePath, hloopPath⟩ := World.path_append.mp hpath₁
    have hstart : b₁.calls = [] := Box.world_calls hacquire (by simp)
    have hbox : sandbox.boxId = boxId := hcompile.boxId
    obtain ⟨compileCall, hcompileCall⟩ : ∃ call, b₂.calls = [call] := by
      rcases hcompile.box hcompilePath with ⟨hfailed, -⟩ | ⟨call, hcall, -⟩
      · exact absurd hexit hfailed
      · rw [hstart] at hcall
        exact ⟨call, hcall⟩
    obtain ⟨calls, cases, hcalls, hcases, hexamined, hcomplete⟩ := hloop.box hloopPath
    have hcall : ∀ k, b.calls[k + 1]? = calls[k]? := by
      intro k
      rw [hcalls, hcompileCall]
      rfl
    have hresult : result.caseResults = cases := by simpa using hcases
    simp only [hcall] at hisolate ⊢
    rw [hresult]
    rw [hbox] at hexamined hcomplete
    refine ⟨fun hall k tc call htc hk hret hstarted hpasses => ?_, fun hall k c hk haccepted => ?_⟩
    · obtain ⟨c, hc, haccepted⟩ := hcomplete k tc call htc hk hstarted hpasses
      obtain ⟨call', hk', hevidence⟩ := hall k c hc haccepted
      rw [hk] at hk'
      cases hk'
      exact hret hevidence.exited
    · obtain ⟨tc, call, htc, hk', hexam⟩ := hexamined k c hk haccepted
      obtain ⟨r, hr, hpass, htime, hmemory, houtput⟩ := hexam.passes
      have hexited : call.ret = 0 := by
        by_contra hret
        exact hall k tc call htc hk' hret hexam.started ⟨r, hr, hpass⟩
      obtain ⟨hmeta, hwrote⟩ := hisolate k call hk' hexited
      exact ⟨call, hk', hexited, hmeta, hwrote, r, hr, htime, hmemory, houtput⟩

/-- An isolate that compiles when there is no `compile_meta.txt` yet. A program exits with
    `ret`, behind the meta file `runMeta` and, if it runs at all, the output `1`. -/
def oneShotIsolate (ret : Int) (runMeta : Bytes) (output : List (Bytes × Bytes)) :
    Box.Isolate := fun _ contents =>
  if contents ["compile_meta.txt"] = none then
    (0, Box.writes [("compile_meta.txt", "exitcode:0\n")])
  else (ret, Box.writes (("run_meta.txt", runMeta) :: output))

/-- The result of `sampleMessage` when its test case passes. -/
def passedResult : JudgeResultInternal :=
  { status := .accepted
    caseResults :=
      [{ status := .accepted, caseIndex := 1, actualOutput := "1\n", expectedOutput := "1" }] }

/-- The calls for the test cases. -/
theorem mem_runs {calls : List Call} {k : Nat} {call : Call} (h : calls[k + 1]? = some call) :
    call ∈ calls.drop 1 := by
  have hdrop : (calls.drop 1)[k]? = some call := by
    rw [List.getElem?_drop, Nat.add_comm]
    exact h
  exact List.mem_of_getElem? hdrop

theorem judge_evidence_iff_honest :
    let host := Box.host {} (oneShotIsolate 0 "exitcode:0\n" [("output.txt", "1\n")]) 1
    let b := ((judge {} sampleMessage).eval host (Box.start (Box.emptyBox 1))).2
    ∃ call, b.calls[1]? = some call ∧
      Evidence 1 call { status := .accepted, caseIndex := 1, actualOutput := "1\n",
                        expectedOutput := "1" } := by
  intro host b
  have hruns : (judge {} sampleMessage).Runs
      ((judge {} sampleMessage).trace host (Box.start (Box.emptyBox 1))) (.ok passedResult) :=
    Prog.runs_trace_of_eval (by decide +kernel)
  have hpath : Box.world.Path (Box.start (Box.emptyBox 1))
      ((judge {} sampleMessage).trace host (Box.start (Box.emptyBox 1))) b :=
    Prog.path_trace _ Box.host_world _
  have hhonest : ∀ call ∈ b.calls.drop 1, call.Honest 1 ∧ call.ret = 0 := by decide +kernel
  have hiff := judge_evidence_iff hruns hpath fun k call hk => (hhonest call (mem_runs hk)).1
  refine hiff.mpr (fun k tc call _ hk hret => ?_) 0 _ rfl rfl
  exact absurd (hhonest call (mem_runs hk)).2 hret

/-- An internal error of isolate is accepted on the output file of an earlier program. -/
theorem not_always_evidence :
    ¬ ∀ (cfg : IsolateConfig) (submission : SubmissionMessage) (boxId : Int)
      (fs : HostFs) (tr : Trace Op.Res) (result : JudgeResultInternal) (b : Box),
      (judge cfg submission).Runs (⟨.acquire, boxId⟩ :: tr) (.ok result) →
      Box.world.Path (Box.start fs) (⟨.acquire, boxId⟩ :: tr) b →
      (∀ k call, b.calls[k + 1]? = some call → call.Honest boxId) →
      ∀ (k : Nat) (c : JudgeCaseResultInternal), result.caseResults[k]? = some c →
        c.status = .accepted → ∃ call, b.calls[k + 1]? = some call ∧ Evidence boxId call c := by
  intro h
  let host := Box.host {} (oneShotIsolate 512 "status:XX\nmessage:Cannot run proxy\n" []) 1
  let fs := (Box.emptyBox 1).put (boxDir 1 ++ [("output.txt" : Bytes)]) (.file "1\n")
  let b := ((judge {} sampleMessage).eval host (Box.start fs)).2
  have hruns : (judge {} sampleMessage).Runs
      ((judge {} sampleMessage).trace host (Box.start fs)) (.ok passedResult) :=
    Prog.runs_trace_of_eval (by decide +kernel)
  have hpath : Box.world.Path (Box.start fs)
      ((judge {} sampleMessage).trace host (Box.start fs)) b :=
    Prog.path_trace _ Box.host_world _
  have hhonest : ∀ call ∈ b.calls.drop 1, call.Honest 1 ∧ call.ret = 512 := by decide +kernel
  obtain ⟨call, hk, hevidence⟩ := h _ _ _ _ _ _ _ hruns hpath
    (fun k call hk => (hhonest call (mem_runs hk)).1) 0 _ rfl rfl
  have hret := (hhonest call (mem_runs hk)).2
  rw [hevidence.exited] at hret
  cases hret

end JudgeEngine
