-- SUMMARY: Test cases are judged from left to right: those behind the deciding one make no difference, and an accepted submission is accepted by fewer.
import FlowStudyJudge.Judge.Consistency

/-! # Early exit -/

namespace JudgeEngine

/-- The loop looks at no test case but those it is given. -/
theorem judgeTestcases_testcases (sandbox : Sandbox) (submission : SubmissionMessage)
    (ts : List TestCase) (i : Nat) (p : Progress) (testcases : List TestCase) :
    judgeTestcases sandbox { submission with testcases := ts } i p testcases =
      judgeTestcases sandbox submission i p testcases := by
  induction testcases generalizing i p with
  | nil => rfl
  | cons tc rest ih => simp only [judgeTestcases, ih]

variable {sandbox : Sandbox} {submission : SubmissionMessage} {i : Nat} {p : Progress}
  {testcases : List TestCase} {tr : Trace Op.Res} {result : JudgeResultInternal}

/-- One test case and what follows it, where the loop returns. -/
theorem judgeTestcases_cons_runs {tc : TestCase} :
    (judgeTestcases sandbox submission i p (tc :: testcases)).Runs tr (.ok result) ↔
      ∃ runResult tr₁ tr₂ verdict, (sandbox.run submission.language submission.timeLimitMs
          submission.memoryLimitKb tc.input).Runs tr₁ (.ok runResult) ∧ tr = tr₁ ++ tr₂ ∧
        caseVerdict submission.memoryLimitKb i tc.expectedOutput runResult = verdict ∧
        ((verdict.1 = .accepted ∧ (judgeTestcases sandbox submission (i + 1)
            (p.record runResult (caseResult i tc runResult verdict)) testcases).Runs tr₂
              (.ok result)) ∨
          (verdict.1 ≠ .accepted ∧ tr₂ = [⟨.release sandbox.boxId, ()⟩] ∧
            result = (p.record runResult (caseResult i tc runResult verdict)).result verdict
              (Json.castInt i))) := by
  constructor
  · intro h
    unfold judgeTestcases at h
    rcases Prog.runs_bind.mp h with ⟨runResult, tr₁, tr₂, h₁, h₂, rfl⟩ | ⟨x, -, hx⟩
    · refine ⟨runResult, tr₁, tr₂, _, h₁, rfl, rfl, ?_⟩
      simp only at h₂
      split at h₂
      · rename_i haccepted
        exact .inl ⟨haccepted, h₂⟩
      · rename_i hstop
        unfold Host.release at h₂
        obtain ⟨-, tr', rfl, h₃⟩ := Prog.runs_perform_bind.mp h₂
        obtain ⟨rfl, hresult⟩ := Prog.runs_done.mp h₃
        exact .inr ⟨hstop, rfl, Except.ok.inj hresult⟩
    · cases hx
  · rintro ⟨runResult, tr₁, tr₂, verdict, h₁, rfl, rfl, h₂⟩
    unfold judgeTestcases
    refine Prog.runs_bind.mpr (.inl ⟨runResult, tr₁, tr₂, h₁, ?_, rfl⟩)
    rcases h₂ with ⟨haccepted, hrest⟩ | ⟨hstop, rfl, rfl⟩
    · simp only [if_pos haccepted]
      exact hrest
    · simp only [if_neg hstop]
      exact .exec .done

/-- Behind the deciding test case the loop could have had any others. -/
theorem judgeTestcases_decided
    (h : (judgeTestcases sandbox submission i p testcases).Runs tr (.ok result))
    (hstop : result.status ≠ .accepted) :
    ∃ k, result.caseResults.length = p.caseResults.length + k ∧
      ∀ ts : List TestCase, ts.take k = testcases.take k →
        (judgeTestcases sandbox submission i p ts).Runs tr (.ok result) := by
  induction testcases generalizing i p tr with
  | nil =>
    unfold judgeTestcases Host.release at h
    obtain ⟨-, tr', rfl, h₁⟩ := Prog.runs_perform_bind.mp h
    obtain ⟨-, hresult⟩ := Prog.runs_done.mp h₁
    cases hresult
    exact absurd rfl hstop
  | cons tc rest ih =>
    obtain ⟨runResult, tr₁, tr₂, verdict, hrun, rfl, hverdict, hnext⟩ :=
      judgeTestcases_cons_runs.mp h
    rcases hnext with ⟨haccepted, hrest⟩ | ⟨hstop', rfl, rfl⟩
    · obtain ⟨k, hlength, hsame⟩ := ih hrest
      refine ⟨k + 1, ?_, fun ts hts => ?_⟩
      · rw [hlength]
        simp only [Progress.record, List.length_append, List.length_singleton]
        omega
      · cases ts with
        | nil => cases hts
        | cons tc' ts =>
          obtain ⟨rfl, htail⟩ := List.cons.inj hts
          exact judgeTestcases_cons_runs.mpr
            ⟨runResult, tr₁, tr₂, verdict, hrun, rfl, hverdict, .inl ⟨haccepted, hsame ts htail⟩⟩
    · refine ⟨1, by simp [Progress.result, Progress.record], fun ts hts => ?_⟩
      cases ts with
      | nil => cases hts
      | cons tc' ts =>
        obtain ⟨rfl, -⟩ := List.cons.inj hts
        exact judgeTestcases_cons_runs.mpr
          ⟨runResult, tr₁, _, verdict, hrun, rfl, hverdict, .inr ⟨hstop', rfl, rfl⟩⟩

theorem judgeTestcases_nil_runs :
    (judgeTestcases sandbox submission i p []).Runs [⟨.release sandbox.boxId, ()⟩]
      (.ok (p.result (.accepted, []) (-1))) :=
  .exec .done

/-- A loop that accepts also accepts when it is given fewer test cases: it makes the same
    calls until it releases the box. -/
theorem judgeTestcases_accepted
    (h : (judgeTestcases sandbox submission i p testcases).Runs tr (.ok result))
    (haccepted : result.status = .accepted) :
    p.caseResults <+: result.caseResults ∧
    ∀ n, ∃ before result', before <+: tr ∧
      (judgeTestcases sandbox submission i p (testcases.take n)).Runs
        (before ++ [⟨.release sandbox.boxId, ()⟩]) (.ok result') ∧
      result'.status = .accepted ∧
      result'.caseResults = result.caseResults.take (p.caseResults.length + n) := by
  induction testcases generalizing i p tr with
  | nil =>
    unfold judgeTestcases Host.release at h
    obtain ⟨-, tr', rfl, h₁⟩ := Prog.runs_perform_bind.mp h
    obtain ⟨-, hresult⟩ := Prog.runs_done.mp h₁
    cases hresult
    refine ⟨List.prefix_rfl, fun n => ?_⟩
    refine ⟨[], p.result (.accepted, []) (-1), List.nil_prefix, ?_, rfl, ?_⟩
    · rw [List.take_nil]
      exact judgeTestcases_nil_runs
    · exact (List.take_of_length_le (Nat.le_add_right ..)).symm
  | cons tc rest ih =>
    obtain ⟨runResult, tr₁, tr₂, verdict, hrun, rfl, hverdict, hnext⟩ :=
      judgeTestcases_cons_runs.mp h
    rcases hnext with ⟨hfirst, hrest⟩ | ⟨hstop, rfl, rfl⟩
    · obtain ⟨hbegins, hfewer⟩ := ih hrest
      have hbefore : p.caseResults <+: result.caseResults :=
        (List.prefix_append ..).trans hbegins
      refine ⟨hbefore, fun n => ?_⟩
      cases n with
      | zero =>
        exact ⟨[], _, List.nil_prefix, judgeTestcases_nil_runs, rfl,
          List.prefix_iff_eq_take.mp hbefore⟩
      | succ n =>
        obtain ⟨before, result', hcalls, hruns, hstatus, hcases⟩ := hfewer n
        refine ⟨tr₁ ++ before, result', (List.prefix_append_right_inj tr₁).mpr hcalls, ?_,
          hstatus, ?_⟩
        · rw [List.append_assoc]
          exact judgeTestcases_cons_runs.mpr
            ⟨runResult, tr₁, _, verdict, hrun, rfl, hverdict, .inl ⟨hfirst, hruns⟩⟩
        · rw [hcases]
          congr 1
          simp only [Progress.record, List.length_append, List.length_singleton]
          omega
    · exact absurd haccepted hstop

/-- A run of `judge` that returns: the compiler has failed, or the loop follows. -/
theorem judge_ok_runs {cfg : IsolateConfig} :
    (judge cfg submission).Runs tr (.ok result) ↔
      ∃ boxId tr₁ tr₂ sandbox compileResult, tr = ⟨.acquire, boxId⟩ :: (tr₁ ++ tr₂) ∧
        ((Sandbox.make boxId cfg).compile submission.language submission.code).Runs tr₁
          (.ok (sandbox, compileResult)) ∧
        ((compileResult.exitCode ≠ 0 ∧ tr₂ = [⟨.release boxId, ()⟩] ∧
            result = { status := .compilationError
                       compilerOutput := compileResult.stderrOutput
                       errorMessage := compileResult.stderrOutput }) ∨
          (compileResult.exitCode = 0 ∧
            (judgeTestcases sandbox submission 0 {} submission.testcases).Runs tr₂
              (.ok result))) := by
  constructor
  · intro h
    unfold judge Host.acquire at h
    obtain ⟨boxId, tr', rfl, h₁⟩ := Prog.runs_perform_bind.mp h
    rcases Prog.runs_bind.mp h₁ with ⟨⟨sandbox, compileResult⟩, tr₁, tr₂, h₂, h₃, rfl⟩ | ⟨x, -, hx⟩
    · refine ⟨boxId, tr₁, tr₂, sandbox, compileResult, rfl, h₂, ?_⟩
      simp only at h₃
      split at h₃
      · rename_i hexit
        unfold Host.release at h₃
        obtain ⟨-, tr', rfl, h₄⟩ := Prog.runs_perform_bind.mp h₃
        obtain ⟨rfl, hresult⟩ := Prog.runs_done.mp h₄
        exact .inl ⟨hexit, rfl, Except.ok.inj hresult⟩
      · rename_i hexit
        exact .inr ⟨not_not.mp hexit, h₃⟩
    · cases hx
  · rintro ⟨boxId, tr₁, tr₂, sandbox, compileResult, rfl, hcompile, hrest⟩
    unfold judge Host.acquire
    refine Prog.runs_perform_bind.mpr ⟨boxId, _, rfl, ?_⟩
    refine Prog.runs_bind.mpr (.inl ⟨_, tr₁, tr₂, hcompile, ?_, rfl⟩)
    rcases hrest with ⟨hexit, rfl, rfl⟩ | ⟨hexit, hloop⟩
    · simp only [if_pos hexit]
      exact .exec .done
    · simp only [if_neg (not_not.mpr hexit)]
      exact hloop

/-- A submission that is not accepted is judged the same, call by call, whatever test cases
    it has behind the deciding one. An accepted one is accepted by its first test cases
    alone, with the same results and the same calls until the box is released. -/
theorem judge_leftToRight {cfg : IsolateConfig} (h : (judge cfg submission).Runs tr (.ok result)) :
    (result.status ≠ .accepted →
      ∀ ts : List TestCase, ts.take result.caseResults.length =
          submission.testcases.take result.caseResults.length →
        (judge cfg { submission with testcases := ts }).Runs tr (.ok result)) ∧
    (result.status = .accepted →
      ∀ n, ∃ before boxId result', before <+: tr ∧
        (judge cfg { submission with testcases := submission.testcases.take n }).Runs
          (before ++ [⟨.release boxId, ()⟩]) (.ok result') ∧ result'.status = .accepted ∧
        result'.caseResults = result.caseResults.take n) := by
  obtain ⟨boxId, tr₁, tr₂, sandbox, compileResult, rfl, hcompile, hrest⟩ := judge_ok_runs.mp h
  rcases hrest with ⟨hexit, rfl, rfl⟩ | ⟨hexit, hloop⟩
  · refine ⟨fun _ ts _ => ?_, nofun⟩
    exact judge_ok_runs.mpr ⟨boxId, tr₁, _, sandbox, compileResult, rfl, hcompile,
      .inl ⟨hexit, rfl, rfl⟩⟩
  · refine ⟨fun hstop ts hts => ?_, fun haccepted n => ?_⟩
    · obtain ⟨k, hlength, hsame⟩ := judgeTestcases_decided hloop hstop
      obtain rfl : result.caseResults.length = k := by simpa using hlength
      refine judge_ok_runs.mpr ⟨boxId, tr₁, tr₂, sandbox, compileResult, rfl, hcompile,
        .inr ⟨hexit, ?_⟩⟩
      rw [judgeTestcases_testcases]
      exact hsame ts hts
    · obtain ⟨before, result', hcalls, hruns, hstatus, hcases⟩ :=
        (judgeTestcases_accepted hloop haccepted).2 n
      have hsame : ⟨.acquire, boxId⟩ :: (tr₁ ++ before) <+: ⟨.acquire, boxId⟩ :: (tr₁ ++ tr₂) :=
        (List.prefix_cons_inj _).mpr ((List.prefix_append_right_inj tr₁).mpr hcalls)
      refine ⟨⟨.acquire, boxId⟩ :: (tr₁ ++ before), sandbox.boxId, result', hsame, ?_, hstatus,
        by simpa using hcases⟩
      rw [List.cons_append, List.append_assoc]
      refine judge_ok_runs.mpr ⟨boxId, tr₁, _, sandbox, compileResult, rfl, hcompile,
        .inr ⟨hexit, ?_⟩⟩
      rw [judgeTestcases_testcases]
      exact hruns

theorem judge_leftToRight_threeCases :
    (threeResult.status ≠ .accepted →
      ∀ ts : List TestCase, ts.take threeResult.caseResults.length =
          threeCases.testcases.take threeResult.caseResults.length →
        (judge {} { threeCases with testcases := ts }).Runs
          ((judge {} threeCases).trace slowHost ()) (.ok threeResult)) ∧
    (threeResult.status = .accepted →
      ∀ n, ∃ before boxId result', before <+: (judge {} threeCases).trace slowHost () ∧
        (judge {} { threeCases with testcases := threeCases.testcases.take n }).Runs
          (before ++ [⟨.release boxId, ()⟩]) (.ok result') ∧ result'.status = .accepted ∧
        result'.caseResults = threeResult.caseResults.take n) :=
  judge_leftToRight (Prog.runs_trace_of_eval (by decide +kernel))

end JudgeEngine
