-- SUMMARY: In every reachable state a verdict in the tables and the case rows of its id agree.
import FlowStudyJudge.Judge.Consistency
import FlowStudyJudge.Worker.Standings

/-! # Agreement of the tables

The verdict of a submission or a run lies in one table, its case rows in another. -/

/-- What decides a status is in the case rows: nothing where the compiler has failed, and
    otherwise the last of them, if not all are accepted. -/
inductive CaseRow.Decide (rows : List CaseRow) : Bytes → Option Bytes → Prop where
  | compileError {message : Option Bytes} (hrows : rows = []) : Decide rows "COMPILE_ERROR" message
  | accepted (hall : ∀ row ∈ rows, row.status = "ACCEPTED") : Decide rows "ACCEPTED" none
  | stopped {before : List CaseRow} {last : CaseRow} (hrows : rows = before ++ [last])
      (hbefore : ∀ row ∈ before, row.status = "ACCEPTED") (hlast : last.status ≠ "ACCEPTED") :
      Decide rows last.status last.errorMessage

/-- The columns of a verdict agree with the case rows. -/
structure CaseRow.Agree (rows : List CaseRow) (status : Bytes) (timeUsedMs memoryUsedKb : Int)
    (runtimeMessage : Option Bytes) : Prop where
  decided : CaseRow.Decide rows status runtimeMessage
  timeUsedMs : timeUsedMs = (rows.map (·.timeUsedMs)).foldl max 0
  memoryUsedKb : memoryUsedKb = (rows.map (·.memoryUsedKb)).foldl max 0

namespace Worker

open JudgeEngine

theorem toBytes_eq_accepted {status : JudgeStatus} :
    status.toBytes = "ACCEPTED" ↔ status = .accepted := by
  cases status <;> decide

/-- The row of a case result of `judge`. -/
def rowOf (owner : UInt64) (case_ : JudgeCaseResultInternal) : CaseRow :=
  JudgeResult.caseRow owner (dbCaseResult case_)

theorem decided_rows {testcases : List TestCase} {cases : List JudgeCaseResultInternal}
    {status : JudgeStatus} {errorMessage : Bytes} {index : Int} (owner : UInt64)
    (h : Decided testcases cases status errorMessage index) :
    CaseRow.Decide (cases.map (rowOf owner)) status.toBytes
      (JudgeResult.nullableSql errorMessage) := by
  cases h with
  | accepted _ haccepted =>
    refine .accepted fun row hrow => ?_
    obtain ⟨case_, hcase, rfl⟩ := List.mem_map.mp hrow
    exact toBytes_eq_accepted.mpr (haccepted case_ hcase)
  | @stopped before last hcases hbefore hlast =>
    have hrows : cases.map (rowOf owner) = before.map (rowOf owner) ++ [rowOf owner last] := by
      rw [hcases, List.map_append]
      rfl
    refine .stopped hrows ?_ ?_
    · intro row hrow
      obtain ⟨case_, hcase, rfl⟩ := List.mem_map.mp hrow
      exact toBytes_eq_accepted.mpr (hbefore case_ hcase)
    · exact mt toBytes_eq_accepted.mp hlast

/-- What is written for one judging agrees. -/
theorem dbResult_agree {cfg : IsolateConfig} {submission : SubmissionMessage} {tr : Trace Op.Res}
    {result : JudgeResultInternal} (h : (judge cfg submission).Runs tr (.ok result))
    (owner : UInt64) :
    CaseRow.Agree ((dbResult submission result).caseResults.map (JudgeResult.caseRow owner))
      (dbResult submission result).status result.timeUsedMs result.memoryUsedKb
      (JudgeResult.nullableSql result.errorMessage) := by
  have hrows : (dbResult submission result).caseResults.map (JudgeResult.caseRow owner) =
      result.caseResults.map (rowOf owner) := List.map_map
  rw [hrows]
  generalize hout : (Except.ok result : Except Abort JudgeResultInternal) = out at h
  cases judge_runs h with
  | compileThrown => cases hout
  | compileFailed =>
    cases hout
    exact ⟨.compileError rfl, rfl, rfl⟩
  | looped _ _ hloop =>
    cases hout
    obtain ⟨runs, loop, cases, -, -, hadded⟩ := hloop.added
    have hcases : result.caseResults = cases := hadded.caseResults
    obtain ⟨index, hdecided, -⟩ := hadded.decided
    subst hcases
    refine ⟨decided_rows owner hdecided, ?_, ?_⟩
    · rw [hadded.timeUsedMs, List.map_map]
      rfl
    · rw [hadded.memoryUsedKb, List.map_map]
      rfl

end Worker

namespace Deployment

variable {parse : Bytes → Option Json} {s : Deployment}

/-- What a posting stores comes from one judging. -/
theorem posted_judged {published : List Message} {commits : List Commit}
    {postings : List Posting} {p : Posting} {r : JudgeResult}
    (h : List.Forall₂ (Posted parse published) commits postings) (hp : p ∈ postings)
    (hr : p = .submission r ∨ p = .run r) :
    ∃ submission cfg tr result, (JudgeEngine.judge cfg submission).Runs tr (.ok result) ∧
      r = Worker.dbResult submission result := by
  obtain ⟨c, -, hposted⟩ := posted_of_mem h hp
  cases hposted with
  | @judged m submission cfg tr result _ _ _ hjudge _ =>
    refine ⟨submission, cfg, tr, result, hjudge, ?_⟩
    unfold posting at hr
    cases hrun : submission.isRun <;> simpa [hrun, eq_comm] using hr

/-- In every reachable state a submission is as it was at first, or its verdict and its case
    rows agree and the score is that of the status; and so for the runs. No transaction is
    seen in part, and none is mixed with another. -/
theorem Reachable.rows_agree (h : Reachable parse s) :
    (∀ id, (s.ledger.tables.verdictOf id = s.ledger.initial.verdictOf id ∧
          s.ledger.tables.rowsOf .fsJudgeCaseResult id =
            s.ledger.initial.rowsOf .fsJudgeCaseResult id) ∨
        ∀ v, s.ledger.tables.verdictOf id = some v →
          v.score = (if v.status = "ACCEPTED" then 100 else 0) ∧
            CaseRow.Agree (s.ledger.tables.rowsOf .fsJudgeCaseResult id) v.status v.timeUsedMs
              v.memoryUsedKb v.runtimeMessage) ∧
    ∀ id, (s.ledger.tables.runVerdictOf id = s.ledger.initial.runVerdictOf id ∧
          s.ledger.tables.rowsOf .fsCodeRunCaseResult id =
            s.ledger.initial.rowsOf .fsCodeRunCaseResult id) ∨
        ∀ v, s.ledger.tables.runVerdictOf id = some v →
          CaseRow.Agree (s.ledger.tables.rowsOf .fsCodeRunCaseResult id) v.status v.timeUsedMs
            v.memoryUsedKb v.runtimeMessage := by
  obtain ⟨postings, hposted⟩ := h.honest.postings
  have hshows := shows_of_posted hposted
  constructor
  · intro id
    rcases Scoreboard.submissions_cases postings id with ⟨hnone, -⟩ | ⟨r, hlast, hr, -⟩
    · refine .inl ⟨?_, ?_⟩
      · rw [hshows.verdict, hnone]
        rfl
      · rw [hshows.cases, hnone]
        rfl
    · refine .inr fun v hv => ?_
      obtain ⟨submission, cfg, tr, result, hjudge, rfl⟩ :=
        posted_judged hposted hr (.inl rfl)
      rw [hshows.verdict, hlast] at hv
      obtain ⟨-, -, rfl⟩ := Option.map_eq_some_iff.mp hv
      rw [hshows.cases, hlast]
      refine ⟨?_, Worker.dbResult_agree hjudge id⟩
      simp [JudgeResult.submissionVerdict, JudgeResult.accepted]
  · intro id
    rcases Scoreboard.runs_cases postings id with hnone | ⟨r, hlast, hr, -⟩
    · refine .inl ⟨?_, ?_⟩
      · rw [hshows.runVerdict, hnone]
        rfl
      · rw [hshows.runCases, hnone]
        rfl
    · refine .inr fun v hv => ?_
      obtain ⟨submission, cfg, tr, result, hjudge, rfl⟩ :=
        posted_judged hposted hr (.inr rfl)
      rw [hshows.runVerdict, hlast] at hv
      obtain ⟨-, -, rfl⟩ := Option.map_eq_some_iff.mp hv
      rw [hshows.runCases, hlast]
      exact Worker.dbResult_agree hjudge id

/-- A submission that was pending at first, when its message has been judged. -/
theorem rows_agree_sample : ∃ s v, Reachable JudgeEngine.sampleParse s ∧
    s.ledger.tables.verdictOf 7 = some v ∧ v.status = "ACCEPTED" ∧ v.score = 100 ∧
    CaseRow.Agree (s.ledger.tables.rowsOf .fsJudgeCaseResult 7) v.status v.timeUsedMs
      v.memoryUsedKb v.runtimeMessage := by
  obtain ⟨s, h, -, -, hpending, hjudged⟩ := sample_judged
  obtain ⟨v, hv, hstatus⟩ := Option.map_eq_some_iff.mp hjudged
  rcases h.rows_agree.1 7 with ⟨hsame, -⟩ | hagree
  · rw [← hsame, hjudged] at hpending
    exact absurd hpending (by decide)
  · obtain ⟨hscore, hrows⟩ := hagree v hv
    rw [if_pos hstatus] at hscore
    exact ⟨s, v, h, hv, hstatus, hscore, hrows⟩

end Deployment
