-- SUMMARY: What an acknowledgement says about the database: the verdict is stored exactly when its row was there.
import FlowStudyJudge.Worker.Settle
import FlowStudyJudge.Worker.Delivery
import FlowStudyJudge.Db.Transactions

/-! # Acknowledged verdicts -/

open Host

namespace Worker

/-- The columns of a row of `fs_code_run` are those of the verdict, an empty message
    being `NULL`. -/
structure RunHolds (result : JudgeResultInternal) (v : RunVerdict) : Prop where
  status : v.status = result.status.toBytes
  time : v.timeUsedMs = result.timeUsedMs
  memory : v.memoryUsedKb = result.memoryUsedKb
  compileMessage : v.compileMessage = nullIf [] result.compilerOutput
  runtimeMessage : v.runtimeMessage = nullIf [] result.errorMessage

/-- The same for a row of `fs_submission`. -/
structure SubmissionHolds (result : JudgeResultInternal) (v : SubmissionVerdict) : Prop where
  status : v.status = result.status.toBytes
  time : v.timeUsedMs = result.timeUsedMs
  memory : v.memoryUsedKb = result.memoryUsedKb
  compileMessage : v.compileMessage = nullIf [] result.compilerOutput
  runtimeMessage : v.runtimeMessage = nullIf [] result.errorMessage

/-- The row of a message exists and holds the verdict of `judge`. -/
def VerdictStored (submission : SubmissionMessage) (result : JudgeResultInternal) (db : Db) :
    Prop :=
  if submission.isRun then
    ∃ row, db.fsCodeRun submission.runId = some row ∧ RunHolds result row.verdict
  else
    ∃ row, db.fsSubmission submission.submissionId = some row ∧
      SubmissionHolds result row.verdict

/-- The row that a message names. -/
def rowExists (submission : SubmissionMessage) (db : Db) : Bool :=
  if submission.isRun then (db.fsCodeRun submission.runId).isSome
  else (db.fsSubmission submission.submissionId).isSome

/-- The transaction of a message stores its verdict where it finds the row. -/
theorem execAll_verdictStored_iff {submission : SubmissionMessage}
    {result : JudgeResultInternal} {ss : List (Nat × Stmt)} {db : Db}
    (h : ss.map (·.2) = resultStmts submission (dbResult submission result)) :
    VerdictStored submission result (db.execAll ss) ↔ rowExists submission db = true := by
  unfold resultStmts at h
  unfold VerdictStored rowExists
  by_cases hrun : submission.isRun = true
  · rw [if_pos hrun] at h ⊢
    rw [if_pos hrun]
    refine (execAll_codeRunStored h db).row.exists_iff ?_
    exact ⟨rfl, rfl, rfl, rfl, rfl⟩
  · rw [if_neg hrun] at h ⊢
    rw [if_neg hrun]
    refine (execAll_submissionStored h db).row.exists_iff ?_
    exact ⟨rfl, rfl, rfl, rfl, rfl⟩

/-- The states of a worker and of its database server, from its start through any
    number of connection attempts and deliveries. `consume` calls `on_message` on a
    connected broker client only. -/
inductive Reached (parse : Bytes → Option Json) : Worker → Server Db → Prop where
  | start {w : Worker} {s : Server Db} (hmq : w.mq.connected = true) (hdb : w.db = {})
      (h : ∀ conn, s.sessions conn = .lost false) : Reached parse w s
  | connect {w : Worker} {s s' : Server Db} {db : MySQLClient} {b : Bool} {tr : Trace Op.Res}
      (h : Reached parse w s) (hruns : w.db.connect.Runs tr (.ok (db, b)))
      (hpath : Db.world.Path s tr s') : Reached parse { w with db } s'
  | message {w w' : Worker} {s s' : Server Db} {tag : UInt64} {body : Bytes}
      {tr : Trace Op.Res} (h : Reached parse w s)
      (hruns : (w.onMessage parse tag body).Runs tr (.ok w'))
      (hpath : Db.world.Path s tr s') : Reached parse w' s'

theorem Reached.idle {parse : Bytes → Option Json} {w : Worker} {s : Server Db}
    (h : Reached parse w s) : w.mq.connected = true ∧ s.Idle := by
  induction h with
  | start hmq hdb h =>
    refine ⟨hmq, fun conn => ?_⟩
    rw [h conn]
    exact .lost
  | connect _ hruns hpath ih =>
    obtain ⟨res, -, hconnected⟩ := MySQLClient.connect_runs hruns
    exact ⟨ih.1, (Server.path_quiet hpath hconnected.noQuery ih.2).2⟩
  | @message w w' s s' tag body tr _ hruns hpath ih =>
    obtain ⟨hmq, hidle⟩ := ih
    cases hparse : JudgeEngine.parseMessage parse body with
    | none =>
      obtain ⟨b, rfl, hout⟩ := onMessage_rejected_runs hmq hparse hruns
      cases hout
      exact ⟨hmq, (Server.path_quiet hpath (by simp) hidle).2⟩
    | some submission =>
      generalize hout : (Except.ok w' : Except Abort Worker) = out at hruns
      cases onMessage_accepted_runs hmq hparse hruns with
      | thrown hjudge | crashed hjudge hping hupdate => cases hout
      | acked hjudge hping hupdate =>
        cases hout
        exact ⟨hmq, (delivery_path hjudge hping hupdate rfl hpath hidle).1⟩
      | nacked hjudge hping hupdate =>
        cases hout
        exact ⟨hmq, (delivery_path hjudge hping hupdate rfl hpath hidle).1⟩

/-- An acknowledged verdict is stored exactly when the row of the message was there. -/
theorem onMessage_stored_iff {parse : Bytes → Option Json} {w w' : Worker} {s s' : Server Db}
    {tag : UInt64} {body : Bytes} {submission : SubmissionMessage} {tr judged : Trace Op.Res}
    {result : JudgeResultInternal} (h : Reached parse w s)
    (hparse : JudgeEngine.parseMessage parse body = some submission)
    (hruns : (w.onMessage parse tag body).Runs tr (.ok w')) (hpath : Db.world.Path s tr s')
    (hack : .basicAck tag ∈ tr.map (·.op))
    (hjudge : (JudgeEngine.judge w.isolate submission).Runs judged (.ok result))
    (hjudged : judged <+: tr) :
    VerdictStored submission result s'.data ↔ rowExists submission s.data = true := by
  obtain ⟨hmq, hidle⟩ := h.idle
  generalize hout : (Except.ok w' : Except Abort Worker) = out at hruns
  cases onMessage_accepted_runs hmq hparse hruns with
  | thrown hjudge' | crashed hjudge' hping hupdate => cases hout
  | nacked hjudge' hping hupdate =>
    exfalso
    have hsettled := (JudgeEngine.judge_pool hjudge').1
    have hmem : Op.basicAck tag ∈ settlements _ := List.mem_filter.mpr ⟨hack, rfl⟩
    rw [settlements_append, settlements_append, settlements_append, hsettled,
      (inner_database hping.only).settlements, (inner_database hupdate.only).settlements] at hmem
    simp [settlements] at hmem
  | acked hjudge' hping hupdate =>
    obtain ⟨rfl, hresult⟩ := hjudge.prefix_unique hjudge' hjudged (List.prefix_append ..)
    cases hresult
    obtain ⟨-, ss, d, hss, hd, hdata⟩ := delivery_path hjudge' hping hupdate rfl hpath hidle
    rw [← hdata, ← hd]
    exact execAll_verdictStored_iff hss

/-- A host and a database server on which nothing fails. -/
def workerHost : Handler Op.Res (Server Db) :=
  Server.reliable (fun ss db => db.execAll ss)
    (Sandbox.boxFiles "exitcode:0\n" "time:0.020\nexitcode:0\n" "1\n")

theorem workerHost_world (op : Op) (s : Server Db) :
    Db.world s ⟨op, (workerHost op s).1⟩ (workerHost op s).2 :=
  Server.reliable_world op s

/-- The result of judging `sampleMessage` there. -/
def workerResult : JudgeResultInternal :=
  { status := .accepted
    timeUsedMs := 20
    caseResults :=
      [{ status := .accepted, caseIndex := 1, timeUsedMs := 20,
         actualOutput := "1\n", expectedOutput := "1" }] }

/-- The server behind a worker that has just connected. -/
def workerServer (db : Db) : Server Db :=
  (({} : MySQLClient).connect.eval workerHost ⟨db, fun _ => .lost false⟩).2

theorem workerServer_reached (db : Db) :
    Reached JudgeEngine.sampleParse connectedWorker (workerServer db) := by
  have hruns := Prog.runs_trace ({} : MySQLClient).connect workerHost ⟨db, fun _ => .lost false⟩
  have hstart : Reached JudgeEngine.sampleParse { mq := { connected := true } }
      ⟨db, fun _ => .lost false⟩ :=
    .start rfl rfl fun _ => rfl
  exact .connect hstart hruns (Prog.path_trace _ workerHost_world _)

/-- The delivery of `sampleMessage` to that worker. -/
def workerDelivery : Comp Worker :=
  connectedWorker.onMessage JudgeEngine.sampleParse 1 JudgeEngine.sampleBody

theorem workerDelivery_eq :
    workerDelivery = connectedWorker.handle 1 JudgeEngine.sampleMessage :=
  onMessage_sample connectedWorker 1

theorem workerDelivery_trace (db : Db) :
    (JudgeEngine.judge {} JudgeEngine.sampleMessage).trace workerHost (workerServer db) <+:
      workerDelivery.trace workerHost (workerServer db) := by
  rw [workerDelivery_eq]
  exact Prog.trace_bind_prefix ..

theorem onMessage_stored_iff_present :
    VerdictStored JudgeEngine.sampleMessage workerResult
      (workerDelivery.eval workerHost (workerServer sampleDb)).2.data := by
  have hruns : workerDelivery.Runs (workerDelivery.trace workerHost (workerServer sampleDb))
      (.ok connectedWorker) := by
    rw [workerDelivery_eq]
    exact Prog.runs_trace_of_eval (by decide +kernel)
  have hack : .basicAck 1 ∈
      (workerDelivery.trace workerHost (workerServer sampleDb)).map (·.op) := by
    rw [workerDelivery_eq]
    decide +kernel
  have hjudge : (JudgeEngine.judge {} JudgeEngine.sampleMessage).Runs
      ((JudgeEngine.judge {} JudgeEngine.sampleMessage).trace workerHost (workerServer sampleDb))
      (.ok workerResult) :=
    Prog.runs_trace_of_eval (by decide +kernel)
  exact (onMessage_stored_iff (workerServer_reached sampleDb) JudgeEngine.parseMessage_sample
    hruns (Prog.path_trace _ workerHost_world _) hack hjudge
    (workerDelivery_trace sampleDb)).mpr (by decide)

/-- Tables without a row. -/
def emptyDb : Db :=
  { fsSubmission := fun _ => none
    fsCodeRun := fun _ => none
    fsProblem := fun _ => none
    caseResults := fun _ => [] }

/-- A message whose row is missing is acknowledged all the same. -/
theorem not_always_stored :
    ¬ ∀ (parse : Bytes → Option Json) (w w' : Worker) (s s' : Server Db) (tag : UInt64)
      (body : Bytes) (submission : SubmissionMessage) (tr judged : Trace Op.Res)
      (result : JudgeResultInternal), Reached parse w s →
      JudgeEngine.parseMessage parse body = some submission →
      (w.onMessage parse tag body).Runs tr (.ok w') → Db.world.Path s tr s' →
      .basicAck tag ∈ tr.map (·.op) →
      (JudgeEngine.judge w.isolate submission).Runs judged (.ok result) → judged <+: tr →
      VerdictStored submission result s'.data := by
  intro h
  have hruns : workerDelivery.Runs (workerDelivery.trace workerHost (workerServer emptyDb))
      (.ok connectedWorker) := by
    rw [workerDelivery_eq]
    exact Prog.runs_trace_of_eval (by decide +kernel)
  have hack : .basicAck 1 ∈
      (workerDelivery.trace workerHost (workerServer emptyDb)).map (·.op) := by
    rw [workerDelivery_eq]
    decide +kernel
  have hjudge : (JudgeEngine.judge {} JudgeEngine.sampleMessage).Runs
      ((JudgeEngine.judge {} JudgeEngine.sampleMessage).trace workerHost (workerServer emptyDb))
      (.ok workerResult) :=
    Prog.runs_trace_of_eval (by decide +kernel)
  have hstored := h _ _ _ _ _ _ _ _ _ _ _ (workerServer_reached emptyDb)
    JudgeEngine.parseMessage_sample hruns (Prog.path_trace _ workerHost_world _) hack hjudge
    (workerDelivery_trace emptyDb)
  have hnotRun : JudgeEngine.sampleMessage.isRun = false := by
    decide
  unfold VerdictStored at hstored
  rw [hnotRun] at hstored
  obtain ⟨row, hrow, -⟩ := hstored
  have hnone : (workerDelivery.eval workerHost (workerServer emptyDb)).2.data.fsSubmission 7 =
      none := by
    rw [workerDelivery_eq]
    decide +kernel
  rw [show JudgeEngine.sampleMessage.submissionId = 7 from rfl, hnone] at hrow
  cases hrow

end Worker
