-- SUMMARY: The possible runs of `on_message`.
import FlowStudyJudge.Worker.Worker
import FlowStudyJudge.Judge.Behaviour
import FlowStudyJudge.Db.Behaviour

namespace Worker

/-- The statements of the transaction that stores a result. -/
def resultStmts (submission : SubmissionMessage) (result : JudgeResult) : List Stmt :=
  if submission.isRun then result.codeRunStmts else result.submissionStmts

theorem updateDb_eq (db : MySQLClient) (submission : SubmissionMessage) (result : JudgeResult) :
    updateDb db submission result = db.transaction (resultStmts submission result) := by
  unfold updateDb resultStmts
  split <;> rfl

/-- The ways `on_message` can go on a message that `parse_message` accepts. -/
inductive Handled (w : Worker) (tag : UInt64) (submission : SubmissionMessage) :
    Trace Op.Res → Except Abort Worker → Prop where
  | thrown {tr : Trace Op.Res} {x : Abort}
      (hjudge : (JudgeEngine.judge w.isolate submission).Runs tr (.error x)) :
      Handled w tag submission tr (.error x)
  | acked {tr ping update : Trace Op.Res} {result : JudgeResultInternal} {db : MySQLClient}
      {pinged b : Bool}
      (hjudge : (JudgeEngine.judge w.isolate submission).Runs tr (.ok result))
      (hping : w.db.Pinged ping (db, pinged))
      (hupdate : db.Transacted (resultStmts submission (dbResult submission result)) update
        (.ok true)) :
      Handled w tag submission (tr ++ (ping ++ (update ++ [⟨.basicAck tag, b⟩])))
        (.ok { w with db })
  | nacked {tr ping update : Trace Op.Res} {result : JudgeResultInternal} {db : MySQLClient}
      {pinged b : Bool}
      (hjudge : (JudgeEngine.judge w.isolate submission).Runs tr (.ok result))
      (hping : w.db.Pinged ping (db, pinged))
      (hupdate : db.Transacted (resultStmts submission (dbResult submission result)) update
        (.ok false)) :
      Handled w tag submission (tr ++ (ping ++ (update ++ [⟨.basicNack tag, b⟩])))
        (.ok { w with db })
  /-- The database client has ended the process. -/
  | crashed {tr ping update : Trace Op.Res} {result : JudgeResultInternal} {db : MySQLClient}
      {pinged : Bool} {x : Abort}
      (hjudge : (JudgeEngine.judge w.isolate submission).Runs tr (.ok result))
      (hping : w.db.Pinged ping (db, pinged))
      (hupdate : db.Transacted (resultStmts submission (dbResult submission result)) update
        (.error x)) :
      Handled w tag submission (tr ++ (ping ++ update)) (.error x)

theorem handle_runs {w : Worker} {tag : UInt64} {submission : SubmissionMessage}
    {tr : Trace Op.Res} {out : Except Abort Worker} (hmq : w.mq.connected = true)
    (h : (w.handle tag submission).Runs tr out) : w.Handled tag submission tr out := by
  unfold handle at h
  rcases Prog.runs_bind.mp h with ⟨result, tr₁, tr₂, hjudge, h₁, rfl⟩ | ⟨x, hjudge, rfl⟩
  case inr => exact .thrown hjudge
  rcases Prog.runs_bind.mp h₁ with ⟨⟨db, pinged⟩, ping, tr₃, h₂, h₃, rfl⟩ | ⟨x, h₂, -⟩
  case inr =>
    obtain ⟨_, hx, -⟩ := MySQLClient.ping_runs h₂
    cases hx
  obtain ⟨_, hres, hping⟩ := MySQLClient.ping_runs h₂
  cases hres
  simp only [updateDb_eq] at h₃
  rcases Prog.runs_bind.mp h₃ with ⟨stored, update, tr₄, h₄, h₅, rfl⟩ | ⟨x, h₄, rfl⟩
  case inr => exact .crashed hjudge hping (MySQLClient.transaction_runs h₄)
  have hupdate := MySQLClient.transaction_runs h₄
  cases stored with
  | true =>
    simp only [if_true, RabbitMQClient.ack, hmq, Bool.not_true, Bool.false_eq_true, if_false,
      Host.basicAck] at h₅
    obtain ⟨b, tr₅, rfl, h₆⟩ := Prog.runs_perform_bind.mp h₅
    obtain ⟨rfl, rfl⟩ := Prog.runs_done.mp h₆
    exact .acked hjudge hping hupdate
  | false =>
    simp only [RabbitMQClient.nackRequeue, hmq, Bool.not_true, Bool.false_eq_true, if_false,
      Host.basicNack] at h₅
    obtain ⟨b, tr₅, rfl, h₆⟩ := Prog.runs_perform_bind.mp h₅
    obtain ⟨rfl, rfl⟩ := Prog.runs_done.mp h₆
    exact .nacked hjudge hping hupdate

/-- On a message that `parse_message` rejects, `on_message` acknowledges. -/
theorem onMessage_rejected_runs {parse : Bytes → Option Json} {w : Worker} {tag : UInt64}
    {body : Bytes} {tr : Trace Op.Res} {out : Except Abort Worker}
    (hmq : w.mq.connected = true) (hparse : JudgeEngine.parseMessage parse body = none)
    (h : (w.onMessage parse tag body).Runs tr out) :
    ∃ b, tr = [⟨.basicAck tag, b⟩] ∧ out = .ok w := by
  simp only [onMessage, hparse, RabbitMQClient.ack, hmq, Bool.not_true, Bool.false_eq_true,
    if_false, Host.basicAck] at h
  obtain ⟨b, tr₁, rfl, h₁⟩ := Prog.runs_perform_bind.mp h
  obtain ⟨rfl, rfl⟩ := Prog.runs_done.mp h₁
  exact ⟨b, rfl, rfl⟩

theorem onMessage_of_some {parse : Bytes → Option Json} {w : Worker} {tag : UInt64}
    {body : Bytes} {submission : SubmissionMessage}
    (hparse : JudgeEngine.parseMessage parse body = some submission) :
    w.onMessage parse tag body = w.handle tag submission := by
  simp only [onMessage, hparse]

theorem onMessage_accepted_runs {parse : Bytes → Option Json} {w : Worker} {tag : UInt64}
    {body : Bytes} {submission : SubmissionMessage} {tr : Trace Op.Res}
    {out : Except Abort Worker} (hmq : w.mq.connected = true)
    (hparse : JudgeEngine.parseMessage parse body = some submission)
    (h : (w.onMessage parse tag body).Runs tr out) : w.Handled tag submission tr out := by
  rw [onMessage_of_some hparse] at h
  exact handle_runs hmq h

end Worker
