-- SUMMARY: How the process can end by itself: in the handling of a submission, of which nothing has been stored or settled.
import FlowStudyJudge.Worker.Boxes
import FlowStudyJudge.Worker.Halting

/-! # Abnormal ends

An exception that leaves `on_message` leaves `main`, and a call with a null handle ends the
process too. The broker then has the message still. -/

open Host

/-- No statement has gone to the database server. -/
def Host.Unstored (tr : Trace Op.Res) : Prop :=
  ∀ e ∈ tr, ∀ conn query, e.op ≠ .mysqlQuery (some conn) query

theorem Host.Unstored.append {tr₁ tr₂ : Trace Op.Res} (h₁ : Unstored tr₁) (h₂ : Unstored tr₂) :
    Unstored (tr₁ ++ tr₂) :=
  fun e he => (List.mem_append.mp he).elim (h₁ e) (h₂ e)

namespace MySQLClient

variable {c db : MySQLClient} {tr : Trace Op.Res}

theorem Pinged.unstored {pinged : Bool} (h : c.Pinged tr (db, pinged)) : Unstored tr := by
  have hconnect : ∀ {tr' : Trace Op.Res} {res : MySQLClient × Bool}, c.Connected tr' res →
      Unstored tr' := by
    intro tr' res hc
    cases hc <;> simp [Unstored]
  cases h with
  | alive hconn hconnected => simp [Unstored]
  | @lost conn tr' res hconn hconnected hc =>
    have hping : Unstored [⟨.mysqlPing conn, false⟩] := by simp [Unstored]
    exact hping.append (hconnect hc)
  | notConnected hc => exact hconnect hc

/-- A result transaction that ends the process has sent nothing. -/
theorem Transacted.unstored {stmts : List Stmt} {x : Abort}
    (h : c.Transacted stmts tr (.error x)) : Unstored tr := by
  cases h with
  | noHandle hconnected hconn => simp [Unstored]

end MySQLClient

namespace Worker

variable {parse : Bytes → Option Json} {w : Worker} {tag : UInt64} {body : Bytes}
  {submission : SubmissionMessage} {tr : Trace Op.Res} {x : Abort}

/-- What is left of a handling that has ended the process. -/
structure Broken (parse : Bytes → Option Json) (body : Bytes) (tr : Trace Op.Res) : Prop where
  accepted : (JudgeEngine.parseMessage parse body).isSome
  unsettled : settlements tr = []
  unstored : Unstored tr
  /-- A meta file does not convert, or `mysql_init` has failed. -/
  cause : (∃ content ∈ metaContents tr, Sandbox.metaConvertible content = false) ∨
    ⟨.mysqlInit, none⟩ ∈ tr

theorem Handled.unstored (h : w.Handled tag submission tr (.error x)) : Unstored tr := by
  have hjudged : ∀ {tr' : Trace Op.Res} {out : Except Abort JudgeResultInternal},
      (JudgeEngine.judge w.isolate submission).Runs tr' out → Unstored tr' := by
    intro tr' out hjudge e he conn query hop
    have hnot := JudgeEngine.judge_noDatabase hjudge e he
    rw [hop] at hnot
    cases hnot
  cases h with
  | thrown hjudge => exact hjudged hjudge
  | crashed hjudge hping hupdate =>
    exact (hjudged hjudge).append (hping.unstored.append hupdate.unstored)

/-- Only a submission can end the process. -/
theorem onMessage_broken (hmq : w.mq.connected = true)
    (h : (w.onMessage parse tag body).Runs tr (.error x)) : Broken parse body tr := by
  cases hparse : JudgeEngine.parseMessage parse body with
  | none =>
    obtain ⟨b, -, hout⟩ := onMessage_rejected_runs hmq hparse h
    cases hout
  | some submission =>
    have hhandled := onMessage_accepted_runs hmq hparse h
    refine ⟨by rw [hparse]; rfl, onMessage_settlements hmq h, hhandled.unstored, ?_⟩
    have hnot : ¬ (allConvertible tr = true ∧
        (w.db.connected = true → ⟨.mysqlInit, none⟩ ∉ tr)) := by
      rw [← hhandled.toBool_eq]
      exact Bool.false_ne_true
    rcases not_and_or.mp hnot with hmeta | hinit
    · simpa [allConvertible] using Or.inl hmeta
    · exact .inr (by simpa using fun hnone => hinit fun _ => hnone)

end Worker

namespace WorkerProcess

variable {parse : Bytes → Option Json} {n : Nat} {argv : List Bytes} {tr : Trace WorkerOp.Res}
  {x : Abort}

/-- The end of a run that ends the process: the handling of a delivery. -/
inductive BrokenEnd (parse : Bytes → Option Json) : Trace WorkerOp.Res → Prop where
  | intro {p : WorkerProcess} {tag : UInt64} {body : Bytes} {inner : Trace Op.Res}
      (h : Worker.Broken parse body inner) :
      BrokenEnd parse
        (⟨.amqp (.consumeMessage p.mq.conn 1), .message tag body⟩ :: inner.map p.hostEvent)

theorem run_broken {p : WorkerProcess} (h : (p.run parse n).Runs tr (.error x)) :
    ∃ before last, tr = before ++ last ∧ BrokenEnd parse last := by
  obtain ⟨⟨point, p'⟩, before, last, rfl, hlast⟩ := Prog.rounds_raised h
  refine ⟨before, last, rfl, ?_⟩
  cases round_runs hlast with
  | thrown hconnected hmessage => exact ⟨Worker.onMessage_broken hconnected hmessage⟩

/-- A parser that reads a configuration and a submission only. -/
def parseSample (body : Bytes) : Option Json :=
  if body = JudgeEngine.sampleBody then some JudgeEngine.sampleJson else parseEmpty body

/-- Answers like `willing`, with meta files that do not convert. -/
def garbled : Handler WorkerOp.Res (List Consumed) := fun op script =>
  match op with
  | .host (.ifstream _ .text) => (some ("time:abc\n" : Bytes), script)
  | op => willing "\x7b\x7d" op script

/-- A process that gets two messages, the first of which no parser accepts. -/
def brokenLife : Trace WorkerOp.Res :=
  (main parseSample 5 []).trace garbled [.message 1 "?", .message 2 JudgeEngine.sampleBody]

end WorkerProcess
