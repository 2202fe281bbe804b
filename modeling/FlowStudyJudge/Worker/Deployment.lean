-- SUMMARY: The whole system: the queue, any number of worker processes and the database they share, one step of one party at a time.
import FlowStudyJudge.Effects.Partial
import FlowStudyJudge.Storage.Queue
import FlowStudyJudge.Judge.BoxPool
import FlowStudyJudge.Db.Server

/-! # The system

Worker processes take messages from one durable queue and write to one database. A
process runs its programs operation by operation, and may be interrupted by the others,
or die, between any two operations. -/

/-- A published message. The number tells messages with equal bodies apart. -/
structure Message where
  number : Nat
  body : Bytes
  deriving DecidableEq

/-! ## The database -/

/-- A committed transaction, with the message whose handling committed it. -/
structure Commit where
  message : Option Message
  stmts : List (Nat × Stmt)

/-- The history of the tables. -/
structure Ledger where
  initial : Db
  commits : List Commit

namespace Ledger

def tables (l : Ledger) : Db :=
  l.initial.execAll (l.commits.flatMap (·.stmts))

/-- The effect of a transaction. -/
def commit (message : Option Message) (ss : List (Nat × Stmt)) (l : Ledger) : Ledger :=
  { l with commits := l.commits ++ [⟨message, ss⟩] }

/-- Some transactions later. -/
def Grows (l l' : Ledger) : Prop :=
  l.commits <+: l'.commits

instance : IsPreorder Ledger Grows where
  refl _ := List.prefix_rfl
  trans _ _ _ h h' := h.trans h'

theorem grows_commit (message : Option Message) (ss : List (Nat × Stmt)) (l : Ledger) :
    Grows l (l.commit message ss) :=
  List.prefix_append ..

/-- The transaction that stores the result of judging the message has been committed:
    that of `update_code_run` for a run, that of `update_submission` otherwise. -/
def Stored (l : Ledger) (m : Message) (submission : SubmissionMessage) : Prop :=
  ∃ (cfg : IsolateConfig) (tr : Trace Op.Res) (result : JudgeResultInternal) (c : Commit),
    (JudgeEngine.judge cfg submission).Runs tr (.ok result) ∧ c ∈ l.commits ∧
      c.message = some m ∧
      c.stmts.map (·.2) = Worker.resultStmts submission (Worker.dbResult submission result)

theorem Stored.grows {l l' : Ledger} {m : Message} {submission : SubmissionMessage}
    (h : l.Stored m submission) (hgrows : l.Grows l') : l'.Stored m submission := by
  obtain ⟨cfg, tr, result, c, hjudge, hc, hm, hstmts⟩ := h
  exact ⟨cfg, tr, result, c, hjudge, hgrows.subset hc, hm, hstmts⟩

end Ledger

/-! ## The processes -/

abbrev Delivery := Queue.Delivery UInt64 Message

abbrev Broker := Queue.Broker Nat UInt64 Message

/-- What a worker process is busy with. -/
inductive Job where
  /-- An attempt of `run` to connect to the database. -/
  | connect
  /-- A call of `on_message`. -/
  | message (d : Delivery)

namespace Job

/-- The program of a job. It returns the worker as the job leaves it. -/
def program (parse : Bytes → Option Json) (w : Worker) : Job → Comp Worker
  | .connect => do
    let (db, _) ← w.db.connect
    return { w with db }
  | .message d => w.onMessage parse d.tag d.message.body

/-- The message whose handling the job is. -/
def message? : Job → Option Message
  | .connect => none
  | .message d => some d.message

end Job

/-- A job, and what is left of its program. -/
structure Activity where
  job : Job
  rest : Comp Worker

structure Process where
  /-- The worker at the beginning of its activity. -/
  worker : Worker
  sessions : Handle → Tx.Session (Nat × Stmt)
  /-- `available_` of its `BoxPool`. -/
  pool : List Int
  activity : Option Activity := none

/-! ## Steps -/

structure Deployment where
  published : List Message
  broker : Broker
  ledger : Ledger
  processes : Nat → Option Process

/-- What an operation of a process can touch: the broker, the database through the
    connections of the process, and its pool of boxes. -/
structure View where
  broker : Broker
  server : Server Ledger
  pool : List Int

/-- An operation of process `pid` while it handles `message`. An acknowledgement or a
    rejection may reach the broker or get lost on the way, whatever its answer; so may
    the answer of the database. `acquire` waits while the pool is empty. -/
inductive View.Effect (pid : Nat) (message : Option Message) : World Op.Res View where
  | server {v : View} {e : Event Op.Res} {server : Server Ledger} {pool : List Int}
      (h : Server.world (Ledger.commit message) true Eq v.server e server)
      (hpool : BoxPool.Serves v.pool e pool) :
      View.Effect pid message v e { v with server, pool }
  | acked {v : View} {tag : UInt64} {b : Bool} {broker : Broker}
      (h : v.broker.Step (.ack pid tag) broker) :
      View.Effect pid message v ⟨.basicAck tag, b⟩ { v with broker }
  | nacked {v : View} {tag : UInt64} {b : Bool} {broker : Broker}
      (h : v.broker.Step (.nack pid tag) broker) :
      View.Effect pid message v ⟨.basicNack tag, b⟩ { v with broker }

namespace Deployment

def view (s : Deployment) (p : Process) : View :=
  { broker := s.broker, server := { data := s.ledger, sessions := p.sessions }, pool := p.pool }

def setProcess (s : Deployment) (pid : Nat) (p : Option Process) : Deployment :=
  { s with processes := Function.update s.processes pid p }

/-- The state after an operation of process `pid`, which then goes on with `activity`. -/
def proceed (s : Deployment) (pid : Nat) (p : Process) (activity : Activity) (v : View) : Deployment :=
  { s with
    broker := v.broker
    ledger := v.server.data
    processes := Function.update s.processes pid
      (some { p with
              sessions := v.server.sessions
              pool := v.pool
              activity := some activity }) }

/-- Before anything is published and any process started. -/
def start (tables : Db) : Deployment :=
  { published := []
    broker := { ready := [], channels := fun _ => {} }
    ledger := { initial := tables, commits := [] }
    processes := fun _ => none }

inductive Step (parse : Bytes → Option Json) (s : Deployment) : Deployment → Prop where
  | publish {body : Bytes} {broker : Broker}
      (hbroker : s.broker.Step (.publish ⟨s.published.length, body⟩) broker) :
      Step parse s
        { s with broker, published := s.published ++ [⟨s.published.length, body⟩] }
  /-- A worker process starts, or is started again. It depends on isolate which of the boxes
      its constructor can make. -/
  | spawn {pid : Nat} {isolate : IsolateConfig} {count : Int} {pool : List Int}
      (hp : s.processes pid = none) (hpool : pool.Sublist (BoxPool.candidates isolate count)) :
      Step parse s
        (s.setProcess pid
          (some { worker := { isolate }, sessions := fun _ => .lost false, pool }))
  /-- `run` tries to connect to the database. -/
  | connectDb {pid : Nat} {p : Process} (hp : s.processes pid = some p)
      (hidle : p.activity = none) (hmq : p.worker.mq.connected = false) :
      Step parse s
        (s.setProcess pid
          (some { p with activity := some ⟨.connect, Job.connect.program parse p.worker⟩ }))
  /-- `RabbitMQClient::connect` succeeds. -/
  | connectMq {pid : Nat} {p : Process} {broker : Broker} (hp : s.processes pid = some p)
      (hidle : p.activity = none) (hdb : p.worker.db.connected = true)
      (hmq : p.worker.mq.connected = false)
      (hbroker : s.broker.Step (.openChannel pid) broker) :
      Step parse s
        (setProcess { s with broker } pid
          (some { p with worker := { p.worker with mq := { connected := true } } }))
  /-- The broker sends a message to a consumer. -/
  | deliver {pid : Nat} {tag : UInt64} {m : Message} {broker : Broker}
      (hbroker : s.broker.Step (.deliver pid tag m) broker) :
      Step parse s { s with broker }
  /-- `consume` takes a delivery and calls `on_message`. -/
  | consume {pid : Nat} {p : Process} {d : Delivery} {broker : Broker}
      (hp : s.processes pid = some p) (hidle : p.activity = none)
      (hmq : p.worker.mq.connected = true) (hbroker : s.broker.Step (.take pid d) broker) :
      Step parse s
        (setProcess { s with broker } pid
          (some { p with
                  activity := some ⟨.message d, (Job.message d).program parse p.worker⟩ }))
  | operation {pid : Nat} {p : Process} {job : Job} {op : Op} {k : op.Res → Comp Worker}
      {r : op.Res} {v : View} (hp : s.processes pid = some p)
      (hactivity : p.activity = some ⟨job, .exec op k⟩)
      (heffect : View.Effect pid job.message? (s.view p) ⟨op, r⟩ v) :
      Step parse s (s.proceed pid p ⟨job, k r⟩ v)
  /-- The program of an activity returns. -/
  | finish {pid : Nat} {p : Process} {job : Job} {w : Worker}
      (hp : s.processes pid = some p) (hactivity : p.activity = some ⟨job, .done w⟩) :
      Step parse s (s.setProcess pid (some { p with worker := w, activity := none }))
  /-- The connection to the broker breaks; the process notices later, if at all. -/
  | disconnect {pid : Nat} {broker : Broker} (hbroker : s.broker.Step (.close pid) broker) :
      Step parse s { s with broker }
  /-- A process dies, at any point: it is killed, `run` returns, or an exception leaves
      `on_message`, which nothing catches. -/
  | crash {pid : Nat} {broker : Broker} (hbroker : s.broker.Step (.close pid) broker) :
      Step parse s (setProcess { s with broker } pid none)

inductive Reachable (parse : Bytes → Option Json) : Deployment → Prop where
  | start {tables : Db} : Reachable parse (start tables)
  | step {s s' : Deployment} (h : Reachable parse s) (hstep : Step parse s s') : Reachable parse s'

end Deployment
