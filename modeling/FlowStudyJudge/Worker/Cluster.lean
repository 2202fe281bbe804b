-- SUMMARY: Any number of processes that run `main`, operation by operation, as followed by the deployment.
import FlowStudyJudge.Effects.Simulation
import FlowStudyJudge.Worker.Life
import FlowStudyJudge.Worker.Pool
import FlowStudyJudge.Worker.Standings

/-! # The cluster

The system once more, from the program: a process is what is left of `main`. `Deployment` has
instead the connections that a process has and the job it is in. Here it is shown that the
second describes the first. -/

namespace Cluster

/-- What the processes share. -/
structure Shared where
  broker : Broker
  ledger : Ledger

/-- What the surroundings know of one process. -/
structure Local where
  /-- No signal has been noticed. -/
  running : Bool := true
  sessions : Handle → Tx.Session (Nat × Stmt) := fun _ => .lost false
  /-- `available_` of its `BoxPool`. -/
  pool : List Int := []
  /-- The message taken last. -/
  message : Option Message := none

/-- Operations that touch neither the broker nor the database, or that get lost on the way. -/
def Silent : Event WorkerOp.Res → Prop
  | ⟨.host _, _⟩ | ⟨.loadRunning, _⟩ | ⟨.mysqlClose _, _⟩ => False
  | ⟨.amqp (.basicConsume ..), r⟩ => r = false
  | ⟨.amqp (.consumeMessage ..), r⟩ => ∀ deliveryTag body, r ≠ .message deliveryTag body
  | _ => True

/-- An operation of process `pid`. `running_` is set once, by the signal handler, and the
    process notices at its next read. The broker closes the channel of a consumer that could
    not be registered, so a failed `amqp_basic_consume` leaves nothing behind. -/
inductive Effect (pid : Nat) : World WorkerOp.Res (Shared × Local) where
  | host {v : Shared} {l : Local} {op : Op} {r : op.Res} {server : Server Ledger}
      {pool : List Int}
      (h : Server.world (Ledger.commit l.message) true Eq ⟨v.ledger, l.sessions⟩ ⟨op, r⟩ server)
      (hpool : BoxPool.Evolves l.pool ⟨op, r⟩ pool) :
      Effect pid (v, l) ⟨.host op, r⟩
        ({ v with ledger := server.data }, { l with sessions := server.sessions, pool })
  | acked {v : Shared} {l : Local} {conn : Conn} {channel : Nat} {tag : UInt64} {b : Bool}
      {broker : Broker} (h : v.broker.Step (.ack pid tag) broker) :
      Effect pid (v, l) ⟨.amqp (.basicAck conn channel tag), b⟩ ({ v with broker }, l)
  | nacked {v : Shared} {l : Local} {conn : Conn} {channel : Nat} {tag : UInt64} {b : Bool}
      {broker : Broker} (h : v.broker.Step (.nack pid tag) broker) :
      Effect pid (v, l) ⟨.amqp (.basicNack conn channel tag), b⟩ ({ v with broker }, l)
  | consumes {v : Shared} {l : Local} {conn : Conn} {channel : Nat} {queue : Bytes}
      {broker : Broker} (h : v.broker.Step (.openChannel pid) broker) :
      Effect pid (v, l) ⟨.amqp (.basicConsume conn channel queue), true⟩ ({ v with broker }, l)
  | takes {v : Shared} {l : Local} {conn : Conn} {timeout : Nat} {d : Delivery} {broker : Broker}
      (h : v.broker.Step (.take pid d) broker) :
      Effect pid (v, l)
        ⟨.amqp (.consumeMessage conn timeout), .message d.tag d.message.body⟩
        ({ v with broker }, { l with message := some d.message })
  | closes {v : Shared} {l : Local} {conn : Conn} {broker : Broker}
      (h : v.broker.Step (.close pid) broker) :
      Effect pid (v, l) ⟨.amqp (.connectionClose conn), ()⟩ ({ v with broker }, l)
  | running {v : Shared} {l : Local} (h : l.running = true) :
      Effect pid (v, l) ⟨.loadRunning, true⟩ (v, l)
  | stopped {v : Shared} {l : Local} :
      Effect pid (v, l) ⟨.loadRunning, false⟩ (v, { l with running := false })
  | mysqlCloses {v : Shared} {l : Local} {conn : Handle} :
      Effect pid (v, l) ⟨.mysqlClose conn, ()⟩
        (v, { l with sessions := Function.update l.sessions conn (.lost false) })
  | silent {v : Shared} {l : Local} {e : Event WorkerOp.Res} (h : Silent e) :
      Effect pid (v, l) e (v, l)

/-- A process, as what is left of its `main`. -/
structure Machine where
  rest : WorkerComp (Option Int)
  own : Local := {}

end Cluster

structure Cluster where
  published : List Message
  shared : Cluster.Shared
  machines : Nat → Option Cluster.Machine

namespace Cluster

def start (tables : Db) : Cluster :=
  { published := []
    shared := { broker := { ready := [], channels := fun _ => {} },
                ledger := { initial := tables, commits := [] } }
    machines := fun _ => none }

def withBroker (c : Cluster) (broker : Broker) : Cluster :=
  { c with shared := { c.shared with broker } }

inductive Step (parse : Bytes → Option Json) (c : Cluster) : Cluster → Prop where
  | publish {body : Bytes} {broker : Broker}
      (hbroker : c.shared.broker.Step (.publish ⟨c.published.length, body⟩) broker) :
      Step parse c
        { c.withBroker broker with published := c.published ++ [⟨c.published.length, body⟩] }
  /-- The broker sends a message to a consumer. -/
  | deliver {pid : Nat} {tag : UInt64} {m : Message} {broker : Broker}
      (hbroker : c.shared.broker.Step (.deliver pid tag m) broker) :
      Step parse c (c.withBroker broker)
  | disconnect {pid : Nat} {broker : Broker}
      (hbroker : c.shared.broker.Step (.close pid) broker) : Step parse c (c.withBroker broker)
  /-- `main` is called. The loops of its `run` may go any number of rounds. -/
  | launch {pid n : Nat} {argv : List Bytes} (hm : c.machines pid = none) :
      Step parse c
        { c with
          machines := Function.update c.machines pid
            (some { rest := WorkerProcess.main parse n argv }) }
  | operation {pid : Nat} {l l' : Local} {op : WorkerOp} {k : op.Res → WorkerComp (Option Int)}
      {r : op.Res} {v : Shared} (hm : c.machines pid = some ⟨.exec op k, l⟩)
      (heffect : Effect pid (c.shared, l) ⟨op, r⟩ (v, l')) :
      Step parse c
        { c with shared := v, machines := Function.update c.machines pid (some ⟨k r, l'⟩) }
  /-- A process ends: `main` has returned, an exception has left it, or it is killed. -/
  | exit {pid : Nat} {broker : Broker} (hbroker : c.shared.broker.Step (.close pid) broker) :
      Step parse c
        { c.withBroker broker with machines := Function.update c.machines pid none }

inductive Reachable (parse : Bytes → Option Json) : Cluster → Prop where
  | start {tables : Db} : Reachable parse (start tables)
  | step {c c' : Cluster} (h : Reachable parse c) (hstep : Step parse c c') : Reachable parse c'

/-! ## One process of the deployment -/

/-- A step of the deployment in which only process `pid` changes. -/
def Move (parse : Bytes → Option Json) (pid : Nat) (a b : Shared × Option Process) : Prop :=
  ∀ s : Deployment, s.broker = a.1.broker → s.ledger = a.1.ledger → s.processes pid = a.2 →
    Deployment.Step parse s
      { s with
        broker := b.1.broker
        ledger := b.1.ledger
        processes := Function.update s.processes pid b.2 }

abbrev Moves (parse : Bytes → Option Json) (pid : Nat) :
    Shared × Option Process → Shared × Option Process → Prop :=
  Relation.ReflTransGen (Move parse pid)

variable {parse : Bytes → Option Json} {pid : Nat} {v v' : Shared} {l l' : Local}
  {p : Process} {g : Option Process}

theorem Moves.reachable {a b : Shared × Option Process} (h : Moves parse pid a b)
    {s : Deployment} (hs : Deployment.Reachable parse s) (hbroker : s.broker = a.1.broker)
    (hledger : s.ledger = a.1.ledger) (hp : s.processes pid = a.2) :
    Deployment.Reachable parse
      { s with
        broker := b.1.broker
        ledger := b.1.ledger
        processes := Function.update s.processes pid b.2 } := by
  induction h with
  | refl =>
    rw [← hbroker, ← hledger, ← hp, Function.update_eq_self]
    exact hs
  | tail _ hmove ih =>
    have hnext := ih.step (hmove _ rfl rfl (Function.update_self ..))
    simp only [Function.update_idem] at hnext
    exact hnext

theorem Move.spawn {isolate : IsolateConfig} {count : Int} {pool : List Int}
    (hpool : pool.Sublist (BoxPool.candidates isolate count)) : Move parse pid (v, none)
    (v, some { worker := { isolate }, sessions := fun _ => .lost false, pool }) := by
  rintro s hbroker hledger hp
  have hstep : Deployment.Step parse s _ := .spawn hp hpool
  rw [← hbroker, ← hledger]
  exact hstep

theorem Move.connectDb (hidle : p.activity = none) (hmq : p.worker.mq.connected = false) :
    Move parse pid (v, some p)
      (v, some { p with activity := some ⟨.connect, Job.connect.program parse p.worker⟩ }) := by
  rintro s hbroker hledger hp
  have hstep : Deployment.Step parse s _ := .connectDb hp hidle hmq
  rw [← hbroker, ← hledger]
  exact hstep

theorem Move.connectMq {broker : Broker} (hidle : p.activity = none)
    (hdb : p.worker.db.connected = true) (hmq : p.worker.mq.connected = false)
    (hopen : v.broker.Step (.openChannel pid) broker) :
    Move parse pid (v, some p)
      ({ v with broker },
        some { p with worker := { p.worker with mq := { connected := true } } }) := by
  rintro s hbroker hledger hp
  rw [← hbroker] at hopen
  have hstep : Deployment.Step parse s _ := .connectMq hp hidle hdb hmq hopen
  rw [← hledger]
  exact hstep

theorem Move.consume {d : Delivery} {broker : Broker} (hidle : p.activity = none)
    (hmq : p.worker.mq.connected = true) (htake : v.broker.Step (.take pid d) broker) :
    Move parse pid (v, some p)
      ({ v with broker },
        some { p with activity := some ⟨.message d, (Job.message d).program parse p.worker⟩ }) := by
  rintro s hbroker hledger hp
  rw [← hbroker] at htake
  have hstep : Deployment.Step parse s _ := .consume hp hidle hmq htake
  rw [← hledger]
  exact hstep

theorem Move.operation {job : Job} {op : Op} {k : op.Res → Comp Worker} {r : op.Res} {w : View}
    (hactivity : p.activity = some ⟨job, .exec op k⟩)
    (heffect : View.Effect pid job.message? ⟨v.broker, ⟨v.ledger, p.sessions⟩, p.pool⟩ ⟨op, r⟩ w) :
    Move parse pid (v, some p)
      (⟨w.broker, w.server.data⟩,
        some { p with
               sessions := w.server.sessions
               pool := w.pool
               activity := some ⟨job, k r⟩ }) := by
  rintro s hbroker hledger hp
  rw [← hbroker, ← hledger] at heffect
  exact .operation hp hactivity heffect

theorem Move.finish {job : Job} {w : Worker} (hactivity : p.activity = some ⟨job, .done w⟩) :
    Move parse pid (v, some p) (v, some { p with worker := w, activity := none }) := by
  rintro s hbroker hledger hp
  have hstep : Deployment.Step parse s _ := .finish hp hactivity
  rw [← hbroker, ← hledger]
  exact hstep

theorem Move.close {broker : Broker} (hclose : v.broker.Step (.close pid) broker) :
    Move parse pid (v, g) ({ v with broker }, g) := by
  rintro s hbroker hledger hp
  rw [← hbroker] at hclose
  have hstep : Deployment.Step parse s _ := .disconnect hclose
  rw [← hledger, ← hp, Function.update_eq_self]
  exact hstep

/-! ## `main` -/

/-- The deployment can follow the program `q` with its process `pid`, from the state `g` on. -/
abbrev Follows (parse : Bytes → Option Json) (pid : Nat) {α : Type}
    (Q : α → Local → Option Process → Prop) (q : WorkerComp α) (l : Local) (g : Option Process) :
    Prop :=
  q.Simulated (Effect pid) (Move parse pid) Q l g

/-- The deployment's view of a process that is followed. -/
def Local.view (l : Local) (v : Shared) : View :=
  ⟨v.broker, ⟨v.ledger, l.sessions⟩, l.pool⟩

/-- An operation of the judge or of the clients is an operation of the deployment. -/
theorem Effect.view {mq : RabbitMQClient.Impl} {op : Op}
    {r : WorkerOp.Res (mq.hostEmbedding.op op)} (hdir : op.isBoxDir = false)
    (h : Effect pid (v, l) ⟨mq.hostEmbedding.op op, r⟩ (v', l')) :
    View.Effect pid l.message (l.view v) ⟨op, (mq.hostEmbedding.answer op).symm r⟩ (l'.view v') ∧
      l'.message = l.message := by
  -- a settlement that gets lost is no operation of the database or on the pool either
  have hlost : ∀ e : Event Op.Res, e.op.isSettlement = true →
      View.Effect pid l.message (l.view v) e (l.view v) := by
    rintro ⟨op, r⟩ he
    cases op with
    | basicAck | basicNack => exact .server (Server.world_other rfl) (.other nofun nofun)
    | _ => cases he
  cases op with
  | basicAck tag =>
    cases h with
    | acked h => exact ⟨.acked h, rfl⟩
    | silent => exact ⟨hlost _ rfl, rfl⟩
  | basicNack tag =>
    cases h with
    | nacked h => exact ⟨.nacked h, rfl⟩
    | silent => exact ⟨hlost _ rfl, rfl⟩
  | _ =>
    cases h with
    | host h hpool => exact ⟨.server h (hpool.of_noDir hdir), rfl⟩
    | silent h => exact h.elim

/-- A job, from inside of `main`: the process of the deployment is in the same job. -/
theorem follows_job {α : Type} {mq : RabbitMQClient.Impl} {job : Job} {w : Worker} {f : α → Worker}
    {P : α → Prop} {q : Comp α} (hp : ∀ tr a, q.Runs tr (.ok a) → P a)
    (hdir : ∀ tr out, q.Runs tr out → Trace.Only (fun op => !op.isBoxDir) tr)
    (hmessage : l.message = job.message?) :
    Follows parse pid
      (fun a l' g => P a ∧ l'.message = l.message ∧
        g = some { worker := f a, sessions := l'.sessions, pool := l'.pool })
      (q.embed mq.hostEmbedding) l
      (some { worker := w, sessions := l.sessions, pool := l.pool
              activity := some ⟨job, q >>= fun a => .done (f a)⟩ }) := by
  induction q generalizing l with
  | done a => exact ⟨_, fun _ => .single (.finish rfl), hp [] a .done, rfl, rfl⟩
  | raise x => trivial
  | exec op k ih =>
    intro v r v' l' heffect
    let r' := (mq.hostEmbedding.answer op).symm r
    have hk : ∀ tr out, (k r').Runs tr out →
        (!op.isBoxDir) = true ∧ Trace.Only (fun op => !op.isBoxDir) tr :=
      fun tr out hruns => Trace.only_cons.mp (hdir _ out (.exec hruns))
    have hop := (hk _ _ ((k r').runs_trace (Host.fixed fun _ => none) ())).1
    obtain ⟨hview, hsame⟩ := heffect.view (by simpa using hop)
    rw [hmessage] at hview
    let p : Process :=
      { worker := w, sessions := l.sessions, pool := l.pool
        activity := some ⟨job, .exec op k >>= fun a => .done (f a)⟩ }
    have hmove : Move parse pid (v, some p)
        (v', some { p with
                    sessions := l'.sessions
                    pool := l'.pool
                    activity := some ⟨job, k r' >>= fun a => .done (f a)⟩ }) :=
      Move.operation (p := p) (k := fun r => k r >>= fun a => .done (f a)) (r := r') rfl hview
    have hrest := ih r' (fun tr a hruns => hp _ a (.exec hruns))
      (fun tr out hruns => (hk tr out hruns).2) (hsame.trans hmessage)
    rw [hsame] at hrest
    exact ⟨_, .single hmove, hrest⟩

/-- Between two states connections may have broken, but the process has taken no message. -/
structure Local.Idles (l l' : Local) : Prop where
  message : l'.message = l.message
  sessions : ∀ conn, (l.sessions conn).Drops (l'.sessions conn)

theorem Effect.sandbox {mq : RabbitMQClient.Impl} {op : Op}
    {r : WorkerOp.Res (mq.hostEmbedding.op op)} (hop : op.isSandbox = true)
    (h : Effect pid (v, l) ⟨mq.hostEmbedding.op op, r⟩ (v', l')) :
    v' = v ∧ l.Idles l' ∧
      BoxPool.Evolves l.pool ⟨op, (mq.hostEmbedding.answer op).symm r⟩ l'.pool := by
  cases op with
  | ofstream | ifstream | mkdir | system =>
    cases h with
    | host h hpool =>
      obtain ⟨s₁, hidles, hserves⟩ := h
      cases hserves with
      | other =>
        exact ⟨congrArg (Shared.mk v.broker) hidles.data.symm, ⟨rfl, hidles.sessions⟩, hpool⟩
    | silent h => exact h.elim
  | _ => cases hop

/-- The operations on the boxes are nothing to the deployment, apart from what they do to the
    pool. -/
theorem follows_sandbox {α : Type} {mq : RabbitMQClient.Impl} {q : Comp α}
    (hq : ∀ tr out, q.Runs tr out → Trace.Only Op.isSandbox tr) :
    Follows parse pid
      (fun a l' g' => l.Idles l' ∧ g' = g ∧
        ∃ tr, q.Runs tr (.ok a) ∧ World.Path BoxPool.Evolves l.pool tr l'.pool)
      (q.embed mq.hostEmbedding) l g := by
  induction q generalizing l with
  | done a => exact .done ⟨⟨rfl, fun _ => .stays⟩, rfl, [], .done, .nil⟩
  | raise x => trivial
  | exec op k ih =>
    intro v r v' l' heffect
    let r' := (mq.hostEmbedding.answer op).symm r
    have hk : ∀ tr out, (k r').Runs tr out → op.isSandbox = true ∧ Trace.Only Op.isSandbox tr :=
      fun tr out hruns => Trace.only_cons.mp (hq _ out (.exec hruns))
    have hop := (hk _ _ ((k r').runs_trace (Host.fixed fun _ => none) ())).1
    obtain ⟨rfl, hidles, hpool⟩ := heffect.sandbox hop
    refine ⟨g, .refl, (ih r' fun tr out hruns => (hk tr out hruns).2).mono ?_⟩
    rintro a l'' g' ⟨hrest, rfl, tr, hruns, hpath⟩
    exact ⟨⟨hrest.message.trans hidles.message,
      fun conn => (hidles.sessions conn).trans (hrest.sessions conn)⟩, rfl, _, .exec hruns,
      .cons hpool hpath⟩

section

open WorkerProcess (Point behind)
open Worker (Connection)

/-- Between two rounds the process of the deployment is idle, and has the connections that
    the program believes to have. -/
structure Between (x : Point × WorkerProcess) (l : Local) (g : Option Process) : Prop where
  process : g = some { worker := x.2.toWorker, sessions := l.sessions, pool := l.pool }
  point : match x.1 with
    | .connect .mysql _ => x.2.mq.connected = false ∧ l.message = none
    | .connect .rabbitmq _ => x.2.mq.connected = false ∧ x.2.db.connected = true
    | .consume => x.2.mq.connected = true

/-- Behind a round: when `run` has left its loops, nothing is asked for any more. -/
abbrev Rounded : (Point × WorkerProcess) ⊕ (WorkerProcess × Int) → Local → Option Process →
    Prop :=
  Sum.elim Between fun _ _ _ => True

theorem follows_make {cfg : AppConfig} (hmessage : l.message = none)
    (hsessions : l.sessions = fun _ => .lost false) (hpool : l.pool = []) :
    Follows parse pid (fun p => Between (.connect .mysql 0, p)) (WorkerProcess.make cfg) l
      none := by
  refine (follows_sandbox fun _ _ => BoxPool.make_only).bind ?_
  rintro boxes l' g ⟨hidles, rfl, tr, hmake, hpath⟩
  have hlost : l'.sessions = fun _ => .lost false := by
    funext conn
    have hdrops := hidles.sessions conn
    rw [hsessions] at hdrops
    generalize l'.sessions conn = c at hdrops
    cases hdrops
    rfl
  -- the pool is the one that the constructor returns
  rw [hpool] at hpath
  have hboxes : l'.pool = boxes := BoxPool.evolves_unique hpath (BoxPool.make_evolves hmake)
  have hsub : l'.pool.Sublist (BoxPool.candidates cfg.isolate cfg.judge.concurrency) := by
    rw [hboxes, Except.ok.inj (BoxPool.make_runs hmake)]
    exact List.filter_sublist
  refine ⟨_, fun v => .single (Move.spawn hsub), ?_, rfl, hidles.message.trans hmessage⟩
  rw [hlost]
  rfl

theorem follows_leave {c : Connection} {p : WorkerProcess}
    (hready : l.running = true → Between (behind c, p) l g) :
    Follows parse pid Rounded (p.leave c) l g := by
  refine Prog.Simulated.perform_bind fun v r v' l' heffect => ⟨g, ?_⟩
  cases heffect with
  | running h => exact ⟨.refl, .done (hready h)⟩
  -- `run` returns, and the process of the deployment stays as it is until `exit`
  | stopped => exact ⟨.refl, .done trivial⟩
  | silent h => exact h.elim

theorem connect_connected {db : MySQLClient} {tr : Trace Op.Res} {r : MySQLClient × Bool}
    (h : db.connect.Runs tr (.ok r)) : r.2 = true → r.1.connected = true := by
  obtain ⟨_, ⟨⟩, hconnected⟩ := MySQLClient.connect_runs h
  cases hconnected with
  | connected => exact fun _ => rfl
  | noHandle | refused => exact nofun

theorem connect_noBoxDir {db : MySQLClient} {tr : Trace Op.Res}
    {out : Except Abort (MySQLClient × Bool)} (h : db.connect.Runs tr out) :
    Trace.Only (fun op => !op.isBoxDir) tr := by
  obtain ⟨_, -, hconnected⟩ := MySQLClient.connect_runs h
  exact Worker.noBoxDir_database hconnected.only

/-- The point behind an attempt to connect. -/
def attempted (c : Connection) (retries : Nat) (ok : Bool) : Point :=
  if ok then behind c else .connect c retries

theorem follows_mysql {p : WorkerProcess} {retries : Nat}
    (h : Between (.connect .mysql retries, p) l g) :
    Follows parse pid (fun r l' => Between (attempted .mysql (retries + 1) r.2, r.1) l')
      (p.attempt .mysql) l g := by
  obtain ⟨rfl, hmq, hmessage⟩ := h
  let w : MySQLClient × Bool → Worker := fun r => { p.toWorker with db := r.1 }
  let idle : Process := { worker := p.toWorker, sessions := l.sessions, pool := l.pool }
  let busy : Process :=
    { idle with activity := some ⟨.connect, p.db.connect >>= fun r => .done (w r)⟩ }
  have hbegin : ∀ v, Moves parse pid (v, some idle) (v, some busy) :=
    fun v => .single (Move.connectDb rfl hmq)
  have hjob : Follows parse pid
      (fun r l' g => (r.2 = true → r.1.connected = true) ∧ l'.message = l.message ∧
        g = some { worker := w r, sessions := l'.sessions, pool := l'.pool })
      (p.host p.db.connect) l (some busy) :=
    follows_job (fun _ _ => connect_connected) (fun _ _ => connect_noBoxDir) hmessage
  refine (hjob.before hbegin).bind ?_
  rintro ⟨db, ok⟩ l' g ⟨hconnected, hmessage', rfl⟩
  refine .done ⟨rfl, ?_⟩
  cases ok with
  | true => exact ⟨hmq, hconnected rfl⟩
  | false => exact ⟨hmq, hmessage'.trans hmessage⟩

/-- The calls of the AMQP library that touch no consumer and no delivery. -/
def unseen : AmqpOp → Bool
  | .basicConsume .. | .consumeMessage .. | .basicAck .. | .basicNack .. | .connectionClose _ => false
  | _ => true

theorem Effect.unseen {op : AmqpOp} {r : op.Res} (hop : unseen op = true)
    (h : Effect pid (v, l) ⟨.amqp op, r⟩ (v', l')) : v' = v ∧ l' = l := by
  cases h with
  | silent => exact ⟨rfl, rfl⟩
  | acked | nacked | consumes | takes | closes => cases hop

theorem follows_unseen {α : Type} {Q : α → Local → Option Process → Prop} {op : AmqpOp}
    {k : op.Res → AmqpComp α} (hop : unseen op = true)
    (hk : ∀ r, Follows parse pid Q ((k r).embed amqpEmbedding) l g) :
    Follows parse pid Q ((Prog.exec op k).embed amqpEmbedding) l g := by
  intro v r v' l' heffect
  obtain ⟨rfl, rfl⟩ := heffect.unseen hop
  exact ⟨g, .refl, hk r⟩

theorem follows_rabbitmq {p : WorkerProcess} {retries : Nat}
    (h : Between (.connect .rabbitmq retries, p) l g) :
    Follows parse pid (fun r l' => Between (attempted .rabbitmq (retries + 1) r.2, r.1) l')
      (p.attempt .rabbitmq) l g := by
  obtain ⟨rfl, hmq, hdb⟩ := h
  let idle : Process := { worker := p.toWorker, sessions := l.sessions, pool := l.pool }
  have hfails : ∀ conn,
      Between (.connect .rabbitmq (retries + 1), { p with mq := { p.mq with conn } }) l
        (some idle) :=
    fun conn => ⟨rfl, hmq, hdb⟩
  have hconnect : Follows parse pid
      (fun r l' => Between (attempted .rabbitmq (retries + 1) r.2, { p with mq := r.1 }) l')
      (WorkerProcess.amqp p.mq.connect) l (some idle) := by
    refine follows_unseen rfl fun conn => follows_unseen rfl fun socket => ?_
    cases socket with
    | false => exact .done (hfails conn)
    | true =>
    refine follows_unseen rfl fun opened => ?_
    cases opened with
    | false => exact .done (hfails conn)
    | true =>
    refine follows_unseen rfl fun loggedIn => ?_
    cases loggedIn with
    | false => exact .done (hfails conn)
    | true =>
    refine follows_unseen rfl fun channel => ?_
    cases channel with
    | false => exact .done (hfails conn)
    | true =>
    refine follows_unseen rfl fun declared => ?_
    cases declared with
    | false => exact .done (hfails conn)
    | true =>
    refine follows_unseen rfl fun _ => ?_
    -- only the last call makes the process a consumer
    intro v consuming v' l' heffect
    cases heffect with
    | consumes hopen => exact ⟨_, .single (Move.connectMq rfl hdb hmq hopen), .done ⟨rfl, rfl⟩⟩
    | silent hfailed =>
      cases hfailed
      exact ⟨_, .refl, .done (hfails conn)⟩
  exact hconnect.bind fun r l' g hr => .done hr

/-- `on_message` changes the database client at most. -/
theorem onMessage_fields {w w' : Worker} {tag : UInt64} {body : Bytes} {tr : Trace Op.Res}
    (hmq : w.mq.connected = true) (h : (w.onMessage parse tag body).Runs tr (.ok w')) :
    w' = { w with db := w'.db } := by
  cases hparse : JudgeEngine.parseMessage parse body with
  | none =>
    obtain ⟨b, -, hw⟩ := Worker.onMessage_rejected_runs hmq hparse h
    cases hw
    rfl
  | some submission =>
    generalize hout : (Except.ok w' : Except Abort Worker) = out at h
    cases Worker.onMessage_accepted_runs hmq hparse h with
    | thrown | crashed => cases hout
    | acked | nacked =>
      cases hout
      rfl

theorem follows_consume {p : WorkerProcess} (h : Between (.consume, p) l g) :
    Follows parse pid (Sum.elim (fun p => Between (.consume, p)) fun _ _ _ => True)
      (p.consumeRound parse) l g := by
  obtain ⟨rfl, hmq⟩ := h
  have hmq' : (!p.mq.connected) = false := by
    rw [Bool.not_eq_false']
    exact hmq
  unfold WorkerProcess.consumeRound
  rw [if_neg (by rw [hmq']; exact Bool.false_ne_true)]
  refine Prog.Simulated.perform_bind fun v r v' l' heffect => ?_
  cases heffect with
  | silent hsilent =>
    refine ⟨_, .refl, ?_⟩
    cases r with
    | timeout => exact .done ⟨rfl, hmq⟩
    | error => exact .done trivial
    | message tag body => exact absurd rfl (hsilent tag body)
  | @takes _ _ _ _ d broker htake =>
    let q := p.toWorker.onMessage parse d.tag d.message.body
    let idle : Process := { worker := p.toWorker, sessions := l.sessions, pool := l.pool }
    let busy : Process := { idle with activity := some ⟨.message d, q >>= fun w => .done w⟩ }
    have hmoves : Moves parse pid (v, some idle) ({ v with broker }, some busy) := by
      simp only [busy, Prog.bind_done]
      exact .single (Move.consume rfl hmq htake)
    let l₁ : Local := { l with message := some d.message }
    have hjob : Follows parse pid
        (fun w l' g => w = { p.toWorker with db := w.db } ∧ l'.message = l₁.message ∧
          g = some { worker := w, sessions := l'.sessions, pool := l'.pool })
        (p.host q) l₁ (some busy) :=
      follows_job (f := fun w => w) (P := fun w => w = { p.toWorker with db := w.db })
        (fun _ _ => onMessage_fields hmq) (fun _ _ => Worker.onMessage_noBoxDir hmq) rfl
    refine ⟨_, hmoves, hjob.bind ?_⟩
    rintro w l' g ⟨hfields, -, rfl⟩
    intro v₁ _ v₂ l₂ hdestroyed
    obtain ⟨rfl, rfl⟩ := hdestroyed.unseen rfl
    refine ⟨_, .refl, .done ?_⟩
    rw [hfields]
    exact ⟨rfl, hmq⟩

theorem follows_round {x : Point × WorkerProcess} (h : Between x l g) :
    Follows parse pid Rounded (WorkerProcess.round parse x) l g := by
  obtain ⟨point, p⟩ := x
  cases point with
  | consume =>
    refine (follows_consume h).bind fun r l' g hr => ?_
    cases r with
    | inl p => exact .done hr
    | inr ok => exact .done trivial
  | connect c retries =>
    have hattempt : Follows parse pid
        (fun r l' => Between (attempted c (retries + 1) r.2, r.1) l') (p.attempt c) l g := by
      cases c with
      | mysql => exact follows_mysql h
      | rabbitmq => exact follows_rabbitmq h
    refine Prog.Simulated.perform_bind fun v r v' l' heffect => ⟨g, ?_⟩
    cases heffect with
    -- the loop is left without a connection, but then `running_` reads as cleared again
    | stopped => exact ⟨.refl, follows_leave nofun⟩
    | silent h => exact h.elim
    | running =>
      refine ⟨.refl, hattempt.bind ?_⟩
      rintro ⟨p, ok⟩ l' g hr
      cases ok with
      | true => exact follows_leave fun _ => hr
      | false =>
        refine Prog.Simulated.perform_bind fun v r v' l'' heffect => ?_
        cases heffect with
        | silent => exact ⟨_, .refl, .done hr⟩

theorem follows_close {mq : RabbitMQClient.Impl} :
    Follows parse pid (fun _ _ _ => True) (WorkerProcess.amqp mq.destroy) l g := by
  have hclose : ∀ conn l, Follows parse pid (fun _ _ _ => True)
      (WorkerProcess.amqp (do Amqp.connectionClose conn; Amqp.destroyConnection conn)) l g := by
    intro conn l v r v' l' heffect
    refine ⟨g, ?_, follows_unseen rfl fun _ => .done trivial⟩
    cases heffect with
    | closes hclosed => exact .single (Move.close hclosed)
    | silent => exact .refl
  unfold RabbitMQClient.Impl.destroy
  split
  · exact .done trivial
  · rename_i conn
    cases mq.consuming with
    | false => exact hclose _ l
    | true => exact follows_unseen rfl fun _ => hclose _ l

theorem follows_destroy {p : WorkerProcess} :
    Follows parse pid (fun _ _ _ => True) p.destroy l g := by
  have honly : ∀ tr out, (BoxPool.cleanupAll p.cfg.isolate p.boxes).Runs tr out →
      Trace.Only Op.isSandbox tr := by
    intro tr out hruns
    cases WorkerProcess.cleanupAll_returns hruns
    exact WorkerProcess.cleanupAll_only hruns
  refine (follows_sandbox honly).bind ?_
  rintro _ l' g ⟨-, rfl, -⟩
  cases p.db.conn with
  | none => exact follows_close
  | some conn =>
    refine Prog.Simulated.perform_bind fun v r v' l'' heffect => ?_
    cases heffect with
    | mysqlCloses => exact ⟨g, .refl, follows_close⟩
    | silent h => exact h.elim

/-- The deployment can follow `main`, whatever happens to it. -/
theorem follows_main {n : Nat} {argv : List Bytes} :
    Follows parse pid (fun _ _ _ => True) (WorkerProcess.main parse n argv) {} none := by
  refine Prog.Simulated.perform_bind fun v file v' l' heffect => ?_
  cases heffect with
  | silent =>
    refine ⟨none, .refl, ?_⟩
    cases AppConfig.load parse file with
    | none => exact .done trivial
    | some cfg =>
      refine (follows_make rfl rfl rfl).bind fun p l g hp => ?_
      refine (Prog.Simulated.rounds (fun _ _ _ => follows_round) hp).bind fun r l g _ => ?_
      cases r with
      | inl => exact .done trivial
      | inr r => exact follows_destroy.bind fun _ _ _ _ => .done trivial

end

/-! ## The deployment follows the cluster -/

def Followed (parse : Bytes → Option Json) (pid : Nat) : Option Machine → Option Process → Prop
  | none, g => g = none
  | some m, g => Follows parse pid (fun _ _ _ => True) m.rest m.own g

/-- The same messages, the same queue and the same tables, and each process is followed. -/
structure Described (parse : Bytes → Option Json) (c : Cluster) (s : Deployment) : Prop where
  published : s.published = c.published
  broker : s.broker = c.shared.broker
  ledger : s.ledger = c.shared.ledger
  processes : ∀ pid, Followed parse pid (c.machines pid) (s.processes pid)

variable {c c' : Cluster} {s : Deployment}

theorem Described.update (h : Described parse c s) {m : Option Machine}
    (hm : Followed parse pid m g) (pid' : Nat) :
    Followed parse pid' (Function.update c.machines pid m pid')
      (Function.update s.processes pid g pid') := by
  by_cases hpid : pid' = pid
  · subst hpid
    rw [Function.update_self, Function.update_self]
    exact hm
  · rw [Function.update_of_ne hpid, Function.update_of_ne hpid]
    exact h.processes pid'

theorem Step.described (hstep : Step parse c c') (h : Described parse c s)
    (hs : Deployment.Reachable parse s) :
    ∃ s', Deployment.Reachable parse s' ∧ Described parse c' s' := by
  cases hstep with
  | publish hbroker =>
    rw [← h.broker, ← h.published] at hbroker
    refine ⟨_, hs.step (.publish hbroker), ?_, rfl, h.ledger, h.processes⟩
    rw [h.published]
  | deliver hbroker =>
    rw [← h.broker] at hbroker
    exact ⟨_, hs.step (.deliver hbroker), h.published, rfl, h.ledger, h.processes⟩
  | disconnect hbroker =>
    rw [← h.broker] at hbroker
    exact ⟨_, hs.step (.disconnect hbroker), h.published, rfl, h.ledger, h.processes⟩
  | @launch pid n argv hm =>
    -- the process is there before the deployment has it: it appears with its pool
    have hnone : s.processes pid = none := by
      have hfollowed := h.processes pid
      rw [hm] at hfollowed
      exact hfollowed
    have hsame : Deployment.Reachable parse _ :=
      Moves.reachable (a := (c.shared, none)) .refl hs h.broker h.ledger hnone
    exact ⟨_, hsame, h.published, rfl, rfl, h.update follows_main⟩
  | @operation pid l l' op k r v hm heffect =>
    have hfollowed := h.processes pid
    rw [hm] at hfollowed
    obtain ⟨g, hmoves, hrest⟩ := hfollowed c.shared r v l' heffect
    exact ⟨_, Moves.reachable hmoves hs h.broker h.ledger rfl, h.published, rfl, rfl,
      h.update hrest⟩
  | @exit pid broker hclose =>
    rw [← h.broker] at hclose
    exact ⟨_, hs.step (.crash hclose), h.published, rfl, h.ledger, h.update rfl⟩

theorem Reachable.described (h : Reachable parse c) :
    ∃ s, Deployment.Reachable parse s ∧ Described parse c s := by
  induction h with
  | @start tables =>
    exact ⟨Deployment.start tables, .start, rfl, rfl, rfl, fun _ => rfl⟩
  | step _ hstep ih =>
    obtain ⟨s, hs, hdescribed⟩ := ih
    exact hstep.described hdescribed hs

/-- A message is published, and a process begins and reads its configuration. -/
theorem sample_cluster (argv : List Bytes) (file : Option Bytes) :
    ∃ c, Reachable JudgeEngine.sampleParse c ∧ c.published = [Deployment.sampleQueued] ∧
      (c.machines 0).isSome ∧ c.shared.ledger.commits = [] := by
  let b : Broker := { ready := [Deployment.sampleQueued], channels := fun _ => {} }
  let c₁ : Cluster := { (start sampleDb).withBroker b with published := [Deployment.sampleQueued] }
  let main := WorkerProcess.main JudgeEngine.sampleParse 3 argv
  let c₂ : Cluster := { c₁ with machines := Function.update c₁.machines 0 (some ⟨main, {}⟩) }
  have hpublish : Step JudgeEngine.sampleParse (start sampleDb) c₁ := .publish .publish
  have hlaunch : Step JudgeEngine.sampleParse c₁ c₂ := .launch rfl
  have hread : Effect 0 (c₂.shared, {}) ⟨.readConfig (WorkerProcess.configPath argv), file⟩
      (c₂.shared, {}) := .silent trivial
  have hlaunched := (Reachable.start.step hpublish).step hlaunch
  exact ⟨_, hlaunched.step (.operation rfl hread), rfl, rfl, rfl⟩

end Cluster
