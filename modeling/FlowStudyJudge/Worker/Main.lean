-- SUMMARY: The worker process from `main` on: configuration, construction, the loops of `run` and `consume`, and destruction.
import FlowStudyJudge.Effects.Embed
import FlowStudyJudge.Mq.Client
import FlowStudyJudge.Worker.Shutdown
import FlowStudyJudge.Judge.BoxPool

/-! # The worker process

`main` loads the configuration, constructs a `Worker`, calls `run` and destroys the worker
when `run` returns. The loops of `run` and `consume` need not end, so the process is
modelled up to any number of rounds of them. -/

/-- The operations of the process: those of the judge and the database client, those of the
    AMQP client, and its own. -/
inductive WorkerOp where
  | host (op : Op)
  | amqp (op : AmqpOp)
  /-- The content of the configuration file, if it can be opened. -/
  | readConfig (path : Bytes)
  /-- A read of `running_`. -/
  | loadRunning
  | sleepFor (seconds : Nat)
  | mysqlClose (conn : Handle)
  deriving DecidableEq

abbrev WorkerOp.Res : WorkerOp → Type
  | .host op => op.Res
  | .amqp op => op.Res
  | .readConfig _ => Option Bytes
  | .loadRunning => Bool
  | .sleepFor _ | .mysqlClose _ => Unit

abbrev WorkerComp := Prog WorkerOp.Res Abort

/-- A call of `ack` or `nack_requeue` goes to the connection and the channel of the client;
    every other operation of `on_message` is what it is. -/
def RabbitMQClient.Impl.hostEmbedding (mq : RabbitMQClient.Impl) :
    Embedding Op.Res WorkerOp.Res where
  op op :=
    match op with
    | .basicAck deliveryTag => .amqp (.basicAck mq.conn mq.channel deliveryTag)
    | .basicNack deliveryTag => .amqp (.basicNack mq.conn mq.channel deliveryTag)
    | op => .host op
  answer op :=
    match op with
    | .acquire | .release _ | .ofstream _ _ | .ifstream _ _ | .mkdir _ | .system _ | .mysqlInit
    | .mysqlRealConnect _ | .mysqlPing _ | .mysqlQuery _ _ | .basicAck _ | .basicNack _ =>
      .refl _

def amqpEmbedding : Embedding AmqpOp.Res WorkerOp.Res where
  op := .amqp
  answer _ := .refl _

/-- The members of `Worker`, `running_` apart, and the boxes of its engine's pool. -/
structure WorkerProcess where
  cfg : AppConfig
  mq : RabbitMQClient.Impl
  db : MySQLClient := {}
  /-- `boxes_`, by their ids. -/
  boxes : List Int

/-- `cleanup` -/
def Sandbox.cleanup (sb : Sandbox) : Comp Bool := do
  let ret ← Host.system (sb.isolateBin ++ " --cleanup --box-id=" ++ Bytes.ofInt sb.boxId)
  return decide (ret = 0)

/-- The destructor of the pool. -/
def BoxPool.cleanupAll (cfg : IsolateConfig) : List Int → Comp Unit
  | [] => return ()
  | boxId :: rest => do
    let _ ← (Sandbox.make boxId cfg).cleanup
    cleanupAll cfg rest

namespace WorkerProcess

open Worker (Connection retryDelay)

/-- The worker as `on_message` sees it. -/
def toWorker (p : WorkerProcess) : Worker :=
  { isolate := p.cfg.isolate, mq := p.mq.toRabbitMQClient, db := p.db }

/-- A computation of the judge or the database client, inside of this process. -/
def host {α : Type} (p : WorkerProcess) (c : Comp α) : WorkerComp α :=
  c.embed p.mq.hostEmbedding

def amqp {α : Type} (c : AmqpComp α) : WorkerComp α :=
  c.embed amqpEmbedding

def loadRunning : WorkerComp Bool := Prog.perform WorkerOp.loadRunning

def sleepFor (seconds : Nat) : WorkerComp Unit := Prog.perform (WorkerOp.sleepFor seconds)

/-! ## `run` -/

/-- Where `run` is between two rounds of its loops. -/
inductive Point where
  | connect (c : Connection) (retries : Nat)
  | consume
  deriving DecidableEq, Repr

/-- What follows the loop that connects. -/
def behind : Connection → Point
  | .mysql => .connect .rabbitmq 0
  | .rabbitmq => .consume

/-- The second half of the condition of a connect loop. -/
def attempt (p : WorkerProcess) : Connection → WorkerComp (WorkerProcess × Bool)
  | .mysql => do
    let (db, ok) ← p.host p.db.connect
    return ({ p with db }, ok)
  | .rabbitmq => do
    let (mq, ok) ← amqp p.mq.connect
    return ({ p with mq }, ok)

/-- `if (!running_) return 0;` behind a connect loop. -/
def leave (p : WorkerProcess) (c : Connection) :
    WorkerComp ((Point × WorkerProcess) ⊕ (WorkerProcess × Int)) := do
  if ← loadRunning then
    return .inl (behind c, p)
  else
    return .inr (p, 0)

/-- One iteration of the loop in `consume`, with `on_message` as the callback. The check of
    `connected` stands in front of the loop; nothing inside of it writes the flag. -/
def consumeRound (parse : Bytes → Option Json) (p : WorkerProcess) :
    WorkerComp (WorkerProcess ⊕ Bool) :=
  if !p.mq.connected then return .inr false
  else do
    match ← amqp (Amqp.consumeMessage p.mq.conn 1) with
    | .timeout => return .inl p
    | .error => return .inr false
    | .message deliveryTag body => do
      let w ← p.host (p.toWorker.onMessage parse deliveryTag body)
      amqp Amqp.destroyEnvelope
      return .inl { p with db := w.db }

/-- One round of the loop that `run` is in. -/
def round (parse : Bytes → Option Json) :
    Point × WorkerProcess → WorkerComp ((Point × WorkerProcess) ⊕ (WorkerProcess × Int))
  | (.connect c retries, p) => do
    if ← loadRunning then do
      let (p, ok) ← p.attempt c
      if ok then p.leave c
      else do
        sleepFor (retryDelay (retries + 1))
        return .inl (.connect c (retries + 1), p)
    else p.leave c
  | (.consume, p) => do
    match ← p.consumeRound parse with
    | .inl p => return .inl (.consume, p)
    | .inr ok => return .inr (p, if ok then 0 else 1)

/-- `run`, up to `n` rounds. It returns with the exit code, or is still running. -/
def run (parse : Bytes → Option Json) (n : Nat) (p : WorkerProcess) :
    WorkerComp ((Point × WorkerProcess) ⊕ (WorkerProcess × Int)) :=
  Prog.rounds (round parse) n (.connect .mysql 0, p)

/-! ## `main` -/

/-- The constructor. -/
def make (cfg : AppConfig) : WorkerComp WorkerProcess := do
  let p : WorkerProcess := { cfg, mq := { config := cfg.rabbitmq }, boxes := [] }
  let boxes ← p.host (BoxPool.make cfg.isolate cfg.judge.concurrency)
  return { p with boxes }

/-- The destructor: the members in the reverse order of their declarations. -/
def destroy (p : WorkerProcess) : WorkerComp Unit := do
  p.host (BoxPool.cleanupAll p.cfg.isolate p.boxes)
  match p.db.conn with
  | none => pure ()
  | some conn => Prog.perform (WorkerOp.mysqlClose conn)
  amqp p.mq.destroy

/-- `argc >= 2 ? argv[1] : "config.json"` -/
def configPath : List Bytes → Bytes
  | _ :: path :: _ => path
  | _ => "config.json"

/-- `main`, up to `n` rounds of the loops of `run`: its exit code, if it has returned. -/
def main (parse : Bytes → Option Json) (n : Nat) (argv : List Bytes) : WorkerComp (Option Int) := do
  match AppConfig.load parse (← Prog.perform (WorkerOp.readConfig (configPath argv))) with
  | none => return some 1
  | some cfg => do
    match ← (← make cfg).run parse n with
    | .inl _ => return none
    | .inr (p, ret) => do
      p.destroy
      return some ret

end WorkerProcess
