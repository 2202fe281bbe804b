-- SUMMARY: The possible runs of the worker process, one inversion lemma for each of its parts.
import FlowStudyJudge.Worker.Main
import FlowStudyJudge.Worker.Settle
import FlowStudyJudge.Db.Handles

namespace WorkerProcess

open Worker (Connection retryDelay)

variable {parse : Bytes → Option Json} {p : WorkerProcess} {tr : Trace WorkerOp.Res}

/-- An event of the judge or the database client, inside of this process. -/
def hostEvent (p : WorkerProcess) : Event Op.Res → Event WorkerOp.Res :=
  p.mq.hostEmbedding.event

def amqpEvent : Event AmqpOp.Res → Event WorkerOp.Res :=
  amqpEmbedding.event

theorem host_runs {α : Type} {c : Comp α} {out : Except Abort α} :
    (p.host c).Runs tr out ↔ ∃ inner, tr = inner.map p.hostEvent ∧ c.Runs inner out :=
  Prog.runs_embed

theorem amqp_runs {α : Type} {c : AmqpComp α} {out : Except Abort α} :
    (amqp c).Runs tr out ↔ ∃ inner, tr = inner.map amqpEvent ∧ c.Runs inner out :=
  Prog.runs_embed

theorem amqp_perform_bind_runs {α : Type} {op : AmqpOp} {f : op.Res → WorkerComp α}
    {out : Except Abort α} :
    (amqp (Prog.perform op : AmqpComp op.Res) >>= f).Runs tr out ↔
      ∃ r tr', tr = ⟨.amqp op, r⟩ :: tr' ∧ (f r).Runs tr' out := by
  simp only [amqp, Prog.perform, Prog.embed, Prog.exec_bind, Prog.done_bind, Prog.runs_exec]
  rfl

/-! ## One round -/

/-- The ways an attempt to connect can go. -/
inductive Attempted (p : WorkerProcess) :
    Connection → Trace WorkerOp.Res → WorkerProcess → Bool → Prop where
  | mysql {inner : Trace Op.Res} {db : MySQLClient} {ok : Bool}
      (hconnect : p.db.Connected inner (db, ok)) :
      Attempted p .mysql (inner.map p.hostEvent) { p with db } ok
  | rabbitmq {inner : Trace AmqpOp.Res} {mq : RabbitMQClient.Impl} {ok : Bool}
      (hconnect : p.mq.Connected inner (mq, ok)) :
      Attempted p .rabbitmq (inner.map amqpEvent) { p with mq } ok

theorem attempt_runs {c : Connection} {out : Except Abort (WorkerProcess × Bool)}
    (h : (p.attempt c).Runs tr out) :
    ∃ p' ok, out = .ok (p', ok) ∧ p.Attempted c tr p' ok := by
  cases c with
  | mysql =>
    rcases Prog.runs_bind.mp h with ⟨⟨db, ok⟩, tr₁, tr₂, h₁, h₂, rfl⟩ | ⟨x, h₁, rfl⟩
    · obtain ⟨rfl, rfl⟩ := Prog.runs_done.mp h₂
      obtain ⟨inner, rfl, hinner⟩ := host_runs.mp h₁
      obtain ⟨_, hres, hconnect⟩ := MySQLClient.connect_runs hinner
      cases hres
      rw [List.append_nil]
      exact ⟨_, _, rfl, .mysql hconnect⟩
    · obtain ⟨inner, -, hinner⟩ := host_runs.mp h₁
      obtain ⟨_, hres, -⟩ := MySQLClient.connect_runs hinner
      cases hres
  | rabbitmq =>
    rcases Prog.runs_bind.mp h with ⟨⟨mq, ok⟩, tr₁, tr₂, h₁, h₂, rfl⟩ | ⟨x, h₁, rfl⟩
    · obtain ⟨rfl, rfl⟩ := Prog.runs_done.mp h₂
      obtain ⟨inner, rfl, hinner⟩ := amqp_runs.mp h₁
      obtain ⟨_, hres, hconnect⟩ := RabbitMQClient.Impl.connect_runs hinner
      cases hres
      rw [List.append_nil]
      exact ⟨_, _, rfl, .rabbitmq hconnect⟩
    · obtain ⟨inner, -, hinner⟩ := amqp_runs.mp h₁
      obtain ⟨_, hres, -⟩ := RabbitMQClient.Impl.connect_runs hinner
      cases hres

/-- Where `run` goes behind a connect loop, after it has read `running_` once more. -/
def left (p : WorkerProcess) (c : Connection) (running : Bool) :
    (Point × WorkerProcess) ⊕ (WorkerProcess × Int) :=
  if running then .inl (behind c, p) else .inr (p, 0)

theorem leave_runs {c : Connection}
    {out : Except Abort ((Point × WorkerProcess) ⊕ (WorkerProcess × Int))}
    (h : (p.leave c).Runs tr out) :
    ∃ running, tr = [⟨.loadRunning, running⟩] ∧ out = .ok (p.left c running) := by
  obtain ⟨running, tr₁, rfl, h₁⟩ := Prog.runs_perform_bind.mp h
  refine ⟨running, ?_⟩
  cases running with
  | false | true =>
    obtain ⟨rfl, rfl⟩ := Prog.runs_done.mp h₁
    exact ⟨rfl, rfl⟩

/-- The ways a round can go. -/
inductive Rounded (parse : Bytes → Option Json) :
    Point × WorkerProcess → Trace WorkerOp.Res →
      Except Abort ((Point × WorkerProcess) ⊕ (WorkerProcess × Int)) → Prop where
  /-- `running_` is down before the attempt. -/
  | stopped {c : Connection} {retries : Nat} {p : WorkerProcess} {running : Bool} :
      Rounded parse (.connect c retries, p)
        [⟨.loadRunning, false⟩, ⟨.loadRunning, running⟩] (.ok (p.left c running))
  | connected {c : Connection} {retries : Nat} {p p' : WorkerProcess}
      {tr : Trace WorkerOp.Res} {running : Bool} (hattempt : p.Attempted c tr p' true) :
      Rounded parse (.connect c retries, p)
        (⟨.loadRunning, true⟩ :: (tr ++ [⟨.loadRunning, running⟩])) (.ok (p'.left c running))
  | refused {c : Connection} {retries : Nat} {p p' : WorkerProcess} {tr : Trace WorkerOp.Res}
      (hattempt : p.Attempted c tr p' false) :
      Rounded parse (.connect c retries, p)
        (⟨.loadRunning, true⟩ :: (tr ++ [⟨.sleepFor (retryDelay (retries + 1)), ()⟩]))
        (.ok (.inl (.connect c (retries + 1), p')))
  | notConnected {p : WorkerProcess} (hconnected : p.mq.connected = false) :
      Rounded parse (.consume, p) [] (.ok (.inr (p, 1)))
  | timeout {p : WorkerProcess} (hconnected : p.mq.connected = true) :
      Rounded parse (.consume, p) [⟨.amqp (.consumeMessage p.mq.conn 1), .timeout⟩]
        (.ok (.inl (.consume, p)))
  | error {p : WorkerProcess} (hconnected : p.mq.connected = true) :
      Rounded parse (.consume, p) [⟨.amqp (.consumeMessage p.mq.conn 1), .error⟩]
        (.ok (.inr (p, 1)))
  | handled {p : WorkerProcess} {deliveryTag : UInt64} {body : Bytes} {inner : Trace Op.Res}
      {w : Worker} (hconnected : p.mq.connected = true)
      (hmessage : (p.toWorker.onMessage parse deliveryTag body).Runs inner (.ok w)) :
      Rounded parse (.consume, p)
        (⟨.amqp (.consumeMessage p.mq.conn 1), .message deliveryTag body⟩ ::
          (inner.map p.hostEvent ++ [⟨.amqp .destroyEnvelope, ()⟩]))
        (.ok (.inl (.consume, { p with db := w.db })))
  /-- An exception leaves `on_message`, and nothing catches it. -/
  | thrown {p : WorkerProcess} {deliveryTag : UInt64} {body : Bytes} {inner : Trace Op.Res}
      {x : Abort} (hconnected : p.mq.connected = true)
      (hmessage : (p.toWorker.onMessage parse deliveryTag body).Runs inner (.error x)) :
      Rounded parse (.consume, p)
        (⟨.amqp (.consumeMessage p.mq.conn 1), .message deliveryTag body⟩ ::
          inner.map p.hostEvent)
        (.error x)

theorem round_runs {s : Point × WorkerProcess}
    {out : Except Abort ((Point × WorkerProcess) ⊕ (WorkerProcess × Int))}
    (h : (round parse s).Runs tr out) : Rounded parse s tr out := by
  obtain ⟨point, p⟩ := s
  cases point with
  | connect c retries =>
    obtain ⟨running, tr₁, rfl, h₁⟩ := Prog.runs_perform_bind.mp h
    cases running with
    | false =>
      obtain ⟨running, rfl, rfl⟩ := leave_runs h₁
      exact .stopped
    | true =>
      rcases Prog.runs_bind.mp h₁ with ⟨⟨p', ok⟩, tr₂, tr₃, h₂, h₃, rfl⟩ | ⟨x, h₂, rfl⟩
      · obtain ⟨_, _, hres, hattempt⟩ := attempt_runs h₂
        cases hres
        cases ok with
        | false =>
          obtain ⟨_, tr₄, rfl, h₄⟩ := Prog.runs_perform_bind.mp h₃
          obtain ⟨rfl, rfl⟩ := Prog.runs_done.mp h₄
          exact .refused hattempt
        | true =>
          obtain ⟨running, rfl, rfl⟩ := leave_runs h₃
          exact .connected hattempt
      · obtain ⟨_, _, hres, -⟩ := attempt_runs h₂
        cases hres
  | consume =>
    cases hconnected : p.mq.connected with
    | false =>
      simp only [round, consumeRound, hconnected, Bool.not_false, if_true, pure_bind] at h
      obtain ⟨rfl, rfl⟩ := Prog.runs_done.mp h
      exact .notConnected hconnected
    | true =>
      simp only [round, consumeRound, hconnected, Bool.not_true, Bool.false_eq_true, if_false,
        bind_assoc] at h
      obtain ⟨consumed, tr₁, rfl, h₁⟩ := amqp_perform_bind_runs.mp h
      cases consumed with
      | timeout =>
        obtain ⟨rfl, rfl⟩ := Prog.runs_done.mp h₁
        exact .timeout hconnected
      | error =>
        obtain ⟨rfl, rfl⟩ := Prog.runs_done.mp h₁
        exact .error hconnected
      | message deliveryTag body =>
        simp only [bind_assoc] at h₁
        rcases Prog.runs_bind.mp h₁ with ⟨w, tr₂, tr₃, h₂, h₃, rfl⟩ | ⟨x, h₂, rfl⟩
        · obtain ⟨inner, rfl, hinner⟩ := host_runs.mp h₂
          obtain ⟨_, tr₄, rfl, h₄⟩ := amqp_perform_bind_runs.mp h₃
          obtain ⟨rfl, rfl⟩ := Prog.runs_done.mp h₄
          exact .handled hconnected hinner
        · obtain ⟨inner, rfl, hinner⟩ := host_runs.mp h₂
          exact .thrown hconnected hinner

/-! ## `main` -/

/-- What the destructor does to the database client. -/
def closed (db : MySQLClient) : Trace WorkerOp.Res :=
  db.destroy.map fun conn => ⟨.mysqlClose conn, ()⟩

/-- The ways the destructor can go: the boxes of the engine, the database client, the AMQP
    client. -/
inductive Destroyed (p : WorkerProcess) : Trace WorkerOp.Res → Prop where
  | intro {boxes : Trace Op.Res} {mq : Trace AmqpOp.Res}
      (hboxes : (BoxPool.cleanupAll p.cfg.isolate p.boxes).Runs boxes (.ok ()))
      (hmq : p.mq.Destroyed mq) :
      Destroyed p (boxes.map p.hostEvent ++ (closed p.db ++ mq.map amqpEvent))

theorem cleanupAll_returns {cfg : IsolateConfig} {boxes : List Int} {inner : Trace Op.Res}
    {out : Except Abort Unit} (h : (BoxPool.cleanupAll cfg boxes).Runs inner out) :
    out = .ok () := by
  induction boxes generalizing inner with
  | nil => exact (Prog.runs_done.mp h).2
  | cons boxId rest ih =>
    rcases Prog.runs_bind.mp h with ⟨_, tr₁, tr₂, -, hrest, -⟩ | ⟨x, hx, -⟩
    · exact ih hrest
    · obtain ⟨_, tr₁, -, h₁⟩ := Prog.runs_perform_bind.mp hx
      cases (Prog.runs_done.mp h₁).2

theorem destroy_runs {out : Except Abort Unit} (h : p.destroy.Runs tr out) :
    out = .ok () ∧ p.Destroyed tr := by
  rcases Prog.runs_bind.mp h with ⟨_, tr₁, tr₂, h₁, h₂, rfl⟩ | ⟨x, h₁, rfl⟩
  · obtain ⟨boxes, rfl, hboxes⟩ := host_runs.mp h₁
    have hmq : ∀ {tr}, (amqp p.mq.destroy).Runs tr out →
        out = .ok () ∧ ∃ mq, tr = mq.map amqpEvent ∧ p.mq.Destroyed mq := by
      intro tr h
      obtain ⟨mq, rfl, hruns⟩ := amqp_runs.mp h
      obtain ⟨hout, hmq⟩ := RabbitMQClient.Impl.destroy_runs hruns
      exact ⟨hout, mq, rfl, hmq⟩
    cases hconn : p.db.conn with
    | none =>
      simp only [hconn] at h₂
      obtain ⟨hout, mq, rfl, hdestroyed⟩ := hmq h₂
      have hclosed : closed p.db = [] := by simp [closed, MySQLClient.destroy, hconn]
      have hall := Destroyed.intro hboxes hdestroyed
      rw [hclosed] at hall
      exact ⟨hout, hall⟩
    | some conn =>
      simp only [hconn] at h₂
      obtain ⟨_, tr₃, rfl, h₃⟩ := Prog.runs_perform_bind.mp h₂
      obtain ⟨hout, mq, rfl, hdestroyed⟩ := hmq h₃
      have hclosed : closed p.db = [⟨.mysqlClose conn, ()⟩] := by
        simp [closed, MySQLClient.destroy, hconn]
      have hall := Destroyed.intro hboxes hdestroyed
      rw [hclosed] at hall
      exact ⟨hout, hall⟩
  · obtain ⟨boxes, rfl, hboxes⟩ := host_runs.mp h₁
    cases cleanupAll_returns hboxes

/-- A new worker, before its pool has made its boxes. -/
def fresh (cfg : AppConfig) (boxes : List Int) : WorkerProcess :=
  { cfg, mq := { config := cfg.rabbitmq }, boxes }

theorem make_runs {cfg : AppConfig} {out : Except Abort WorkerProcess}
    (h : (make cfg).Runs tr out) : ∃ inner boxes,
      tr = inner.map (fresh cfg []).hostEvent ∧ out = .ok (fresh cfg boxes) ∧
      (BoxPool.make cfg.isolate cfg.judge.concurrency).Runs inner (.ok boxes) := by
  rcases Prog.runs_bind.mp h with ⟨boxes, tr₁, tr₂, h₁, h₂, rfl⟩ | ⟨x, h₁, rfl⟩
  · obtain ⟨rfl, rfl⟩ := Prog.runs_done.mp h₂
    obtain ⟨inner, rfl, hinner⟩ := host_runs.mp h₁
    rw [List.append_nil]
    exact ⟨inner, boxes, rfl, rfl, hinner⟩
  · obtain ⟨inner, -, hinner⟩ := host_runs.mp h₁
    cases BoxPool.make_runs hinner

/-- The ways `main` can go: it has not loaded a configuration, `run` is still running, `run`
    has returned and the worker is destroyed, or an exception has ended the process. -/
inductive Main (parse : Bytes → Option Json) (n : Nat) (argv : List Bytes) :
    Trace WorkerOp.Res → Except Abort (Option Int) → Prop where
  | notLoaded {file : Option Bytes} (hload : AppConfig.load parse file = none) :
      Main parse n argv [⟨.readConfig (configPath argv), file⟩] (.ok (some 1))
  | running {file : Option Bytes} {cfg : AppConfig} {boxes : List Int}
      {init run : Trace WorkerOp.Res} {s : Point × WorkerProcess}
      (hload : AppConfig.load parse file = some cfg)
      (hmake : (make cfg).Runs init (.ok (fresh cfg boxes)))
      (hrun : ((fresh cfg boxes).run parse n).Runs run (.ok (.inl s))) :
      Main parse n argv (⟨.readConfig (configPath argv), file⟩ :: (init ++ run)) (.ok none)
  | returned {file : Option Bytes} {cfg : AppConfig} {boxes : List Int}
      {init run last : Trace WorkerOp.Res} {p : WorkerProcess} {ret : Int}
      (hload : AppConfig.load parse file = some cfg)
      (hmake : (make cfg).Runs init (.ok (fresh cfg boxes)))
      (hrun : ((fresh cfg boxes).run parse n).Runs run (.ok (.inr (p, ret))))
      (hlast : p.Destroyed last) :
      Main parse n argv (⟨.readConfig (configPath argv), file⟩ :: (init ++ (run ++ last)))
        (.ok (some ret))
  | thrown {file : Option Bytes} {cfg : AppConfig} {boxes : List Int}
      {init run : Trace WorkerOp.Res} {x : Abort}
      (hload : AppConfig.load parse file = some cfg)
      (hmake : (make cfg).Runs init (.ok (fresh cfg boxes)))
      (hrun : ((fresh cfg boxes).run parse n).Runs run (.error x)) :
      Main parse n argv (⟨.readConfig (configPath argv), file⟩ :: (init ++ run)) (.error x)

theorem main_runs {n : Nat} {argv : List Bytes} {out : Except Abort (Option Int)}
    (h : (main parse n argv).Runs tr out) : Main parse n argv tr out := by
  obtain ⟨file, tr₁, rfl, h₁⟩ := Prog.runs_perform_bind.mp h
  cases hload : AppConfig.load parse file with
  | none =>
    rw [hload] at h₁
    obtain ⟨rfl, rfl⟩ := Prog.runs_done.mp h₁
    exact .notLoaded hload
  | some cfg =>
    rw [hload] at h₁
    rcases Prog.runs_bind.mp h₁ with ⟨p, init, tr₂, hmake, h₂, rfl⟩ | ⟨x, hmake, rfl⟩
    · obtain ⟨inner, boxes, -, hp, -⟩ := make_runs hmake
      cases hp
      rcases Prog.runs_bind.mp h₂ with ⟨r, run, tr₃, hrun, h₃, rfl⟩ | ⟨x, hrun, rfl⟩
      · cases r with
        | inl s =>
          obtain ⟨rfl, rfl⟩ := Prog.runs_done.mp h₃
          rw [List.append_nil]
          exact .running hload hmake hrun
        | inr r =>
          obtain ⟨p, ret⟩ := r
          rcases Prog.runs_bind.mp h₃ with ⟨_, last, tr₄, hlast, h₄, rfl⟩ | ⟨x, hlast, rfl⟩
          · obtain ⟨rfl, rfl⟩ := Prog.runs_done.mp h₄
            obtain ⟨-, hdestroyed⟩ := destroy_runs hlast
            rw [List.append_nil]
            exact .returned hload hmake hrun hdestroyed
          · cases (destroy_runs hlast).1
      · exact .thrown hload hmake hrun
    · obtain ⟨_, _, -, hp, -⟩ := make_runs hmake
      cases hp

end WorkerProcess
