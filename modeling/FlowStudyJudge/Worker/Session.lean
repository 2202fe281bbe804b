-- SUMMARY: The process follows the AMQP protocol in every run, so deliveries are handled and settled one after the other.
import FlowStudyJudge.Mq.Protocol
import FlowStudyJudge.Worker.Rounds

/-! # The session with the broker -/

namespace Worker

/-- `on_message` settles its delivery once if it returns, and not at all if it throws. -/
theorem onMessage_settlements {parse : Bytes → Option Json} {w : Worker} {tag : UInt64}
    {body : Bytes} {tr : Trace Op.Res} {out : Except Abort Worker}
    (hmq : w.mq.connected = true) (h : (w.onMessage parse tag body).Runs tr out) :
    match out with
    | .ok _ => Host.settlements tr = [.basicAck tag] ∨ Host.settlements tr = [.basicNack tag]
    | .error _ => Host.settlements tr = [] := by
  cases hparse : JudgeEngine.parseMessage parse body with
  | none =>
    obtain ⟨b, rfl, rfl⟩ := onMessage_rejected_runs hmq hparse h
    exact .inl rfl
  | some submission =>
    cases onMessage_accepted_runs hmq hparse h with
    | thrown hjudge => exact (JudgeEngine.judge_pool hjudge).1
    | acked hjudge hping hupdate =>
      left
      simp only [Host.settlements_append, (JudgeEngine.judge_pool hjudge).1,
        (Host.inner_database hping.only).settlements,
        (Host.inner_database hupdate.only).settlements]
      rfl
    | nacked hjudge hping hupdate =>
      right
      simp only [Host.settlements_append, (JudgeEngine.judge_pool hjudge).1,
        (Host.inner_database hping.only).settlements,
        (Host.inner_database hupdate.only).settlements]
      rfl
    | crashed hjudge hping hupdate =>
      change Host.settlements _ = []
      simp only [Host.settlements_append, (JudgeEngine.judge_pool hjudge).1,
        (Host.inner_database hping.only).settlements,
        (Host.inner_database hupdate.only).settlements, List.append_nil]

end Worker

namespace WorkerProcess

open Worker (Connection)

/-- The calls of the AMQP library in a run of the process. -/
def amqpEvents (tr : Trace WorkerOp.Res) : Trace AmqpOp.Res :=
  tr.filterMap fun e =>
    match e with
    | ⟨.amqp op, r⟩ => some ⟨op, r⟩
    | _ => none

/-- The call that a settlement is. -/
def settleOp (mq : RabbitMQClient.Impl) : Op → AmqpOp
  | .basicNack deliveryTag => .basicNack mq.conn mq.channel deliveryTag
  | .basicAck deliveryTag => .basicAck mq.conn mq.channel deliveryTag
  | _ => .newConnection

@[simp] theorem amqpEvents_append (tr₁ tr₂ : Trace WorkerOp.Res) :
    amqpEvents (tr₁ ++ tr₂) = amqpEvents tr₁ ++ amqpEvents tr₂ := by
  simp [amqpEvents]

@[simp] theorem amqpEvents_amqp (mq : Trace AmqpOp.Res) :
    amqpEvents (mq.map amqpEvent) = mq := by
  simp only [amqpEvents, List.filterMap_map]
  exact List.filterMap_some

variable {parse : Bytes → Option Json} {p : WorkerProcess} {tr : Trace WorkerOp.Res}

theorem amqpEvents_host_op (p : WorkerProcess) (inner : Trace Op.Res) :
    (amqpEvents (inner.map p.hostEvent)).map (·.op) =
      (Host.settlements inner).map (settleOp p.mq) := by
  induction inner with
  | nil => rfl
  | cons e inner ih =>
    obtain ⟨op, r⟩ := e
    cases op with
    | basicAck tag | basicNack tag => exact congrArg (_ :: ·) ih
    | _ => exact ih

theorem amqpEvents_host (p : WorkerProcess) {inner : Trace Op.Res}
    (h : Host.settlements inner = []) : amqpEvents (inner.map p.hostEvent) = [] := by
  have hops := amqpEvents_host_op p inner
  rw [h] at hops
  exact List.map_eq_nil_iff.mp hops

/-- The one settlement of a delivery, as a call of the library. -/
theorem amqpEvents_settled (p : WorkerProcess) {inner : Trace Op.Res} {op : Op}
    (h : Host.settlements inner = [op]) :
    ∃ r, amqpEvents (inner.map p.hostEvent) = [⟨settleOp p.mq op, r⟩] := by
  have hops := amqpEvents_host_op p inner
  rw [h] at hops
  obtain ⟨⟨op', r⟩, heq, hop⟩ := List.map_eq_singleton_iff.mp hops
  cases hop
  exact ⟨r, heq⟩

/-! ## The client and its session -/

open Amqp (Session Stage)

/-- The client of `cfg` and the session agree on the connection. -/
structure Linked (cfg : RabbitMQConfig) (mq : RabbitMQClient.Impl) (s : Session) : Prop where
  config : mq.config = cfg
  channel : mq.channel = 1
  conn : s.conn = mq.conn

/-- Before a connection is up. -/
structure Idle (cfg : RabbitMQConfig) (mq : RabbitMQClient.Impl) (s : Session) : Prop
    extends Linked cfg mq s where
  connected : mq.connected = false
  consuming : mq.consuming = false
  stage : s.stage = .closed ∧ mq.conn = none ∨ s.stage = .failed

/-- Between two rounds of `consume`. -/
structure Consuming (cfg : RabbitMQConfig) (mq : RabbitMQClient.Impl) (s : Session) : Prop
    extends Linked cfg mq s where
  connected : mq.connected = true
  consuming : mq.consuming = true
  stage : s.stage = .consuming

/-- When `run` has returned. -/
inductive Ended (cfg : RabbitMQConfig) (mq : RabbitMQClient.Impl) (s : Session) : Prop where
  | idle (h : Idle cfg mq s)
  | consuming (h : Linked cfg mq s) (hconsuming : mq.consuming = true)
      (hstage : s.stage = .consuming ∨ s.stage = .lost)

/-- `run` gets to `consume` without a connection only if `running_` goes up again between two
    reads. -/
def AtPoint (cfg : RabbitMQConfig) (mq : RabbitMQClient.Impl) (s : Session) : Point → Prop
  | .connect _ _ => Idle cfg mq s
  | .consume => Consuming cfg mq s ∨ Idle cfg mq s

section

variable {cfg : RabbitMQConfig} {mq mq' : RabbitMQClient.Impl} {s : Session}

/-- An attempt to connect, call by call. -/
theorem Idle.connect {inner : Trace AmqpOp.Res} {ok : Bool} (h : Idle cfg mq s)
    (hconnect : mq.Connected inner (mq', ok)) :
    ∃ s', World.Path (Session.Step cfg 1) s inner s' ∧
      if ok then Consuming cfg mq' s' else Idle cfg mq' s' := by
  obtain ⟨⟨connected⟩, config, conn₀, channel, consuming⟩ := mq
  obtain ⟨⟨hconfig, hchannel, -⟩, hconnected, hconsuming, hstage⟩ := h
  dsimp only at hconfig hchannel hconnected hconsuming
  subst hconfig hchannel hconnected hconsuming
  let c : RabbitMQClient.Impl := { config, conn := conn₀ }
  have hidle : ∀ conn, Idle config { c with conn } ⟨conn, .failed⟩ := fun conn =>
    ⟨⟨rfl, rfl, rfl⟩, rfl, rfl, .inr rfl⟩
  have hnew : ∀ conn, Session.Step config 1 s ⟨.newConnection, conn⟩ ⟨conn, .created⟩ :=
    fun conn => .newConnection (hstage.imp_left And.left)
  generalize hres : (mq', ok) = res at hconnect
  cases hconnect with
  | @noSocket conn =>
    cases hres
    exact ⟨⟨conn, .failed⟩, .cons (hnew conn) (.cons .tcpSocketNew .nil), hidle conn⟩
  | @notOpened conn =>
    cases hres
    refine ⟨⟨conn, .failed⟩, ?_, hidle conn⟩
    exact .cons (hnew conn) (.cons .tcpSocketNew (.cons .socketOpen .nil))
  | @notLoggedIn conn =>
    cases hres
    refine ⟨⟨conn, .failed⟩, ?_, hidle conn⟩
    exact .cons (hnew conn) (.cons .tcpSocketNew (.cons .socketOpen (.cons .login .nil)))
  | @noChannel conn =>
    cases hres
    refine ⟨⟨conn, .failed⟩, ?_, hidle conn⟩
    exact .cons (hnew conn) (.cons .tcpSocketNew (.cons .socketOpen (.cons .login
      (.cons .channelOpen .nil))))
  | @noQueue conn =>
    cases hres
    refine ⟨⟨conn, .failed⟩, ?_, hidle conn⟩
    exact .cons (hnew conn) (.cons .tcpSocketNew (.cons .socketOpen (.cons .login
      (.cons .channelOpen (.cons .queueDeclare .nil)))))
  | @consumes conn limited consuming =>
    cases consuming with
    | false =>
      cases hres
      refine ⟨⟨conn, .failed⟩, ?_, hidle conn⟩
      exact .cons (hnew conn) (.cons .tcpSocketNew (.cons .socketOpen (.cons .login
        (.cons .channelOpen (.cons .queueDeclare (.cons .basicQos (.cons .basicConsume .nil)))))))
    | true =>
      cases hres
      refine ⟨⟨conn, .consuming⟩, ?_, ⟨⟨rfl, rfl, rfl⟩, rfl, rfl, rfl⟩⟩
      exact .cons (hnew conn) (.cons .tcpSocketNew (.cons .socketOpen (.cons .login
        (.cons .channelOpen (.cons .queueDeclare (.cons .basicQos (.cons .basicConsume .nil)))))))

/-- The destructor closes what there is. -/
theorem Ended.destroy {inner : Trace AmqpOp.Res} (h : Ended cfg mq s)
    (hdestroyed : mq.Destroyed inner) :
    ∃ s', World.Path (Session.Step cfg 1) s inner s' := by
  obtain ⟨conn₀, stage⟩ := s
  cases hdestroyed with
  | none => exact ⟨_, .nil⟩
  | @notConsuming conn hconn hconsuming =>
    cases h with
    | idle h =>
      obtain rfl : conn₀ = some conn := h.conn.trans hconn
      rcases h.stage with ⟨-, hnone⟩ | hfailed
      · rw [hconn] at hnone
        cases hnone
      · exact ⟨_, .cons (.connectionClose (.inr hfailed)) (.cons .destroyConnection .nil)⟩
    | consuming h hconsuming' =>
      rw [hconsuming] at hconsuming'
      cases hconsuming'
  | @consuming conn hconn hconsuming =>
    cases h with
    | idle h =>
      have hnot := h.consuming
      rw [hconsuming] at hnot
      cases hnot
    | consuming h _ hstage =>
      obtain rfl : conn₀ = some conn := h.conn.trans hconn
      rw [h.channel]
      exact ⟨_, .cons (.channelClose hstage)
        (.cons (.connectionClose (.inl rfl)) (.cons .destroyConnection .nil))⟩

end

/-! ## Rounds -/

/-- How a round leaves the session. -/
def Outcome (cfg : RabbitMQConfig) (s : Session) :
    Except Abort ((Point × WorkerProcess) ⊕ (WorkerProcess × Int)) → Prop
  | .ok (.inl (point, p)) => AtPoint cfg p.mq s point
  | .ok (.inr (p, _)) => Ended cfg p.mq s
  | .error _ => True

variable {cfg : RabbitMQConfig} {s : Session}

theorem outcome_left {c : Connection} {running : Bool}
    (h : AtPoint cfg p.mq s (behind c)) : Outcome cfg s (.ok (p.left c running)) := by
  cases running with
  | true => exact h
  | false =>
    cases c with
    | mysql => exact .idle h
    | rabbitmq =>
      rcases h with hconsuming | hidle
      · exact .consuming hconsuming.toLinked hconsuming.consuming (.inl hconsuming.stage)
      · exact .idle hidle

theorem Attempted.follows {c : Connection} {p' : WorkerProcess} {ok : Bool}
    (h : p.Attempted c tr p' ok) (hidle : Idle cfg p.mq s) :
    ∃ s', World.Path (Session.Step cfg 1) s (amqpEvents tr) s' ∧
      if ok then AtPoint cfg p'.mq s' (behind c) else Idle cfg p'.mq s' := by
  cases h with
  | mysql hconnect =>
    rw [amqpEvents_host p (Host.inner_database hconnect.only).settlements]
    refine ⟨s, .nil, ?_⟩
    split <;> exact hidle
  | @rabbitmq inner mq ok hconnect =>
    rw [amqpEvents_amqp]
    obtain ⟨s', hpath, hend⟩ := hidle.connect hconnect
    refine ⟨s', hpath, ?_⟩
    cases ok with
    | true => exact .inl hend
    | false => exact hend

/-- A message can only come on a connection that consumes. -/
theorem AtPoint.up (h : AtPoint cfg p.mq s .consume) (hconnected : p.mq.connected = true) :
    Consuming cfg p.mq s := by
  rcases h with hconsuming | hidle
  · exact hconsuming
  · have hdown := hidle.connected
    rw [hconnected] at hdown
    cases hdown

/-- The calls that settle a delivery, when its message has been handled. -/
theorem settled_step {deliveryTag : UInt64} {body : Bytes} {inner : Trace Op.Res} {w : Worker}
    (h : Consuming cfg p.mq s)
    (hmessage : (p.toWorker.onMessage parse deliveryTag body).Runs inner (.ok w)) :
    ∃ e, amqpEvents (inner.map p.hostEvent) = [e] ∧
      Session.Step cfg 1 ⟨p.mq.conn, .delivered deliveryTag⟩ e ⟨p.mq.conn, .settled⟩ := by
  rcases Worker.onMessage_settlements h.connected hmessage with hack | hnack
  · obtain ⟨r, hevents⟩ := amqpEvents_settled p hack
    refine ⟨_, hevents, ?_⟩
    change Session.Step cfg 1 _ ⟨.basicAck p.mq.conn p.mq.channel deliveryTag, (r : Bool)⟩ _
    rw [h.channel]
    exact .basicAck
  · obtain ⟨r, hevents⟩ := amqpEvents_settled p hnack
    refine ⟨_, hevents, ?_⟩
    change Session.Step cfg 1 _ ⟨.basicNack p.mq.conn p.mq.channel deliveryTag, (r : Bool)⟩ _
    rw [h.channel]
    exact .basicNack

/-- Every round makes its calls in order. -/
theorem Rounded.follows {point : Point}
    {out : Except Abort ((Point × WorkerProcess) ⊕ (WorkerProcess × Int))}
    (h : Rounded parse (point, p) tr out) (hpoint : AtPoint cfg p.mq s point) :
    ∃ s', World.Path (Session.Step cfg 1) s (amqpEvents tr) s' ∧ Outcome cfg s' out := by
  cases h with
  | @stopped c =>
    refine ⟨s, .nil, outcome_left ?_⟩
    cases c with
    | mysql => exact hpoint
    | rabbitmq => exact .inr hpoint
  | @connected c retries p p' tr running hattempt =>
    obtain ⟨s', hpath, hat⟩ := hattempt.follows hpoint
    refine ⟨s', ?_, outcome_left hat⟩
    change World.Path _ _ (amqpEvents (tr ++ _)) s'
    rw [amqpEvents_append]
    exact World.path_append.mpr ⟨s', hpath, .nil⟩
  | @refused c retries p p' tr hattempt =>
    obtain ⟨s', hpath, hidle⟩ := hattempt.follows hpoint
    refine ⟨s', ?_, hidle⟩
    change World.Path _ _ (amqpEvents (tr ++ _)) s'
    rw [amqpEvents_append]
    exact World.path_append.mpr ⟨s', hpath, .nil⟩
  | notConnected hconnected =>
    rcases hpoint with hup | hidle
    · have hnot := hup.connected
      rw [hconnected] at hnot
      cases hnot
    · exact ⟨s, .nil, .idle hidle⟩
  | timeout hconnected =>
    have hup := hpoint.up hconnected
    obtain ⟨conn, stage⟩ := s
    obtain ⟨⟨-, -, rfl⟩, -, -, rfl⟩ := id hup
    exact ⟨_, .cons .timeout .nil, .inl hup⟩
  | error hconnected =>
    obtain ⟨conn, stage⟩ := s
    obtain ⟨⟨hconfig, hchannel, rfl⟩, -, hconsuming, rfl⟩ := hpoint.up hconnected
    exact ⟨_, .cons .error .nil, .consuming ⟨hconfig, hchannel, rfl⟩ hconsuming (.inr rfl)⟩
  | @handled p deliveryTag body inner w hconnected hmessage =>
    have hup := hpoint.up hconnected
    obtain ⟨e, hevents, hstep⟩ := settled_step hup hmessage
    obtain ⟨conn, stage⟩ := s
    obtain ⟨⟨-, -, rfl⟩, -, -, rfl⟩ := id hup
    refine ⟨_, ?_, .inl hup⟩
    change World.Path _ _ (_ :: amqpEvents (inner.map p.hostEvent ++ _)) _
    rw [amqpEvents_append, hevents]
    exact .cons .message (.cons hstep (.cons .destroyEnvelope .nil))
  | @thrown p deliveryTag body inner x hconnected hmessage =>
    obtain ⟨conn, stage⟩ := s
    obtain ⟨⟨-, -, rfl⟩, -, -, rfl⟩ := hpoint.up hconnected
    have hevents := amqpEvents_host p (Worker.onMessage_settlements hconnected hmessage)
    refine ⟨⟨p.mq.conn, .delivered deliveryTag⟩, ?_, trivial⟩
    change World.Path _ _ (_ :: amqpEvents (inner.map p.hostEvent)) _
    rw [hevents]
    exact .cons .message .nil

/-! ## The whole process -/

theorem run_follows {boxes : List Int} {n : Nat} {cfg : AppConfig}
    {out : Except Abort ((Point × WorkerProcess) ⊕ (WorkerProcess × Int))}
    (h : ((fresh cfg boxes).run parse n).Runs tr out) :
    ∃ s, Amqp.Follows cfg.rabbitmq 1 (amqpEvents tr) s ∧ Outcome cfg.rabbitmq s out := by
  let I (tr : Trace WorkerOp.Res) (sp : Point × WorkerProcess) : Prop :=
    ∃ s, Amqp.Follows cfg.rabbitmq 1 (amqpEvents tr) s ∧ AtPoint cfg.rabbitmq sp.2.mq s sp.1
  have hstart : I [] (.connect .mysql 0, fresh cfg boxes) :=
    ⟨{}, .nil, ⟨rfl, rfl, rfl⟩, rfl, rfl, .inl ⟨rfl, rfl⟩⟩
  have hround : ∀ before sp first sp', I before sp →
      (round parse sp).Runs first (.ok (.inl sp')) → I (before ++ first) sp' := by
    rintro before sp first sp' ⟨s, hfollows, hpoint⟩ hruns
    obtain ⟨s', hpath, hout⟩ := (round_runs hruns).follows hpoint
    refine ⟨s', ?_, hout⟩
    rw [amqpEvents_append]
    exact World.path_append.mpr ⟨s, hfollows, hpath⟩
  rcases Prog.rounds_runs hround hstart h with
    ⟨sp, rfl, hkept⟩ | ⟨sp, before, last, rfl, ⟨s, hfollows, hpoint⟩, hlast, -⟩
  · exact hkept
  · obtain ⟨s', hpath, hout⟩ := (round_runs hlast).follows hpoint
    rw [amqpEvents_append]
    exact ⟨s', World.path_append.mpr ⟨s, hfollows, hpath⟩, hout⟩

end WorkerProcess
