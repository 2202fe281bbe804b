-- SUMMARY: The protocol of an AMQP consumer: the calls that each stage of a connection allows, and what follows for the deliveries.
import FlowStudyJudge.Effects.Loop
import FlowStudyJudge.Mq.Client

/-! # The protocol of a consumer

What the AMQP library expects of a client that consumes with manual acknowledgement: the
handshake in its order, one delivery at a time, which is settled once before its envelope is
destroyed, and a connection that is closed before it is destroyed. -/

namespace Amqp

/-- How far the connection has come. -/
inductive Stage where
  /-- There is no connection. -/
  | closed
  | created
  | socket
  | opened
  | loggedIn
  | channel
  | declared
  | limited
  | consuming
  /-- A message has been delivered and is not settled. -/
  | delivered (deliveryTag : UInt64)
  | settled
  /-- A call of the handshake has failed. -/
  | failed
  /-- `amqp_consume_message` has failed. -/
  | lost
  | channelClosed
  | disconnected
  deriving DecidableEq

/-- The newest connection, and its stage. -/
structure Session where
  conn : Conn := none
  stage : Stage := .closed
  deriving DecidableEq

/-- The calls that are in order, for the broker and the queue of `cfg` and on channel
    `channel`. A new connection may only replace one that never consumed. -/
inductive Session.Step (cfg : RabbitMQConfig) (channel : Nat) : World AmqpOp.Res Session where
  | newConnection {s : Session} {conn : Conn} (h : s.stage = .closed ∨ s.stage = .failed) :
      Step cfg channel s ⟨.newConnection, conn⟩ ⟨conn, .created⟩
  | tcpSocketNew {conn : Conn} {ok : Bool} :
      Step cfg channel ⟨conn, .created⟩ ⟨.tcpSocketNew conn, ok⟩
        ⟨conn, if ok then .socket else .failed⟩
  | socketOpen {conn : Conn} {ok : Bool} :
      Step cfg channel ⟨conn, .socket⟩ ⟨.socketOpen conn cfg.hostname cfg.port, ok⟩
        ⟨conn, if ok then .opened else .failed⟩
  | login {conn : Conn} {ok : Bool} :
      Step cfg channel ⟨conn, .opened⟩ ⟨.login conn cfg.vhost cfg.username cfg.password, ok⟩
        ⟨conn, if ok then .loggedIn else .failed⟩
  | channelOpen {conn : Conn} {ok : Bool} :
      Step cfg channel ⟨conn, .loggedIn⟩ ⟨.channelOpen conn channel, ok⟩
        ⟨conn, if ok then .channel else .failed⟩
  | queueDeclare {conn : Conn} {ok : Bool} :
      Step cfg channel ⟨conn, .channel⟩ ⟨.queueDeclare conn channel cfg.queueName, ok⟩
        ⟨conn, if ok then .declared else .failed⟩
  | basicQos {conn : Conn} {ok : Bool} :
      Step cfg channel ⟨conn, .declared⟩ ⟨.basicQos conn channel 1, ok⟩ ⟨conn, .limited⟩
  | basicConsume {conn : Conn} {ok : Bool} :
      Step cfg channel ⟨conn, .limited⟩ ⟨.basicConsume conn channel cfg.queueName, ok⟩
        ⟨conn, if ok then .consuming else .failed⟩
  | message {conn : Conn} {timeoutSeconds : Nat} {deliveryTag : UInt64} {body : Bytes} :
      Step cfg channel ⟨conn, .consuming⟩
        ⟨.consumeMessage conn timeoutSeconds, .message deliveryTag body⟩
        ⟨conn, .delivered deliveryTag⟩
  | timeout {conn : Conn} {timeoutSeconds : Nat} :
      Step cfg channel ⟨conn, .consuming⟩ ⟨.consumeMessage conn timeoutSeconds, .timeout⟩
        ⟨conn, .consuming⟩
  | error {conn : Conn} {timeoutSeconds : Nat} :
      Step cfg channel ⟨conn, .consuming⟩ ⟨.consumeMessage conn timeoutSeconds, .error⟩ ⟨conn, .lost⟩
  | basicAck {conn : Conn} {deliveryTag : UInt64} {ok : Bool} :
      Step cfg channel ⟨conn, .delivered deliveryTag⟩ ⟨.basicAck conn channel deliveryTag, ok⟩
        ⟨conn, .settled⟩
  | basicNack {conn : Conn} {deliveryTag : UInt64} {ok : Bool} :
      Step cfg channel ⟨conn, .delivered deliveryTag⟩ ⟨.basicNack conn channel deliveryTag, ok⟩
        ⟨conn, .settled⟩
  | destroyEnvelope {conn : Conn} :
      Step cfg channel ⟨conn, .settled⟩ ⟨.destroyEnvelope, ()⟩ ⟨conn, .consuming⟩
  | channelClose {conn : Conn} {stage : Stage} (h : stage = .consuming ∨ stage = .lost) :
      Step cfg channel ⟨conn, stage⟩ ⟨.channelClose conn channel, ()⟩ ⟨conn, .channelClosed⟩
  | connectionClose {conn : Conn} {stage : Stage} (h : stage = .channelClosed ∨ stage = .failed) :
      Step cfg channel ⟨conn, stage⟩ ⟨.connectionClose conn, ()⟩ ⟨conn, .disconnected⟩
  | destroyConnection {conn : Conn} :
      Step cfg channel ⟨conn, .disconnected⟩ ⟨.destroyConnection conn, ()⟩ ⟨none, .closed⟩

/-- The calls `tr` are in order from the beginning, and lead to `s`. -/
def Follows (cfg : RabbitMQConfig) (channel : Nat) (tr : Trace AmqpOp.Res) (s : Session) : Prop :=
  World.Path (Session.Step cfg channel) {} tr s

/-! ## Deliveries -/

/-- The tags of the messages that were delivered, in order. -/
def deliveries (tr : Trace AmqpOp.Res) : List UInt64 :=
  tr.filterMap fun e =>
    match e with
    | ⟨.consumeMessage _ _, .message deliveryTag _⟩ => some deliveryTag
    | _ => none

/-- The tags that were acknowledged or rejected, in order. -/
def settlements (tr : Trace AmqpOp.Res) : List UInt64 :=
  tr.filterMap fun e =>
    match e with
    | ⟨.basicAck _ _ deliveryTag, _⟩ | ⟨.basicNack _ _ deliveryTag, _⟩ => some deliveryTag
    | _ => none

/-- The delivery that is waiting to be settled. -/
def Stage.unsettled : Stage → List UInt64
  | .delivered deliveryTag => [deliveryTag]
  | _ => []

@[simp] theorem deliveries_append (tr₁ tr₂ : Trace AmqpOp.Res) :
    deliveries (tr₁ ++ tr₂) = deliveries tr₁ ++ deliveries tr₂ := by
  simp [deliveries]

@[simp] theorem settlements_append (tr₁ tr₂ : Trace AmqpOp.Res) :
    settlements (tr₁ ++ tr₂) = settlements tr₁ ++ settlements tr₂ := by
  simp [settlements]

variable {cfg : RabbitMQConfig} {channel : Nat} {tr : Trace AmqpOp.Res} {s s' : Session}

/-- A call settles the delivery that is waiting, or brings one when none is. -/
theorem Session.Step.balance {e : Event AmqpOp.Res} (h : Session.Step cfg channel s e s') :
    s.stage.unsettled ++ deliveries [e] = settlements [e] ++ s'.stage.unsettled := by
  cases h with
  | newConnection hstage =>
    rcases hstage with hstage | hstage <;> rw [hstage] <;> rfl
  | @tcpSocketNew _ ok | @socketOpen _ ok | @login _ ok | @channelOpen _ ok
  | @queueDeclare _ ok | @basicConsume _ ok => cases ok <;> rfl
  | channelClose hstage | connectionClose hstage =>
    rcases hstage with rfl | rfl <;> rfl
  | _ => rfl

/-- The settlements are the deliveries, in their order, up to the last one at most. -/
theorem Follows.settled (h : Follows cfg channel tr s) :
    deliveries tr = settlements tr ++ s.stage.unsettled := by
  let P (tr : Trace AmqpOp.Res) (s : Session) : Prop :=
    deliveries tr = settlements tr ++ s.stage.unsettled
  have hstart : P [] {} := rfl
  have hstep : ∀ before s e s', P before s → Session.Step cfg channel s e s' →
      P (before ++ [e]) s' := by
    intro before s e s' hkept hstep
    change deliveries (before ++ [e]) = settlements (before ++ [e]) ++ s'.stage.unsettled
    rw [deliveries_append, settlements_append, hkept, List.append_assoc, hstep.balance,
      List.append_assoc]
  exact World.Path.keeps hstep hstart h

/-- The messages are handled one at a time: each is settled once, and before the next one is
    asked for. -/
structure InTurn (tr : Trace AmqpOp.Res) : Prop where
  settled : ∃ pending, pending.length ≤ 1 ∧ deliveries tr = settlements tr ++ pending
  asked : ∀ before conn timeoutSeconds consumed after,
    tr = before ++ ⟨.consumeMessage conn timeoutSeconds, consumed⟩ :: after →
      deliveries before = settlements before

theorem Follows.inTurn (h : Follows cfg channel tr s) : InTurn tr where
  settled := by
    refine ⟨s.stage.unsettled, ?_, h.settled⟩
    cases s.stage <;> simp [Stage.unsettled]
  asked := by
    rintro before conn timeoutSeconds consumed after rfl
    obtain ⟨s₁, s₂, hbefore, hstep, -⟩ := World.Path.at_event h
    have hsettled : deliveries before = settlements before ++ s₁.stage.unsettled :=
      Follows.settled hbefore
    cases hstep <;> simpa [Stage.unsettled] using hsettled

/-! ## The connection -/

/-- The handshake on `conn`, where every call succeeds, except that the prefetch count may
    not get set. -/
def handshake (cfg : RabbitMQConfig) (channel : Nat) (conn : Conn) (limited : Bool) :
    Trace AmqpOp.Res :=
  [⟨.newConnection, conn⟩, ⟨.tcpSocketNew conn, true⟩,
    ⟨.socketOpen conn cfg.hostname cfg.port, true⟩,
    ⟨.login conn cfg.vhost cfg.username cfg.password, true⟩, ⟨.channelOpen conn channel, true⟩,
    ⟨.queueDeclare conn channel cfg.queueName, true⟩, ⟨.basicQos conn channel 1, limited⟩,
    ⟨.basicConsume conn channel cfg.queueName, true⟩]

/-- The whole handshake was made on `conn`, and no connection has been opened since. -/
def Ready (cfg : RabbitMQConfig) (channel : Nat) (conn : Conn) (tr : Trace AmqpOp.Res) : Prop :=
  ∃ before limited after, tr = before ++ handshake cfg channel conn limited ++ after ∧
    ∀ e ∈ after, e.op ≠ .newConnection

/-- How many calls of the handshake a stage stands behind. -/
def Stage.calls : Stage → Nat
  | .created => 1
  | .socket => 2
  | .opened => 3
  | .loggedIn => 4
  | .channel => 5
  | .declared => 6
  | .limited => 7
  | _ => 0

/-- The stages behind the handshake, up to the closing of the connection. -/
def Stage.isReady : Stage → Bool
  | .consuming | .delivered _ | .settled | .lost => true
  | _ => false

/-- The history that a stage tells of: the calls of the handshake so far, or all of it. -/
structure Told (cfg : RabbitMQConfig) (channel : Nat) (tr : Trace AmqpOp.Res) (s : Session) :
    Prop where
  shaking : ∃ before limited,
    tr = before ++ (handshake cfg channel s.conn limited).take s.stage.calls
  ready : s.stage.isReady = true → Ready cfg channel s.conn tr

theorem Ready.snoc {conn : Conn} {e : Event AmqpOp.Res} (h : Ready cfg channel conn tr)
    (he : e.op ≠ .newConnection) : Ready cfg channel conn (tr ++ [e]) := by
  obtain ⟨before, limited, after, rfl, hafter⟩ := h
  refine ⟨before, limited, after ++ [e], by simp, ?_⟩
  intro e' he'
  rcases List.mem_append.mp he' with hold | hnew
  · exact hafter e' hold
  · rw [List.mem_singleton.mp hnew]
    exact he

/-- Outside of the handshake a stage tells nothing of it. -/
theorem Told.of_calls_eq_zero (hcalls : s.stage.calls = 0)
    (hready : s.stage.isReady = true → Ready cfg channel s.conn tr) : Told cfg channel tr s where
  shaking := by
    refine ⟨tr, false, ?_⟩
    rw [hcalls, List.take_zero, List.append_nil]
  ready := hready

/-- One more call of the handshake. -/
theorem Told.next {e : Event AmqpOp.Res} (hstage : s'.stage.isReady = false)
    (hnext : ∃ before limited,
      tr ++ [e] = before ++ (handshake cfg channel s'.conn limited).take s'.stage.calls) :
    Told cfg channel (tr ++ [e]) s' where
  shaking := hnext
  ready h := by rw [hstage] at h; cases h

theorem Session.Step.told {e : Event AmqpOp.Res} (h : Session.Step cfg channel s e s')
    (htold : Told cfg channel tr s) : Told cfg channel (tr ++ [e]) s' := by
  obtain ⟨⟨before, limited, hshaking⟩, hready⟩ := htold
  cases h with
  | newConnection => exact .next rfl ⟨tr, false, rfl⟩
  | @tcpSocketNew conn ok | @socketOpen conn ok | @login conn ok | @channelOpen conn ok
  | @queueDeclare conn ok =>
    cases ok with
    | false => exact .of_calls_eq_zero rfl nofun
    | true => exact .next rfl ⟨before, limited, by rw [hshaking, List.append_assoc]; rfl⟩
  | @basicQos conn ok => exact .next rfl ⟨before, ok, by rw [hshaking, List.append_assoc]; rfl⟩
  | @basicConsume conn ok =>
    cases ok with
    | false => exact .of_calls_eq_zero rfl nofun
    | true =>
      refine .of_calls_eq_zero rfl fun _ => ⟨before, limited, [], ?_, by simp⟩
      rw [hshaking, List.append_assoc, List.append_nil]
      rfl
  | message | timeout | error | basicAck | basicNack | destroyEnvelope =>
    exact .of_calls_eq_zero rfl fun _ => (hready rfl).snoc (by simp)
  | channelClose | connectionClose | destroyConnection => exact .of_calls_eq_zero rfl nofun

theorem Follows.told (h : Follows cfg channel tr s) : Told cfg channel tr s := by
  have hstart : Told cfg channel [] {} := .of_calls_eq_zero rfl nofun
  exact World.Path.keeps (fun _ _ _ _ htold hstep => hstep.told htold) hstart h

/-- The connection that a call reads a message from, or settles one on. -/
def consumes : AmqpOp → Option Conn
  | .consumeMessage conn _ | .basicAck conn _ _ | .basicNack conn _ _ => some conn
  | _ => none

/-- Messages are only read and settled on a connection that is ready. -/
def OnReady (cfg : RabbitMQConfig) (channel : Nat) (tr : Trace AmqpOp.Res) : Prop :=
  ∀ before e after conn, tr = before ++ e :: after → consumes e.op = some conn →
    Ready cfg channel conn before

theorem Follows.onReady (h : Follows cfg channel tr s) : OnReady cfg channel tr := by
  rintro before e after conn rfl he
  obtain ⟨s₁, s₂, hbefore, hstep, -⟩ := World.Path.at_event h
  have htold := Follows.told hbefore
  cases hstep with
  | message | timeout | error | basicAck | basicNack =>
    cases he
    exact htold.ready rfl
  | _ => cases he

end Amqp
