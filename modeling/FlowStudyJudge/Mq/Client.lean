-- SUMMARY: `RabbitMQClient`: the calls of the AMQP library, connecting, and the destructor.
import FlowStudyJudge.Config.Config
import FlowStudyJudge.Worker.Worker

/-! # The RabbitMQ client

Every call of the AMQP library is one operation. A remote call is one operation together
with the `amqp_get_rpc_reply` behind it, and answers whether the reply is a normal one. -/

/-- An `amqp_connection_state_t`. It may be null. -/
abbrev Conn := Option Nat

/-- What `amqp_consume_message` reports. -/
inductive Consumed where
  | message (deliveryTag : UInt64) (body : Bytes)
  /-- A library exception with the error `AMQP_STATUS_TIMEOUT`. -/
  | timeout
  | error
  deriving DecidableEq

inductive AmqpOp where
  | newConnection
  | tcpSocketNew (conn : Conn)
  | socketOpen (conn : Conn) (hostname : Bytes) (port : Int)
  /-- `amqp_login` with `AMQP_SASL_METHOD_PLAIN` -/
  | login (conn : Conn) (vhost username password : Bytes)
  | channelOpen (conn : Conn) (channel : Nat)
  /-- `amqp_queue_declare` of a durable queue, neither exclusive nor deleted by itself -/
  | queueDeclare (conn : Conn) (channel : Nat) (queue : Bytes)
  | basicQos (conn : Conn) (channel prefetchCount : Nat)
  /-- `amqp_basic_consume` with `no_ack = 0` -/
  | basicConsume (conn : Conn) (channel : Nat) (queue : Bytes)
  | consumeMessage (conn : Conn) (timeoutSeconds : Nat)
  /-- `amqp_basic_ack` with `multiple = 0` -/
  | basicAck (conn : Conn) (channel : Nat) (deliveryTag : UInt64)
  /-- `amqp_basic_nack` with `multiple = 0` and `requeue = 1` -/
  | basicNack (conn : Conn) (channel : Nat) (deliveryTag : UInt64)
  | destroyEnvelope
  | channelClose (conn : Conn) (channel : Nat)
  | connectionClose (conn : Conn)
  | destroyConnection (conn : Conn)
  deriving DecidableEq

abbrev AmqpOp.Res : AmqpOp → Type
  | .newConnection => Conn
  | .consumeMessage _ _ => Consumed
  | .tcpSocketNew _ | .socketOpen _ _ _ | .login _ _ _ _ | .channelOpen _ _
  | .queueDeclare _ _ _ | .basicQos _ _ _ | .basicConsume _ _ _ => Bool
  | .basicAck _ _ _ | .basicNack _ _ _ => Bool
  | .destroyEnvelope | .channelClose _ _ | .connectionClose _ | .destroyConnection _ => Unit

abbrev AmqpComp := Prog AmqpOp.Res Abort

/-! The operations with their answer types written out. -/

namespace Amqp

def newConnection : AmqpComp Conn := Prog.perform AmqpOp.newConnection
def tcpSocketNew (conn : Conn) : AmqpComp Bool := Prog.perform (AmqpOp.tcpSocketNew conn)
def socketOpen (conn : Conn) (hostname : Bytes) (port : Int) : AmqpComp Bool :=
  Prog.perform (AmqpOp.socketOpen conn hostname port)
def login (conn : Conn) (vhost username password : Bytes) : AmqpComp Bool :=
  Prog.perform (AmqpOp.login conn vhost username password)
def channelOpen (conn : Conn) (channel : Nat) : AmqpComp Bool :=
  Prog.perform (AmqpOp.channelOpen conn channel)
def queueDeclare (conn : Conn) (channel : Nat) (queue : Bytes) : AmqpComp Bool :=
  Prog.perform (AmqpOp.queueDeclare conn channel queue)
def basicQos (conn : Conn) (channel prefetchCount : Nat) : AmqpComp Bool :=
  Prog.perform (AmqpOp.basicQos conn channel prefetchCount)
def basicConsume (conn : Conn) (channel : Nat) (queue : Bytes) : AmqpComp Bool :=
  Prog.perform (AmqpOp.basicConsume conn channel queue)
def consumeMessage (conn : Conn) (timeoutSeconds : Nat) : AmqpComp Consumed :=
  Prog.perform (AmqpOp.consumeMessage conn timeoutSeconds)
def destroyEnvelope : AmqpComp Unit := Prog.perform AmqpOp.destroyEnvelope
def channelClose (conn : Conn) (channel : Nat) : AmqpComp Unit :=
  Prog.perform (AmqpOp.channelClose conn channel)
def connectionClose (conn : Conn) : AmqpComp Unit := Prog.perform (AmqpOp.connectionClose conn)
def destroyConnection (conn : Conn) : AmqpComp Unit :=
  Prog.perform (AmqpOp.destroyConnection conn)

end Amqp

namespace RabbitMQClient

/-- `RabbitMQClient::Impl`. -/
structure Impl extends RabbitMQClient where
  config : RabbitMQConfig
  conn : Conn := none
  channel : Nat := 1
  consuming : Bool := false

namespace Impl

/-- `connect`. A failed attempt leaves its connection in `conn`, and only success writes the
    flags. That the prefetch count could not be set is only logged. -/
def connect (c : Impl) : AmqpComp (Impl × Bool) := do
  let conn ← Amqp.newConnection
  let c := { c with conn }
  if ← Amqp.tcpSocketNew conn then
    if ← Amqp.socketOpen conn c.config.hostname c.config.port then
      if ← Amqp.login conn c.config.vhost c.config.username c.config.password then
        if ← Amqp.channelOpen conn c.channel then
          if ← Amqp.queueDeclare conn c.channel c.config.queueName then do
            let _ ← Amqp.basicQos conn c.channel 1
            if ← Amqp.basicConsume conn c.channel c.config.queueName then
              return ({ c with connected := true, consuming := true }, true)
            else
              return (c, false)
          else
            return (c, false)
        else
          return (c, false)
      else
        return (c, false)
    else
      return (c, false)
  else
    return (c, false)

/-- The destructor. -/
def destroy (c : Impl) : AmqpComp Unit :=
  match c.conn with
  | none => return ()
  | conn => do
    if c.consuming then
      Amqp.channelClose conn c.channel
    Amqp.connectionClose conn
    Amqp.destroyConnection conn

/-! ## The possible runs -/

/-- The ways `connect` can go. -/
inductive Connected (c : Impl) : Trace AmqpOp.Res → Impl × Bool → Prop where
  | noSocket {conn : Conn} :
      Connected c [⟨.newConnection, conn⟩, ⟨.tcpSocketNew conn, false⟩] ({ c with conn }, false)
  | notOpened {conn : Conn} :
      Connected c
        [⟨.newConnection, conn⟩, ⟨.tcpSocketNew conn, true⟩,
          ⟨.socketOpen conn c.config.hostname c.config.port, false⟩]
        ({ c with conn }, false)
  | notLoggedIn {conn : Conn} :
      Connected c
        [⟨.newConnection, conn⟩, ⟨.tcpSocketNew conn, true⟩,
          ⟨.socketOpen conn c.config.hostname c.config.port, true⟩,
          ⟨.login conn c.config.vhost c.config.username c.config.password, false⟩]
        ({ c with conn }, false)
  | noChannel {conn : Conn} :
      Connected c
        [⟨.newConnection, conn⟩, ⟨.tcpSocketNew conn, true⟩,
          ⟨.socketOpen conn c.config.hostname c.config.port, true⟩,
          ⟨.login conn c.config.vhost c.config.username c.config.password, true⟩,
          ⟨.channelOpen conn c.channel, false⟩]
        ({ c with conn }, false)
  | noQueue {conn : Conn} :
      Connected c
        [⟨.newConnection, conn⟩, ⟨.tcpSocketNew conn, true⟩,
          ⟨.socketOpen conn c.config.hostname c.config.port, true⟩,
          ⟨.login conn c.config.vhost c.config.username c.config.password, true⟩,
          ⟨.channelOpen conn c.channel, true⟩,
          ⟨.queueDeclare conn c.channel c.config.queueName, false⟩]
        ({ c with conn }, false)
  | consumes {conn : Conn} {limited consuming : Bool} :
      Connected c
        [⟨.newConnection, conn⟩, ⟨.tcpSocketNew conn, true⟩,
          ⟨.socketOpen conn c.config.hostname c.config.port, true⟩,
          ⟨.login conn c.config.vhost c.config.username c.config.password, true⟩,
          ⟨.channelOpen conn c.channel, true⟩,
          ⟨.queueDeclare conn c.channel c.config.queueName, true⟩,
          ⟨.basicQos conn c.channel 1, limited⟩,
          ⟨.basicConsume conn c.channel c.config.queueName, consuming⟩]
        (if consuming then ({ c with conn, connected := true, consuming := true }, true)
          else ({ c with conn }, false))

variable {c : Impl} {tr : Trace AmqpOp.Res}

theorem connect_runs {out : Except Abort (Impl × Bool)} (h : c.connect.Runs tr out) :
    ∃ res, out = .ok res ∧ c.Connected tr res := by
  unfold connect at h
  obtain ⟨conn, tr₁, rfl, h₁⟩ := Prog.runs_perform_bind.mp h
  obtain ⟨socket, tr₂, rfl, h₂⟩ := Prog.runs_perform_bind.mp h₁
  cases socket with
  | false =>
    obtain ⟨rfl, rfl⟩ := Prog.runs_done.mp h₂
    exact ⟨_, rfl, .noSocket⟩
  | true =>
  obtain ⟨opened, tr₃, rfl, h₃⟩ := Prog.runs_perform_bind.mp h₂
  cases opened with
  | false =>
    obtain ⟨rfl, rfl⟩ := Prog.runs_done.mp h₃
    exact ⟨_, rfl, .notOpened⟩
  | true =>
  obtain ⟨loggedIn, tr₄, rfl, h₄⟩ := Prog.runs_perform_bind.mp h₃
  cases loggedIn with
  | false =>
    obtain ⟨rfl, rfl⟩ := Prog.runs_done.mp h₄
    exact ⟨_, rfl, .notLoggedIn⟩
  | true =>
  obtain ⟨channel, tr₅, rfl, h₅⟩ := Prog.runs_perform_bind.mp h₄
  cases channel with
  | false =>
    obtain ⟨rfl, rfl⟩ := Prog.runs_done.mp h₅
    exact ⟨_, rfl, .noChannel⟩
  | true =>
  obtain ⟨declared, tr₆, rfl, h₆⟩ := Prog.runs_perform_bind.mp h₅
  cases declared with
  | false =>
    obtain ⟨rfl, rfl⟩ := Prog.runs_done.mp h₆
    exact ⟨_, rfl, .noQueue⟩
  | true =>
  obtain ⟨limited, tr₇, rfl, h₇⟩ := Prog.runs_perform_bind.mp h₆
  obtain ⟨consuming, tr₈, rfl, h₈⟩ := Prog.runs_perform_bind.mp h₇
  cases consuming with
  | false =>
    obtain ⟨rfl, rfl⟩ := Prog.runs_done.mp h₈
    exact ⟨_, rfl, .consumes⟩
  | true =>
    obtain ⟨rfl, rfl⟩ := Prog.runs_done.mp h₈
    exact ⟨_, rfl, .consumes⟩

/-- The ways the destructor can go. -/
inductive Destroyed (c : Impl) : Trace AmqpOp.Res → Prop where
  | none (hconn : c.conn = none) : Destroyed c []
  | notConsuming {conn : Nat} (hconn : c.conn = some conn) (hconsuming : c.consuming = false) :
      Destroyed c [⟨.connectionClose (some conn), ()⟩, ⟨.destroyConnection (some conn), ()⟩]
  | consuming {conn : Nat} (hconn : c.conn = some conn) (hconsuming : c.consuming = true) :
      Destroyed c
        [⟨.channelClose (some conn) c.channel, ()⟩, ⟨.connectionClose (some conn), ()⟩,
          ⟨.destroyConnection (some conn), ()⟩]

theorem destroy_runs {out : Except Abort Unit} (h : c.destroy.Runs tr out) :
    out = .ok () ∧ c.Destroyed tr := by
  unfold destroy at h
  cases hconn : c.conn with
  | none =>
    rw [hconn] at h
    obtain ⟨rfl, rfl⟩ := Prog.runs_done.mp h
    exact ⟨rfl, .none hconn⟩
  | some conn =>
    rw [hconn] at h
    cases hconsuming : c.consuming with
    | false =>
      rw [hconsuming] at h
      obtain ⟨_, tr₁, rfl, h₁⟩ := Prog.runs_perform_bind.mp h
      obtain ⟨-, rfl, rfl⟩ := Prog.runs_perform.mp h₁
      exact ⟨rfl, .notConsuming hconn hconsuming⟩
    | true =>
      rw [hconsuming] at h
      obtain ⟨_, tr₁, rfl, h₁⟩ := Prog.runs_perform_bind.mp h
      obtain ⟨_, tr₂, rfl, h₂⟩ := Prog.runs_perform_bind.mp h₁
      obtain ⟨-, rfl, rfl⟩ := Prog.runs_perform.mp h₂
      exact ⟨rfl, .consuming hconn hconsuming⟩

end Impl

end RabbitMQClient
