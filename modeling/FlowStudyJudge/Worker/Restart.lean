-- SUMMARY: What `main` does when nothing fails: a process started again can store any message.
import FlowStudyJudge.Worker.Cluster
import FlowStudyJudge.Worker.Recovery

/-! # Starting again

`Cluster` says what processes may do. Here is what one process can do: called with a
configuration that loads, it connects, takes a message and stores its result. -/

namespace Cluster

variable {parse : Bytes → Option Json} {c : Cluster} {pid : Nat} {v v' : Shared}
  {l l' : Local} {α β σ : Type}

/-- Some steps later. -/
abbrev Later (parse : Bytes → Option Json) : Cluster → Cluster → Prop :=
  Relation.ReflTransGen (Step parse)

def alter (c : Cluster) (pid : Nat) (m : Machine) (v : Shared) : Cluster :=
  { c with shared := v, machines := Function.update c.machines pid (some m) }

theorem Step.alter {op : WorkerOp} {k : op.Res → WorkerComp (Option Int)} {r : op.Res}
    (heffect : Effect pid (v, l) ⟨op, r⟩ (v', l')) :
    Step parse (c.alter pid ⟨.exec op k, l⟩ v) (c.alter pid ⟨k r, l'⟩ v') := by
  have hstep : Step parse (c.alter pid ⟨.exec op k, l⟩ v) _ :=
    .operation (Function.update_self ..) heffect
  simp only [Cluster.alter, Function.update_idem] at hstep
  exact hstep

/-- A process carries out the first part of what is left of its program, and nobody else does
    anything in the meantime. -/
theorem Later.exec {q : WorkerComp α} {f : α → WorkerComp (Option Int)} {tr : Trace WorkerOp.Res}
    {a : α} (hruns : q.Runs tr (.ok a)) (hpath : World.Path (Effect pid) (v, l) tr (v', l')) :
    Later parse (c.alter pid ⟨q >>= f, l⟩ v) (c.alter pid ⟨f a, l'⟩ v') := by
  generalize hout : (Except.ok a : Except Abort α) = out at hruns
  induction hruns generalizing v l with
  | done =>
    cases hout
    cases hpath
    exact .refl
  | raise => cases hout
  | exec _ ih =>
    obtain ⟨⟨v₁, l₁⟩, heffect, hrest⟩ := World.path_cons.mp hpath
    exact .head (Step.alter heffect) (ih hrest hout)

/-- One round of a loop. -/
theorem Later.round {body : σ → WorkerComp (σ ⊕ β)} {n : Nat} {s s' : σ}
    {f : σ ⊕ β → WorkerComp (Option Int)} {tr : Trace WorkerOp.Res}
    (hruns : (body s).Runs tr (.ok (.inl s')))
    (hpath : World.Path (Effect pid) (v, l) tr (v', l')) :
    Later parse (c.alter pid ⟨Prog.rounds body (n + 1) s >>= f, l⟩ v)
      (c.alter pid ⟨Prog.rounds body n s' >>= f, l'⟩ v') := by
  rw [Prog.rounds, Prog.bind_assoc]
  exact Later.exec (a := (Sum.inl s' : σ ⊕ β)) hruns hpath

/-- The operations of the judge and of the database client, settlements apart. -/
theorem Effect.host_path {mq : RabbitMQClient.Impl} {message : Option Message}
    {inner : Trace Op.Res} {server : Server Ledger} {pool : List Int}
    (hinner : Trace.Only (fun op => !op.isSettlement) inner) (hmessage : l.message = message)
    (h : (Server.world (Ledger.commit message) true Eq).Path ⟨v.ledger, l.sessions⟩ inner
      server)
    (hpool : World.Path BoxPool.Evolves l.pool inner pool) :
    World.Path (Effect pid) (v, l) (inner.map mq.hostEmbedding.event)
      ({ v with ledger := server.data }, { l with sessions := server.sessions, pool }) := by
  induction inner generalizing v l with
  | nil =>
    obtain rfl := World.path_nil.mp h
    obtain rfl := World.path_nil.mp hpool
    exact .nil
  | cons e inner ih =>
    obtain ⟨he, hrest⟩ := Trace.only_cons.mp hinner
    obtain ⟨s₁, hstep, hserver⟩ := World.path_cons.mp h
    obtain ⟨available, hevolves, hpool⟩ := World.path_cons.mp hpool
    let l₁ : Local := { l with sessions := s₁.sessions, pool := available }
    have heffect : Effect pid (v, l) (mq.hostEmbedding.event e)
        ({ v with ledger := s₁.data }, l₁) := by
      obtain ⟨op, r⟩ := e
      rw [← hmessage] at hstep
      cases op with
      | basicAck | basicNack => cases he
      | _ => exact .host hstep hevolves
    exact .cons heffect (ih (l := l₁) hrest hmessage hserver hpool)

theorem stores_unsettled (stmts : List Stmt) :
    Trace.Only (fun op => !op.isSettlement) (Worker.stores stmts) := by
  have hsends : Trace.Only (fun op => !op.isSettlement) (MySQLClient.sends 0 stmts) := by
    induction stmts with
    | nil => simp [MySQLClient.sends, Op.isSettlement]
    | cons s stmts ih => exact Trace.only_cons.mpr ⟨rfl, ih⟩
  exact Trace.only_cons.mpr ⟨rfl, Trace.only_cons.mpr ⟨rfl, hsends⟩⟩

/-! ## The rounds of `run` when nothing fails -/

section

open WorkerProcess (Point round fresh)

/-- The process behind its connection to the database. -/
def withDb (cfg : AppConfig) (boxes : List Int) : WorkerProcess :=
  { fresh cfg boxes with db := MySQLClient.up 0 }

/-- The process with both connections. -/
def ready (cfg : AppConfig) (boxes : List Int) : WorkerProcess :=
  { withDb cfg boxes with
    mq := { config := cfg.rabbitmq, conn := some 0, connected := true, consuming := true } }

/-- isolate can give the constructor one box and no other. -/
theorem initBoxes_one (cfg : IsolateConfig) (boxId : Int) (ids : List Int) (hnodup : ids.Nodup) :
    ∃ tr, (BoxPool.initBoxes cfg ids).Runs tr (.ok (if boxId ∈ ids then [boxId] else [])) := by
  induction ids with
  | nil => exact ⟨([] : Trace Op.Res), .done⟩
  | cons first ids ih =>
    obtain ⟨hnot, hnodup⟩ := List.nodup_cons.mp hnodup
    obtain ⟨tr, hrest⟩ := ih hnodup
    by_cases hfirst : boxId = first
    · subst hfirst
      rw [if_neg hnot] at hrest
      rw [if_pos List.mem_cons_self]
      have hinit : (Sandbox.make boxId cfg).init.Runs
          [⟨.system (Sandbox.make boxId cfg).initCommand, (0 : Int)⟩,
            ⟨.mkdir (Sandbox.boxPath boxId), .created⟩] (.ok true) := .exec (.exec .done)
      have hpush : (BoxPool.initBoxes cfg ids >>= fun boxes => .done (boxId :: boxes)).Runs
          (tr ++ []) (.ok [boxId]) := Prog.runs_bind.mpr (.inl ⟨[], tr, [], hrest, .done, rfl⟩)
      exact ⟨_, Prog.runs_bind.mpr (.inl ⟨true, _, _, hinit, hpush, rfl⟩)⟩
    · have hmem : boxId ∈ first :: ids ↔ boxId ∈ ids := by simp [hfirst]
      simp only [hmem]
      exact ⟨⟨.system (Sandbox.make first cfg).initCommand, (1 : Int)⟩ :: tr, .exec hrest⟩

/-- Which boxes can be made depends on isolate. -/
theorem make_returns {cfg : AppConfig} {boxId : Int} (hpool : l.pool = [])
    (hbox : boxId ∈ BoxPool.candidates cfg.isolate cfg.judge.concurrency) :
    ∃ tr, (WorkerProcess.make cfg).Runs tr (.ok (fresh cfg [boxId])) ∧
      World.Path (Effect pid) (v, l) tr (v, { l with pool := [boxId] }) := by
  obtain ⟨inner, hruns⟩ := initBoxes_one cfg.isolate boxId _
    (BoxPool.candidates_nodup cfg.isolate cfg.judge.concurrency)
  rw [if_pos hbox] at hruns
  have hmake : (BoxPool.make cfg.isolate cfg.judge.concurrency).Runs inner (.ok [boxId]) := hruns
  have honly := BoxPool.make_only hmake
  let mq : RabbitMQClient.Impl := { config := cfg.rabbitmq }
  have hquiet : Trace.Only (fun op => !op.isDatabase) inner :=
    honly.mono fun op hop => by cases op <;> simp_all [Op.isSandbox, Op.isDatabase]
  have hunsettled : Trace.Only (fun op => !op.isSettlement) inner :=
    honly.mono fun op hop => by cases op <;> simp_all [Op.isSandbox, Op.isSettlement]
  have hmakes : World.Path BoxPool.Evolves l.pool inner [boxId] :=
    hpool ▸ BoxPool.make_evolves hmake
  refine ⟨inner.map mq.hostEmbedding.event ++ [], ?_, ?_⟩
  · exact Prog.runs_bind.mpr
      (.inl ⟨_, _, [], Prog.runs_embed.mpr ⟨inner, rfl, hmake⟩, .done, rfl⟩)
  · rw [List.append_nil]
    exact Effect.host_path hunsettled rfl (Server.path_other hquiet) hmakes

/-- The database is nothing to the pool. -/
theorem evolves_database {tr : Trace Op.Res} (h : Trace.Only Op.isDatabase tr)
    (available : List Int) : World.Path BoxPool.Evolves available tr available :=
  BoxPool.evolves_of_serves (BoxPool.serves_database h available) (Worker.noBoxDir_database h)

theorem mysql_round {cfg : AppConfig} {boxes : List Int} (hrunning : l.running = true)
    (hmessage : l.message = none) :
    ∃ tr sessions, sessions 0 = .up none ∧
      (round parse (.connect .mysql 0, fresh cfg boxes)).Runs tr
        (.ok (.inl (.connect .rabbitmq 0, withDb cfg boxes))) ∧
      World.Path (Effect pid) (v, l) tr (v, { l with sessions }) := by
  obtain ⟨sessions, hup, hserver⟩ := Deployment.Server.connect_path none ⟨v.ledger, l.sessions⟩
  let l' : Local := { l with sessions }
  let connects : Trace Op.Res := [⟨.mysqlInit, some (0 : Handle)⟩, ⟨.mysqlRealConnect 0, true⟩]
  have hconnect : World.Path (Effect pid) (v, l)
      (connects.map (fresh cfg boxes).mq.hostEmbedding.event) (v, l') :=
    Effect.host_path (by simp [Op.isSettlement]) hmessage hserver
      (evolves_database (by simp [Op.isDatabase]) _)
  have hread : Effect pid (v, l') ⟨.loadRunning, true⟩ (v, l') := .running hrunning
  exact ⟨[⟨.loadRunning, true⟩, ⟨.host .mysqlInit, some (0 : Handle)⟩,
      ⟨.host (.mysqlRealConnect 0), true⟩, ⟨.loadRunning, true⟩], sessions, hup,
    .exec (.exec (.exec (.exec .done))),
    .cons (.running hrunning) (World.path_append.mpr ⟨_, hconnect, .cons hread .nil⟩)⟩

theorem rabbitmq_round {cfg : AppConfig} {boxes : List Int} {broker : Broker}
    (hrunning : l.running = true) (hopen : v.broker.Step (.openChannel pid) broker) :
    ∃ tr, (round parse (.connect .rabbitmq 0, withDb cfg boxes)).Runs tr
        (.ok (.inl (.consume, ready cfg boxes))) ∧
      World.Path (Effect pid) (v, l) tr ({ v with broker }, l) := by
  let mq := cfg.rabbitmq
  refine ⟨[⟨.loadRunning, true⟩, ⟨.amqp .newConnection, some 0⟩,
    ⟨.amqp (.tcpSocketNew (some 0)), true⟩,
    ⟨.amqp (.socketOpen (some 0) mq.hostname mq.port), true⟩,
    ⟨.amqp (.login (some 0) mq.vhost mq.username mq.password), true⟩,
    ⟨.amqp (.channelOpen (some 0) 1), true⟩,
    ⟨.amqp (.queueDeclare (some 0) 1 mq.queueName), true⟩,
    ⟨.amqp (.basicQos (some 0) 1 1), true⟩,
    ⟨.amqp (.basicConsume (some 0) 1 mq.queueName), true⟩, ⟨.loadRunning, true⟩], ?_, ?_⟩
  · exact .exec (.exec (.exec (.exec (.exec (.exec (.exec (.exec (.exec (.exec .done)))))))))
  · refine .cons (.running hrunning) ?_
    iterate 7 refine .cons (.silent trivial) ?_
    exact .cons (.consumes hopen) (.cons (.running hrunning) .nil)

/-- One iteration of `consume` with a message that is judged, stored and acknowledged. -/
theorem message_round {cfg : AppConfig} {boxes : List Int} {d : Delivery} {broker : Broker}
    {submission : SubmissionMessage} {judged : Trace Op.Res} {result : JudgeResultInternal}
    {boxId : Int} (hpool : l.pool = [boxId]) (hbox : Host.acquired judged = [boxId])
    (hup : l.sessions 0 = .up none) (htake : v.broker.Step (.take pid d) broker)
    (hparse : JudgeEngine.parseMessage parse d.message.body = some submission)
    (hjudge : (JudgeEngine.judge cfg.isolate submission).Runs judged (.ok result)) :
    ∃ tr v' l' ss, v'.ledger = v.ledger.commit (some d.message) ss ∧
      ss.map (·.2) = Worker.resultStmts submission (Worker.dbResult submission result) ∧
      (round parse (.consume, ready cfg boxes)).Runs tr
        (.ok (.inl (.consume, ready cfg boxes))) ∧
      World.Path (Effect pid) (v, l) tr (v', l') := by
  let stmts := Worker.resultStmts submission (Worker.dbResult submission result)
  let v₁ : Shared := { v with broker }
  let l₁ : Local := { l with message := some d.message }
  obtain ⟨sessions, ss, hss, hserver⟩ := Deployment.Server.stores_path stmts (some d.message)
    ⟨v.ledger, l.sessions⟩ (JudgeEngine.judge_noDatabase hjudge) hup
  have hunsettled : Trace.Only (fun op => !op.isSettlement) (judged ++ Worker.stores stmts) :=
    Trace.only_append.mpr ⟨Host.noSettlement_of_settlements (JudgeEngine.judge_pool hjudge).1,
      stores_unsettled stmts⟩
  have hserves : World.Path BoxPool.Evolves l₁.pool (judged ++ Worker.stores stmts) [boxId] := by
    have hstores := Deployment.stores_serves hjudge hbox stmts
    rw [← hpool] at hstores
    refine BoxPool.evolves_of_serves (hpool ▸ hstores) (Trace.only_append.mpr
      ⟨JudgeEngine.judge_noBoxDir hjudge, Worker.noBoxDir_database ?_⟩)
    exact Deployment.stores_database stmts
  have hstored : World.Path (Effect pid) (v₁, l₁)
      ((judged ++ Worker.stores stmts).map (ready cfg boxes).mq.hostEmbedding.event) _ :=
    Effect.host_path hunsettled rfl hserver hserves
  have hmessage : ((ready cfg boxes).toWorker.onMessage parse d.tag d.message.body).Runs
      (judged ++ Worker.settles d.tag stmts) (.ok (Worker.ready cfg.isolate)) :=
    Worker.onMessage_settles hparse hjudge
  let inner : Trace WorkerOp.Res :=
    (judged ++ Worker.settles d.tag stmts).map (ready cfg boxes).mq.hostEmbedding.event
  let consumed : Event WorkerOp.Res :=
    ⟨.amqp (.consumeMessage (some 0) 1), .message d.tag d.message.body⟩
  let destroyed : Event WorkerOp.Res := ⟨.amqp .destroyEnvelope, ()⟩
  let handles : WorkerComp (WorkerProcess ⊕ Bool) := do
    let w ← (ready cfg boxes).host
      ((ready cfg boxes).toWorker.onMessage parse d.tag d.message.body)
    WorkerProcess.amqp Amqp.destroyEnvelope
    return .inl { ready cfg boxes with db := w.db }
  have hhandled : handles.Runs (inner ++ [destroyed]) (.ok (.inl (ready cfg boxes))) :=
    Prog.runs_bind.mpr
      (.inl ⟨_, inner, _, Prog.runs_embed.mpr ⟨_, rfl, hmessage⟩, .exec .done, rfl⟩)
  have hruns : ((ready cfg boxes).consumeRound parse).Runs (consumed :: (inner ++ [destroyed]))
      (.ok (.inl (ready cfg boxes))) := .exec hhandled
  have hround : (round parse (.consume, ready cfg boxes)).Runs
      (consumed :: (inner ++ [destroyed])) (.ok (.inl (.consume, ready cfg boxes))) :=
    Prog.runs_bind.mpr (.inl ⟨_, _, [], hruns, .done, (List.append_nil _).symm⟩)
  let v₂ : Shared := { v₁ with ledger := v.ledger.commit (some d.message) ss }
  let l₂ : Local := { l₁ with sessions, pool := [boxId] }
  let acks : Event WorkerOp.Res := ⟨.amqp (.basicAck (some 0) 1 d.tag), true⟩
  let v₃ : Shared := { v₂ with broker := broker.set pid ((broker.channels pid).settle d.tag) }
  have hacked : World.Path (Effect pid) (v₂, l₂) [acks, destroyed] (v₃, l₂) :=
    .cons (.acked .ack) (.cons (.silent trivial) .nil)
  have hpath : World.Path (Effect pid) (v, l) (consumed :: (inner ++ [destroyed])) (v₃, l₂) := by
    have hsplit : inner ++ [destroyed] =
        (judged ++ Worker.stores stmts).map (ready cfg boxes).mq.hostEmbedding.event ++
          [acks, destroyed] := by
      simp only [inner, Worker.settles, List.map_append, List.append_assoc]
      rfl
    rw [hsplit]
    exact .cons (.takes htake) (World.path_append.mpr ⟨_, hstored, hacked⟩)
  exact ⟨_, v₃, l₂, ss, rfl, hss, hround, hpath⟩

/-- `main` behind the configuration: the constructor, the loops, and the rest. -/
theorem main_starts {n : Nat} {file : Option Bytes} {cfg : AppConfig} (argv : List Bytes)
    (hload : AppConfig.load parse file = some cfg) :
    ∃ f, WorkerProcess.main parse n argv =
        (Prog.perform (.readConfig (WorkerProcess.configPath argv)) >>= f) ∧
      ∃ g, f file = (WorkerProcess.make cfg >>= fun p =>
        Prog.rounds (round parse) n (.connect .mysql 0, p) >>= g) := by
  refine ⟨_, rfl, ?_⟩
  rw [hload]
  exact ⟨_, rfl⟩

/-! ## Any message can still be stored -/

/-- A message that the broker still has can be delivered to a process that is started again. -/
theorem Later.stored {m : Message} {submission : SubmissionMessage} {file : Option Bytes}
    {cfg : AppConfig} {judged : Trace Op.Res} {result : JudgeResultInternal}
    (hheld : c.shared.broker.Held m)
    (hparse : JudgeEngine.parseMessage parse m.body = some submission)
    (hload : AppConfig.load parse file = some cfg)
    (hjudge : (JudgeEngine.judge cfg.isolate submission).Runs judged (.ok result))
    (hbox : ∀ boxId ∈ Host.acquired judged,
      boxId ∈ BoxPool.candidates cfg.isolate cfg.judge.concurrency) :
    ∃ c' ss, Later parse c c' ∧ c'.published = c.published ∧
      c'.shared.ledger = c.shared.ledger.commit (some m) ss ∧
      ss.map (·.2) = Worker.resultStmts submission (Worker.dbResult submission result) := by
  obtain ⟨-, boxId, hacquired, -⟩ := JudgeEngine.judge_pool hjudge
  have hcandidate := hbox boxId (hacquired ▸ List.mem_singleton_self _)
  obtain ⟨pid, hpid⟩ : ∃ pid, m ∈ c.shared.broker.ready ∨
      ∃ d ∈ (c.shared.broker.channels pid).outstanding, d.message = m := by
    rcases hheld with hready | ⟨pid, hd⟩
    · exact ⟨0, .inl hready⟩
    · exact ⟨pid, .inr hd⟩
  obtain ⟨b₁, b₂, b₃, b₄, hclose, hopen, hdeliver, htake⟩ := c.shared.broker.redelivered 1 hpid
  -- the process that has the message, if any, is killed, and `main` is called in its place
  let v₁ : Shared := { c.shared with broker := b₁ }
  let v₂ : Shared := { c.shared with broker := b₂ }
  let v₃ : Shared := { c.shared with broker := b₃ }
  let c₀ : Cluster := { c.withBroker b₁ with machines := Function.update c.machines pid none }
  have hexit : Step parse c c₀ := .exit hclose
  have hlaunch : Step parse c₀ (c.alter pid ⟨WorkerProcess.main parse 3 [], {}⟩ v₁) := by
    have hstep := @Step.launch parse c₀ pid 3 [] (Function.update_self ..)
    simp only [c₀, Function.update_idem] at hstep
    exact hstep
  obtain ⟨f, hmain, g, hf⟩ := main_starts (n := 3) [] hload
  have hread : Later parse (c.alter pid ⟨WorkerProcess.main parse 3 [], {}⟩ v₁)
      (c.alter pid ⟨f file, {}⟩ v₁) := by
    rw [hmain]
    exact Later.exec (.exec .done) (.cons (.silent trivial) .nil)
  rw [hf] at hread
  -- the constructor, and the two loops that connect
  obtain ⟨tr₁, hmake, hmakePath⟩ := make_returns (l := {}) rfl hcandidate
  have hmade := hread.trans (Later.exec hmake hmakePath)
  let l₁ : Local := { pool := [boxId] }
  obtain ⟨tr₂, sessions, hup, hmysql, hmysqlPath⟩ := mysql_round (l := l₁) rfl rfl
  have hconnected := hmade.trans (Later.round hmysql hmysqlPath)
  obtain ⟨tr₃, hmq, hmqPath⟩ := rabbitmq_round (v := v₁) (l := { l₁ with sessions }) rfl hopen
  have hconsumes := hconnected.trans (Later.round hmq hmqPath)
  -- the broker sends the message again, and `consume` takes it
  have hsends : ∀ machine, Step parse (c.alter pid machine v₂) (c.alter pid machine v₃) :=
    fun _ => .deliver hdeliver
  have hdelivered := hconsumes.tail (hsends _)
  obtain ⟨tr₄, v₄, l₄, ss, hledger, hss, hround, hroundPath⟩ :=
    message_round (v := v₃) (l := { l₁ with sessions }) rfl hacquired hup htake hparse hjudge
  have hstored := hdelivered.trans (Later.round hround hroundPath)
  exact ⟨_, ss, .head hexit (.head hlaunch hstored), rfl, hledger, hss⟩

/-- The default configuration. -/
theorem sample_loads :
    AppConfig.load JudgeEngine.sampleParse (some JudgeEngine.sampleBody) = some {} := by
  decide +kernel

/-- In whatever state the processes that run `main` are: if there is a configuration file that
    loads, any result that judging a message in one of the boxes it provides for can have can
    still be stored for it, unless one has been stored. -/
theorem Reachable.can_store {m : Message} {submission : SubmissionMessage} {file : Option Bytes}
    {cfg : AppConfig} {judged : Trace Op.Res} {result : JudgeResultInternal}
    (h : Reachable parse c) (hm : m ∈ c.published)
    (hparse : JudgeEngine.parseMessage parse m.body = some submission)
    (hnew : ¬ c.shared.ledger.Stored m submission)
    (hload : AppConfig.load parse file = some cfg)
    (hjudge : (JudgeEngine.judge cfg.isolate submission).Runs judged (.ok result))
    (hbox : ∀ boxId ∈ Host.acquired judged,
      boxId ∈ BoxPool.candidates cfg.isolate cfg.judge.concurrency) :
    ∃ c' ss, Later parse c c' ∧ c'.published = c.published ∧
      c'.shared.ledger = c.shared.ledger.commit (some m) ss ∧
      ss.map (·.2) = Worker.resultStmts submission (Worker.dbResult submission result) := by
  obtain ⟨s, hs, hdescribed⟩ := h.described
  rw [← hdescribed.published] at hm
  rw [← hdescribed.ledger] at hnew
  have hheld := (hs.inv.kept m hm submission hparse).resolve_right hnew
  rw [hdescribed.broker] at hheld
  exact Later.stored hheld hparse hload hjudge hbox

theorem can_store_sample : ∃ (c c' : Cluster) (result : JudgeResultInternal)
    (ss : List (Nat × Stmt)), c.published = [Deployment.sampleQueued] ∧
      Later JudgeEngine.sampleParse c c' ∧
      c'.shared.ledger = c.shared.ledger.commit (some Deployment.sampleQueued) ss ∧
      ss.map (·.2) = Worker.resultStmts JudgeEngine.sampleMessage
        (Worker.dbResult JudgeEngine.sampleMessage result) := by
  obtain ⟨c, h, hpublished, -, hledger⟩ := sample_cluster [] none
  have hm : Deployment.sampleQueued ∈ c.published := by
    rw [hpublished]
    exact List.mem_singleton_self _
  obtain ⟨tr, result, hjudge, hbox⟩ := JudgeEngine.judge_can_return {} JudgeEngine.sampleMessage
  have hnew : ¬ c.shared.ledger.Stored Deployment.sampleQueued JudgeEngine.sampleMessage := by
    rintro ⟨cfg, tr, result, commit, -, hcommit, -⟩
    rw [hledger] at hcommit
    cases hcommit
  obtain ⟨c', ss, hlater, -, hstored, hss⟩ := h.can_store hm Deployment.sampleQueued_parses hnew
    sample_loads hjudge (Deployment.one_candidate hbox)
  exact ⟨c, c', result, ss, hpublished, hlater, hstored, hss⟩

end

/-! ## What the deployment says about the program -/

theorem Reachable.later (h : Reachable parse c) {c' : Cluster} (hlater : Later parse c c') :
    Reachable parse c' := by
  induction hlater with
  | refl => exact h
  | tail _ hstep ih => exact ih.step hstep

/-- A process that runs `main` has judged a message and stored its result. -/
theorem sample_stored : ∃ c ss, Reachable JudgeEngine.sampleParse c ∧
    c.published = [Deployment.sampleQueued] ∧
      c.shared.ledger.commits = [⟨some Deployment.sampleQueued, ss⟩] := by
  obtain ⟨c, h, hpublished, -, hledger⟩ := sample_cluster [] none
  have hm : Deployment.sampleQueued ∈ c.published := by
    rw [hpublished]
    exact List.mem_singleton_self _
  have hnew : ¬ c.shared.ledger.Stored Deployment.sampleQueued JudgeEngine.sampleMessage := by
    rintro ⟨cfg, tr, result, commit, -, hcommit, -⟩
    rw [hledger] at hcommit
    cases hcommit
  obtain ⟨s, hs, hdescribed⟩ := h.described
  have hheld : c.shared.broker.Held Deployment.sampleQueued := by
    have hkept := hs.inv.kept _ (hdescribed.published ▸ hm) _ Deployment.sampleQueued_parses
    rw [hdescribed.broker, hdescribed.ledger] at hkept
    exact hkept.resolve_right hnew
  obtain ⟨tr, result, hjudge, hbox⟩ := JudgeEngine.judge_can_return {} JudgeEngine.sampleMessage
  obtain ⟨c', ss, hlater, hsame, hstored, -⟩ := Later.stored hheld Deployment.sampleQueued_parses
    sample_loads hjudge (Deployment.one_candidate hbox)
  refine ⟨c', ss, h.later hlater, hsame.trans hpublished, ?_⟩
  rw [hstored, Ledger.commit, hledger]
  rfl

/-- Whatever processes that run `main` do is something that the deployment can do. -/
theorem Reachable.deployment (h : Reachable parse c) :
    ∃ s, Deployment.Reachable parse s ∧ s.published = c.published ∧
      s.broker = c.shared.broker ∧ s.ledger = c.shared.ledger ∧
        ∀ pid, c.machines pid = none → s.processes pid = none := by
  obtain ⟨s, hs, hdescribed⟩ := h.described
  refine ⟨s, hs, hdescribed.published, hdescribed.broker, hdescribed.ledger, fun pid hpid => ?_⟩
  have hfollowed := hdescribed.processes pid
  rw [hpid] at hfollowed
  exact hfollowed

theorem deployment_sample : ∃ (c : Cluster) (s : Deployment),
    c.published = [Deployment.sampleQueued] ∧ c.shared.ledger.commits ≠ [] ∧
      Deployment.Reachable JudgeEngine.sampleParse s ∧ s.published = c.published ∧
        s.broker = c.shared.broker ∧ s.ledger = c.shared.ledger ∧
          ∀ pid, c.machines pid = none → s.processes pid = none := by
  obtain ⟨c, ss, h, hpublished, hcommits⟩ := sample_stored
  obtain ⟨s, hs⟩ := h.deployment
  exact ⟨c, s, hpublished, hcommits ▸ List.cons_ne_nil _ _, hs⟩

/-- The guarantee of the system for the program itself: a message whose result is not stored is
    still with the broker, and the tables are those of the results stored, one after the other,
    each of which comes from judging a published message. -/
theorem Reachable.end_to_end (h : Reachable parse c) :
    (∀ m ∈ c.published, ∀ submission,
      JudgeEngine.parseMessage parse m.body = some submission →
        c.shared.broker.Held m ∨ c.shared.ledger.Stored m submission) ∧
    ∃ postings,
      List.Forall₂ (Deployment.Posted parse c.published) c.shared.ledger.commits postings ∧
        Shows c.shared.ledger.initial (Scoreboard.postAll postings) c.shared.ledger.tables := by
  obtain ⟨s, hs, hdescribed⟩ := h.described
  rw [← hdescribed.published, ← hdescribed.broker, ← hdescribed.ledger]
  obtain ⟨postings, hposted⟩ := hs.honest.postings
  exact ⟨hs.inv.kept, postings, hposted, Deployment.shows_of_posted hposted⟩

theorem end_to_end_sample : ∃ (c : Cluster) (ss : List (Nat × Stmt)),
    c.published = [Deployment.sampleQueued] ∧
      c.shared.ledger.commits = [⟨some Deployment.sampleQueued, ss⟩] ∧
      (c.shared.broker.Held Deployment.sampleQueued ∨
        c.shared.ledger.Stored Deployment.sampleQueued JudgeEngine.sampleMessage) ∧
      ∃ postings, List.Forall₂ (Deployment.Posted JudgeEngine.sampleParse
          [Deployment.sampleQueued]) [⟨some Deployment.sampleQueued, ss⟩] postings ∧
        Shows c.shared.ledger.initial (Scoreboard.postAll postings) c.shared.ledger.tables := by
  obtain ⟨c, ss, h, hpublished, hcommits⟩ := sample_stored
  obtain ⟨hkept, hpostings⟩ := h.end_to_end
  rw [hpublished, hcommits] at hpostings
  refine ⟨c, ss, hpublished, hcommits, hkept _ ?_ _ Deployment.sampleQueued_parses, hpostings⟩
  rw [hpublished]
  exact List.mem_singleton_self _

end Cluster
