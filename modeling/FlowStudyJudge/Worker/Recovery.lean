-- SUMMARY: No state of the system is a dead end: whatever a message can still be judged to be can still be stored.
import FlowStudyJudge.Worker.Lossless
import FlowStudyJudge.Worker.Pool
import Mathlib.Logic.Relation

/-! # Recovery

Killing the process that has a message, and starting it again, is always possible, and a
process that nothing disturbs carries out its programs to their end. -/

/-! ## A database on which nothing fails -/

namespace Server

variable {D : Type} {apply : List (Nat × Stmt) → D → D} {answerLost : Bool}

theorem world_served {s : Server D} {conn : Handle} {q : Query} {d : D}
    {tx tx' : Option (List (Nat × Stmt))} (hconn : s.sessions conn = .up tx)
    (hserve : (q.request 0).serve apply s.data tx = (d, tx')) :
    world apply answerLost Eq s ⟨.mysqlQuery (some conn) q, true⟩ (s.reply conn d (.up tx')) := by
  have hanswered : Tx.Answered apply answerLost s.data (s.sessions conn) (q.request 0) true d
      (.up tx') := by
    rw [hconn]
    exact .served hserve
  exact ⟨s, ⟨rfl, fun _ => .stays⟩, .answered hanswered⟩

/-- Nothing happens to the database while the process does something else. -/
theorem path_other {s : Server D} {tr : Trace Op.Res}
    (h : Trace.Only (fun op => !op.isDatabase) tr) :
    (world apply answerLost Eq).Path s tr s := by
  induction tr with
  | nil => exact .nil
  | cons e tr ih =>
    obtain ⟨he, hrest⟩ := Trace.only_cons.mp h
    exact .cons (world_other (by simpa using he)) (ih hrest)

end Server

namespace MySQLClient

/-- A client behind a successful `connect`. -/
def up (conn : Handle) : MySQLClient := { conn := some conn, connected := true }

/-- What a result transaction sends behind `START TRANSACTION` when everything succeeds. -/
def sends (conn : Handle) : List Stmt → Trace Op.Res
  | [] => [⟨.mysqlQuery (some conn) .commit, true⟩]
  | s :: rest => ⟨.mysqlQuery (some conn) (.stmt s), true⟩ :: sends conn rest

theorem sendStmts_sends (conn : Handle) (stmts : List Stmt) :
    (sendStmts (some conn) stmts).Runs (sends conn stmts) (.ok true) := by
  induction stmts with
  | nil => exact .exec .done
  | cons s rest ih => exact .exec ih

theorem transaction_sends (conn : Handle) (stmts : List Stmt) :
    ((up conn).transaction stmts).Runs
      (⟨.mysqlQuery (some conn) .startTransaction, true⟩ :: sends conn stmts) (.ok true) :=
  .exec (sendStmts_sends conn stmts)

variable {D : Type} {apply : List (Nat × Stmt) → D → D} {answerLost : Bool}

theorem sends_path {conn : Handle} {stmts : List Stmt} {s : Server D} {ss : List (Nat × Stmt)}
    (h : s.sessions conn = .up (some ss)) :
    ∃ sessions rest, rest.map (·.2) = stmts ∧
      (Server.world apply answerLost Eq).Path s (sends conn stmts)
        ⟨apply (ss ++ rest) s.data, sessions⟩ := by
  induction stmts generalizing s ss with
  | nil =>
    rw [← List.append_nil ss] at h
    exact ⟨_, [], rfl, .cons (Server.world_served h rfl) .nil⟩
  | cons stmt stmts ih =>
    have hstep : Server.world apply answerLost Eq s ⟨.mysqlQuery (some conn) (.stmt stmt), true⟩
        (s.reply conn s.data (.up (some (ss ++ [(0, stmt)])))) := Server.world_served h rfl
    obtain ⟨sessions, rest, hrest, hpath⟩ := ih (Server.reply_same ..)
    rw [List.append_assoc] at hpath
    exact ⟨sessions, (0, stmt) :: rest, congrArg (stmt :: ·) hrest, .cons hstep hpath⟩

end MySQLClient

/-! ## A delivery on which nothing fails -/

namespace Prog

variable {Op : Type} {Res : Op → Type} {X α σ : Type}

/-- What a handler has answered. -/
theorem mem_trace {p : Prog Res X α} {handler : Handler Res σ} {s : σ} {e : Event Res}
    (h : e ∈ p.trace handler s) : ∃ op s', e = ⟨op, (handler op s').1⟩ := by
  induction p generalizing s with
  | done => cases h
  | raise => cases h
  | exec op k ih =>
    rcases List.mem_cons.mp h with rfl | hrest
    · exact ⟨op, s, rfl⟩
    · exact ih _ hrest

end Prog

/-- Judging any submission can have a result, in box 1 as in any other. -/
theorem JudgeEngine.judge_can_return (cfg : IsolateConfig) (submission : SubmissionMessage) :
    ∃ tr result, (judge cfg submission).Runs tr (.ok result) ∧ Host.acquired tr = [1] := by
  let tr := (judge cfg submission).trace (Host.fixed fun _ => none) ()
  have hruns : (judge cfg submission).Runs tr _ := Prog.runs_trace _ (Host.fixed fun _ => none) ()
  have hnone : Host.metaContents tr = [] := by
    refine List.filterMap_eq_nil_iff.mpr fun e he => ?_
    obtain ⟨op, s, rfl⟩ := Prog.mem_trace he
    cases op with
    | ifstream path mode => cases mode <;> rfl
    | _ => rfl
  have hbox : Host.acquired tr = [1] := by
    obtain ⟨-, boxId, hacquired, -⟩ := judge_pool hruns
    have hmem : boxId ∈ Host.acquired tr := hacquired ▸ List.mem_singleton_self _
    obtain ⟨e, he, hanswer⟩ := List.mem_filterMap.mp hmem
    obtain ⟨op, s, rfl⟩ := Prog.mem_trace he
    cases op with
    | acquire =>
      cases hanswer
      exact hacquired
    | _ => cases hanswer
  have hok := judge_toBool_eq hruns
  rw [Host.allConvertible, hnone] at hok
  cases hout : ((judge cfg submission).eval (Host.fixed fun _ => none) ()).1 with
  | ok result =>
    rw [hout] at hruns
    exact ⟨_, result, hruns, hbox⟩
  | error x =>
    rw [hout] at hok
    cases hok

namespace Worker

/-- What `on_message` sends to the database behind the judge when everything succeeds. -/
def stores (stmts : List Stmt) : Trace Op.Res :=
  ⟨.mysqlPing 0, true⟩ :: ⟨.mysqlQuery (some 0) .startTransaction, true⟩ ::
    MySQLClient.sends 0 stmts

/-- The same with the settlement of the delivery. -/
def settles (tag : UInt64) (stmts : List Stmt) : Trace Op.Res :=
  stores stmts ++ [⟨.basicAck tag, true⟩]

/-- A worker with both of its connections. -/
def ready (cfg : IsolateConfig) : Worker :=
  { isolate := cfg, mq := { connected := true }, db := MySQLClient.up 0 }

theorem onMessage_settles {parse : Bytes → Option Json} {cfg : IsolateConfig} {tag : UInt64}
    {body : Bytes} {submission : SubmissionMessage} {tr : Trace Op.Res}
    {result : JudgeResultInternal} (hparse : JudgeEngine.parseMessage parse body = some submission)
    (hjudge : (JudgeEngine.judge cfg submission).Runs tr (.ok result)) :
    ((ready cfg).onMessage parse tag body).Runs
      (tr ++ settles tag (resultStmts submission (dbResult submission result)))
      (.ok (ready cfg)) := by
  have hupdate := MySQLClient.transaction_sends 0
    (resultStmts submission (dbResult submission result))
  rw [onMessage_of_some hparse]
  refine Prog.runs_bind.mpr (.inl ⟨result, _, _, hjudge, ?_, rfl⟩)
  refine .exec ?_
  change Prog.Runs (updateDb (MySQLClient.up 0) submission (dbResult submission result) >>= _) _ _
  rw [updateDb_eq]
  exact Prog.runs_bind.mpr (.inl ⟨true, _, _, hupdate, .exec .done, rfl⟩)

theorem connect_succeeds {parse : Bytes → Option Json} (cfg : IsolateConfig) :
    (Job.connect.program parse { isolate := cfg }).Runs
      [⟨.mysqlInit, some (0 : Handle)⟩, ⟨.mysqlRealConnect 0, true⟩]
      (.ok { isolate := cfg, db := MySQLClient.up 0 }) :=
  .exec (.exec .done)

end Worker

namespace Deployment

variable {parse : Bytes → Option Json}

/-- Some steps later. -/
abbrev Later (parse : Bytes → Option Json) : Deployment → Deployment → Prop :=
  Relation.ReflTransGen (Step parse)

/-- The state with another process `pid`, broker and ledger. -/
def alter (s : Deployment) (pid : Nat) (p : Process) (b : Broker) (l : Ledger) : Deployment :=
  { s with broker := b, ledger := l, processes := Function.update s.processes pid (some p) }

@[simp] theorem alter_process (s : Deployment) (pid : Nat) (p : Process) (b : Broker)
    (l : Ledger) : (s.alter pid p b l).processes pid = some p := by
  simp [alter]

@[simp] theorem alter_alter (s : Deployment) (pid : Nat) (p p' : Process) (b b' : Broker)
    (l l' : Ledger) : (s.alter pid p b l).alter pid p' b' l' = s.alter pid p' b' l' := by
  simp [alter]

@[simp] theorem alter_setProcess (s : Deployment) (pid : Nat) (p p' : Process) (b : Broker)
    (l : Ledger) : (s.alter pid p b l).setProcess pid (some p') = s.alter pid p' b l := by
  simp [alter, setProcess]

/-- A process carries out what is left of its job, and nobody else does anything in the
    meantime. -/
theorem Later.run {s : Deployment} {pid : Nat} {p : Process} {job : Job} {rest : Comp Worker}
    {w : Worker} {tr : Trace Op.Res} {v : View} (hp : s.processes pid = some p)
    (hactivity : p.activity = some ⟨job, rest⟩) (hruns : rest.Runs tr (.ok w))
    (hpath : World.Path (View.Effect pid job.message?) (s.view p) tr v) :
    Later parse s
      (s.alter pid { worker := w, sessions := v.server.sessions, pool := v.pool } v.broker
        v.server.data) := by
  generalize hout : (Except.ok w : Except Abort Worker) = out at hruns
  induction hruns generalizing s p with
  | done =>
    cases hout
    cases hpath
    exact .single (.finish hp hactivity)
  | raise => cases hout
  | @exec op k r tr out _ ih =>
    obtain ⟨v₁, heffect, hpath⟩ := World.path_cons.mp hpath
    have hstep : Step parse s (s.proceed pid p ⟨job, k r⟩ v₁) := .operation hp hactivity heffect
    have hp₁ : (s.proceed pid p ⟨job, k r⟩ v₁).processes pid =
        some { p with
               sessions := v₁.server.sessions
               pool := v₁.pool
               activity := some ⟨job, k r⟩ } :=
      Function.update_self ..
    have hrest := ih hp₁ rfl hpath hout
    refine .head hstep ?_
    simpa [proceed, alter] using hrest

/-- The effects of operations that settle nothing. -/
theorem View.server_path {pid : Nat} {message : Option Message} {v : View} {tr : Trace Op.Res}
    {server : Server Ledger} {pool : List Int}
    (h : (Server.world (Ledger.commit message) true Eq).Path v.server tr server)
    (hpool : World.Path BoxPool.Serves v.pool tr pool) :
    World.Path (View.Effect pid message) v tr { v with server, pool } := by
  induction tr generalizing v with
  | nil =>
    rw [World.path_nil] at h hpool
    subst h hpool
    exact .nil
  | cons e tr ih =>
    obtain ⟨s₁, hstep, hrest⟩ := World.path_cons.mp h
    obtain ⟨available, hserves, hpool⟩ := World.path_cons.mp hpool
    exact .cons (.server hstep hserves)
      (ih (v := { v with server := s₁, pool := available }) hrest hpool)

/-- A connection to the database succeeds. -/
theorem Server.connect_path (message : Option Message) (s : Server Ledger) :
    ∃ sessions, sessions 0 = .up none ∧
      (Server.world (Ledger.commit message) true Eq).Path s
        [⟨.mysqlInit, some (0 : Handle)⟩, ⟨.mysqlRealConnect 0, true⟩] ⟨s.data, sessions⟩ := by
  let s₁ := s.reply 0 s.data (.lost false)
  let s₂ := s₁.reply 0 s.data (.up none)
  have hinit : Server.world (Ledger.commit message) true Eq s ⟨.mysqlInit, some (0 : Handle)⟩
      s₁ := ⟨s, ⟨rfl, fun _ => .stays⟩, .initialised⟩
  have hconnect : Server.world (Ledger.commit message) true Eq s₁ ⟨.mysqlRealConnect 0, true⟩ s₂ :=
    ⟨s₁, ⟨rfl, fun _ => .stays⟩, .connected⟩
  exact ⟨s₂.sessions, Server.reply_same s₁ 0 s.data (.up none), .cons hinit (.cons hconnect .nil)⟩

/-- A result is stored. -/
theorem Server.stores_path {judged : Trace Op.Res} (stmts : List Stmt) (message : Option Message)
    (s : Server Ledger) (hjudged : Trace.Only (fun op => !op.isDatabase) judged)
    (hup : s.sessions 0 = .up none) :
    ∃ sessions ss, ss.map (·.2) = stmts ∧
      (Server.world (Ledger.commit message) true Eq).Path s
        (judged ++ Worker.stores stmts) ⟨s.data.commit message ss, sessions⟩ := by
  let s₁ : Server Ledger := s.reply 0 s.data (.up (some []))
  have hping : Server.world (Ledger.commit message) true Eq s ⟨.mysqlPing 0, true⟩ s :=
    ⟨s, ⟨rfl, fun _ => .stays⟩, .alive hup⟩
  have hstart : Server.world (Ledger.commit message) true Eq s
      ⟨.mysqlQuery (some 0) .startTransaction, true⟩ s₁ := Server.world_served hup rfl
  have hopen : s₁.sessions 0 = .up (some []) := Server.reply_same s 0 s.data _
  obtain ⟨sessions, ss, hss, hsends⟩ := MySQLClient.sends_path hopen
  exact ⟨sessions, ss, hss, World.path_append.mpr
    ⟨s, Server.path_other hjudged, .cons hping (.cons hstart hsends)⟩⟩

theorem stores_database (stmts : List Stmt) :
    Trace.Only Op.isDatabase (Worker.stores stmts) := by
  have hsends : Trace.Only Op.isDatabase (MySQLClient.sends 0 stmts) := by
    induction stmts with
    | nil => simp [MySQLClient.sends, Op.isDatabase]
    | cons s stmts ih => exact Trace.only_cons.mpr ⟨rfl, ih⟩
  exact Trace.only_cons.mpr ⟨rfl, Trace.only_cons.mpr ⟨rfl, hsends⟩⟩

/-- Judging a message and storing its result takes a box and puts it back. -/
theorem stores_serves {cfg : IsolateConfig} {submission : SubmissionMessage}
    {judged : Trace Op.Res} {result : JudgeResultInternal} {boxId : Int}
    (hjudge : (JudgeEngine.judge cfg submission).Runs judged (.ok result))
    (hbox : Host.acquired judged = [boxId]) (stmts : List Stmt) :
    World.Path BoxPool.Serves [boxId] (judged ++ Worker.stores stmts) [boxId] :=
  World.path_append.mpr ⟨[boxId], JudgeEngine.judge_serves hjudge hbox [],
    BoxPool.serves_database (stores_database stmts) _⟩

/-- A delivery is judged, stored and acknowledged. The acknowledgement may get lost. -/
theorem View.settles_path {cfg : IsolateConfig} {submission : SubmissionMessage}
    {judged : Trace Op.Res} {result : JudgeResultInternal} {boxId : Int} {stmts : List Stmt}
    {sessions : Handle → Tx.Session (Nat × Stmt)} {pid : Nat} (m : Message) {b b' : Broker}
    (l : Ledger) {tag : UInt64}
    (hjudge : (JudgeEngine.judge cfg submission).Runs judged (.ok result))
    (hbox : Host.acquired judged = [boxId]) (hup : sessions 0 = .up none)
    (hack : b' = b ∨ b.Step (.ack pid tag) b') :
    ∃ sessions' ss, ss.map (·.2) = stmts ∧
      World.Path (View.Effect pid (some m)) ⟨b, ⟨l, sessions⟩, [boxId]⟩
        (judged ++ Worker.settles tag stmts) ⟨b', ⟨l.commit (some m) ss, sessions'⟩, [boxId]⟩ := by
  obtain ⟨sessions', ss, hss, hserver⟩ := Server.stores_path stmts (some m) ⟨l, sessions⟩
    (JudgeEngine.judge_noDatabase hjudge) hup
  have hview : World.Path (View.Effect pid (some m)) ⟨b, ⟨l, sessions⟩, [boxId]⟩ _ _ :=
    View.server_path hserver (stores_serves hjudge hbox stmts)
  have hsettled : View.Effect pid (some m) ⟨b, ⟨l.commit (some m) ss, sessions'⟩, [boxId]⟩
      ⟨.basicAck tag, true⟩ ⟨b', ⟨l.commit (some m) ss, sessions'⟩, [boxId]⟩ := by
    rcases hack with rfl | hbroker
    · exact .server (Server.world_other rfl) (.other nofun nofun)
    · exact .acked hbroker
  have hall := World.path_append.mpr ⟨_, hview, .cons hsettled .nil⟩
  rw [List.append_assoc] at hall
  exact ⟨sessions', ss, hss, hall⟩

/-! ## Any message can still be stored -/

/-- A process can be killed and started again with one of its boxes, and connect to the
    database. -/
theorem Later.restarted (parse : Bytes → Option Json) (s : Deployment) {pid : Nat}
    {cfg : IsolateConfig} {count boxId : Int} (hbox : boxId ∈ BoxPool.candidates cfg count)
    {b : Broker} (hclose : s.broker.Step (.close pid) b) :
    ∃ sessions, sessions 0 = .up none ∧
      Later parse s
        (s.alter pid
          { worker := { isolate := cfg, db := MySQLClient.up 0 }, sessions, pool := [boxId] } b
          s.ledger) := by
  let p : Process :=
    { worker := { isolate := cfg }, sessions := fun _ => .lost false, pool := [boxId] }
  let connecting : Process :=
    { p with activity := some ⟨.connect, Job.connect.program parse p.worker⟩ }
  let killed := setProcess { s with broker := b } pid none
  have hkilled : Step parse s killed := .crash hclose
  have hspawned : Step parse killed (s.alter pid p b s.ledger) := by
    have hstep : Step parse killed (killed.setProcess pid (some p)) :=
      .spawn (Function.update_self ..) (List.singleton_sublist.mpr hbox)
    simp only [killed, setProcess, Function.update_idem] at hstep
    exact hstep
  have hconnecting : Step parse (s.alter pid p b s.ledger) (s.alter pid connecting b s.ledger) := by
    have hstep : Step parse (s.alter pid p b s.ledger) _ := .connectDb (alter_process ..) rfl rfl
    rw [alter_setProcess] at hstep
    exact hstep
  obtain ⟨sessions, hup, hserver⟩ := Server.connect_path none ⟨s.ledger, p.sessions⟩
  have hpath : World.Path (View.Effect pid none) ⟨b, ⟨s.ledger, p.sessions⟩, [boxId]⟩ _ _ :=
    View.server_path hserver (BoxPool.serves_database (by simp [Op.isDatabase]) _)
  have hrun : Later parse (s.alter pid connecting b s.ledger) _ :=
    .run (alter_process ..) rfl (Worker.connect_succeeds cfg) hpath
  rw [alter_alter] at hrun
  exact ⟨sessions, hup, (((Relation.ReflTransGen.single hkilled).tail hspawned).tail
    hconnecting).trans hrun⟩

/-- A message that the broker still has can be delivered to a new process, which judges it
    in its box with any result that judging it there can have, and stores this result. If the
    acknowledgement gets lost, the broker still has the message. -/
theorem Later.stored (lost : Bool) {s : Deployment} {m : Message} {submission : SubmissionMessage}
    {cfg : IsolateConfig} {count : Int} {tr : Trace Op.Res} {result : JudgeResultInternal}
    (hheld : s.broker.Held m) (hparse : JudgeEngine.parseMessage parse m.body = some submission)
    (hjudge : (JudgeEngine.judge cfg submission).Runs tr (.ok result))
    (hbox : ∀ boxId ∈ Host.acquired tr, boxId ∈ BoxPool.candidates cfg count) :
    ∃ s' ss, Later parse s s' ∧ s'.published = s.published ∧
      s'.ledger = s.ledger.commit (some m) ss ∧
      ss.map (·.2) = Worker.resultStmts submission (Worker.dbResult submission result) ∧
      (lost = true → s'.broker.Held m) := by
  obtain ⟨pid, hpid⟩ : ∃ pid, m ∈ s.broker.ready ∨
      ∃ d ∈ (s.broker.channels pid).outstanding, d.message = m := by
    rcases hheld with hready | ⟨pid, hd⟩
    · exact ⟨0, .inl hready⟩
    · exact ⟨pid, .inr hd⟩
  obtain ⟨-, boxId, hacquired, -⟩ := JudgeEngine.judge_pool hjudge
  have hcandidate := hbox boxId (hacquired ▸ List.mem_singleton_self _)
  obtain ⟨b₁, b₂, b₃, b₄, hclose, hopen, hdeliver, htake⟩ := s.broker.redelivered 1 hpid
  obtain ⟨sessions, hup, hrestarted⟩ := Later.restarted parse s hcandidate hclose
  let d : Delivery := ⟨1, m⟩
  let p₁ : Process :=
    { worker := { isolate := cfg, db := MySQLClient.up 0 }, sessions, pool := [boxId] }
  let p₂ : Process := { p₁ with worker := Worker.ready cfg }
  let p₃ : Process :=
    { p₂ with activity := some ⟨.message d, (Job.message d).program parse p₂.worker⟩ }
  have hconnected : Step parse (s.alter pid p₁ b₁ s.ledger) (s.alter pid p₂ b₂ s.ledger) := by
    have hstep : Step parse (s.alter pid p₁ b₁ s.ledger) _ :=
      .connectMq (alter_process ..) rfl rfl rfl hopen
    simp only [alter, setProcess, Function.update_idem] at hstep
    exact hstep
  have hdelivered : Step parse (s.alter pid p₂ b₂ s.ledger) (s.alter pid p₂ b₃ s.ledger) :=
    .deliver hdeliver
  have hconsumed : Step parse (s.alter pid p₂ b₃ s.ledger) (s.alter pid p₃ b₄ s.ledger) := by
    have hstep : Step parse (s.alter pid p₂ b₃ s.ledger) _ :=
      .consume (alter_process ..) rfl rfl htake
    simp only [alter, setProcess, Function.update_idem] at hstep
    exact hstep
  obtain ⟨b', hack, hkept⟩ : ∃ b', (b' = b₄ ∨ b₄.Step (.ack pid 1) b') ∧
      (lost = true → b'.Held m) := by
    cases lost with
    | false => exact ⟨_, .inr .ack, nofun⟩
    | true => exact ⟨b₄, .inl rfl, fun _ => htake.take_held⟩
  obtain ⟨sessions', ss, hss, hpath⟩ := View.settles_path m s.ledger hjudge hacquired hup hack
  have hstored : Later parse (s.alter pid p₃ b₄ s.ledger) _ :=
    .run (alter_process ..) rfl (Worker.onMessage_settles hparse hjudge) hpath
  refine ⟨_, ss, (((hrestarted.tail hconnected).tail hdelivered).tail hconsumed).trans hstored,
    rfl, rfl, hss, hkept⟩

/-! ## No dead ends -/

theorem Reachable.later {s s' : Deployment} (h : Reachable parse s) (hlater : Later parse s s') :
    Reachable parse s' := by
  induction hlater with
  | refl => exact h
  | tail _ hstep ih => exact ih.step hstep

/-- In no reachable state is it decided what a message will be judged to be, if its result is
    not stored: any result that judging it in a box can have can still be stored, as a process
    can be started to which isolate gives that box. -/
theorem Reachable.recovers {s : Deployment} (h : Reachable parse s) {m : Message}
    (hm : m ∈ s.published) {submission : SubmissionMessage}
    (hparse : JudgeEngine.parseMessage parse m.body = some submission)
    (hnew : ¬ s.ledger.Stored m submission) {cfg : IsolateConfig} {count : Int}
    {tr : Trace Op.Res} {result : JudgeResultInternal}
    (hjudge : (JudgeEngine.judge cfg submission).Runs tr (.ok result))
    (hbox : ∀ boxId ∈ Host.acquired tr, boxId ∈ BoxPool.candidates cfg count) :
    ∃ s' ss, Later parse s s' ∧ s'.published = s.published ∧
      s'.ledger = s.ledger.commit (some m) ss ∧
      ss.map (·.2) = Worker.resultStmts submission (Worker.dbResult submission result) := by
  have hheld := (h.inv.kept m hm submission hparse).resolve_right hnew
  obtain ⟨s', ss, hlater, hpublished, hledger, hss, -⟩ :=
    Later.stored false hheld hparse hjudge hbox
  exact ⟨s', ss, hlater, hpublished, hledger, hss⟩

/-- The first box of the default configuration. -/
theorem one_candidate {tr : Trace Op.Res} (h : Host.acquired tr = [1]) :
    ∀ boxId ∈ Host.acquired tr, boxId ∈ BoxPool.candidates {} 1 := by
  rw [h]
  decide

theorem recovers_sample : ∃ result s' ss,
    Later JudgeEngine.sampleParse
      (solo sampleBroker { initial := sampleDb, commits := [] } sampleProcess) s' ∧
    s'.published = [sampleQueued] ∧
    s'.ledger = Ledger.commit (some sampleQueued) ss { initial := sampleDb, commits := [] } ∧
    ss.map (·.2) = Worker.resultStmts JudgeEngine.sampleMessage
      (Worker.dbResult JudgeEngine.sampleMessage result) := by
  obtain ⟨tr, result, hjudge, hbox⟩ := JudgeEngine.judge_can_return {} JudgeEngine.sampleMessage
  refine ⟨result, sample_reachable.recovers (mem_solo_published ..) sampleQueued_parses ?_ hjudge
    (one_candidate hbox)⟩
  rintro ⟨cfg, tr, result, c, -, hc, -⟩
  cases hc

/-- The messages of a list can be stored one after the other. -/
theorem Reachable.stores {s : Deployment} (h : Reachable parse s) {ms : List Message}
    (hms : ∀ m ∈ ms, m ∈ s.published) :
    ∃ s', Later parse s s' ∧ s'.published = s.published ∧
      ∀ m ∈ ms, ∀ submission, JudgeEngine.parseMessage parse m.body = some submission →
        s'.ledger.Stored m submission := by
  induction ms with
  | nil => exact ⟨s, .refl, rfl, nofun⟩
  | cons m ms ih =>
    obtain ⟨s₁, hlater, hpublished, hstored⟩ := ih fun m' hm' => hms m' (List.mem_cons_of_mem _ hm')
    have hm : m ∈ s₁.published := hpublished ▸ hms m List.mem_cons_self
    cases hparse : JudgeEngine.parseMessage parse m.body with
    | none =>
      refine ⟨s₁, hlater, hpublished, fun m' hm' submission hparse' => ?_⟩
      rcases List.mem_cons.mp hm' with rfl | hold
      · rw [hparse] at hparse'
        cases hparse'
      · exact hstored m' hold submission hparse'
    | some submission =>
      rcases (h.later hlater).inv.kept m hm submission hparse with hheld | hdone
      · obtain ⟨tr, result, hjudge, hbox⟩ := JudgeEngine.judge_can_return {} submission
        obtain ⟨s₂, ss, hlater₂, hpublished₂, hledger, hss, -⟩ :=
          Later.stored false hheld hparse hjudge (one_candidate hbox)
        have hgrows : s₁.ledger.Grows s₂.ledger := hledger ▸ Ledger.grows_commit ..
        refine ⟨s₂, hlater.trans hlater₂, hpublished₂.trans hpublished,
          fun m' hm' submission' hparse' => ?_⟩
        rcases List.mem_cons.mp hm' with rfl | hold
        · rw [hparse] at hparse'
          cases hparse'
          refine ⟨{}, tr, result, ⟨some m', ss⟩, hjudge, ?_, rfl, hss⟩
          rw [hledger]
          exact List.mem_append_right _ (List.mem_singleton_self _)
        · exact (hstored m' hold submission' hparse').grows hgrows
      · refine ⟨s₁, hlater, hpublished, fun m' hm' submission' hparse' => ?_⟩
        rcases List.mem_cons.mp hm' with rfl | hold
        · rw [hparse] at hparse'
          cases hparse'
          exact hdone
        · exact hstored m' hold submission' hparse'

/-- From every reachable state the system can come to a state in which the results of all
    messages are stored. -/
theorem Reachable.drains {s : Deployment} (h : Reachable parse s) :
    ∃ s', Later parse s s' ∧ s'.published = s.published ∧
      ∀ m ∈ s.published, ∀ submission,
        JudgeEngine.parseMessage parse m.body = some submission →
        s'.ledger.Stored m submission :=
  h.stores fun _ hm => hm

theorem drains_sample : ∃ s',
    Later JudgeEngine.sampleParse
      (solo sampleBroker { initial := sampleDb, commits := [] } sampleProcess) s' ∧
    s'.published = [sampleQueued] ∧
    ∀ m ∈ [sampleQueued], ∀ submission,
      JudgeEngine.parseMessage JudgeEngine.sampleParse m.body = some submission →
      s'.ledger.Stored m submission :=
  sample_reachable.drains

end Deployment
