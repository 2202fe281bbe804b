-- SUMMARY: No message is lost: in every reachable state of the deployment the queue, an open delivery or the database accounts for each accepted message.
import FlowStudyJudge.Db.Redelivery
import FlowStudyJudge.Worker.Deployment
import FlowStudyJudge.Worker.Delivery
import FlowStudyJudge.Worker.Settle
import FlowStudyJudge.Db.Transactions

/-! # No message is lost -/

namespace Deployment

variable {parse : Bytes → Option Json}

/-! ## Activities -/

/-- An activity as far as it has come: the operations it has issued since the process was
    last idle, as the database answered them. -/
def Underway (parse : Bytes → Option Json) (l : Ledger) (p : Process) (a : Activity) : Prop :=
  ∃ (s₀ s₁ : Server Ledger) (tr : Trace Op.Res), s₀.Idle ∧
    (a.job.program parse p.worker).Reaches tr a.rest ∧
    (Server.world (Ledger.commit a.job.message?) true Ledger.Grows).Path s₀ tr s₁ ∧
    Server.Idles Ledger.Grows s₁ { data := l, sessions := p.sessions }

theorem Underway.begin {l : Ledger} {p : Process} (job : Job)
    (h : ∀ conn, (p.sessions conn).Idle) :
    Underway parse l p ⟨job, job.program parse p.worker⟩ :=
  ⟨⟨l, p.sessions⟩, ⟨l, p.sessions⟩, [], h, .here, .nil, refl l, fun _ => .stays⟩

theorem Underway.grows {l l' : Ledger} {p : Process} {a : Activity} (h : Underway parse l p a)
    (hgrows : l.Grows l') : Underway parse l' p a := by
  obtain ⟨s₀, s₁, tr, hidle, hreaches, hpath, hsince⟩ := h
  exact ⟨s₀, s₁, tr, hidle, hreaches, hpath, hsince.data.trans hgrows, hsince.sessions⟩

/-- One more operation. -/
theorem Underway.operation {l : Ledger} {p p' : Process} {job : Job} {op : Op}
    {k : op.Res → Comp Worker} {r : op.Res} {s' : Server Ledger}
    (h : Underway parse l p ⟨job, .exec op k⟩)
    (hserver : Server.world (Ledger.commit job.message?) true Eq ⟨l, p.sessions⟩ ⟨op, r⟩ s')
    (hworker : p'.worker = p.worker) (hsessions : p'.sessions = s'.sessions) :
    Underway parse s'.data p' ⟨job, k r⟩ := by
  obtain ⟨s₀, s₁, tr, hidle, hreaches, hpath, hsince⟩ := h
  obtain ⟨s₂, hidles, hserves⟩ := hserver
  have hgrown : Server.Idles Ledger.Grows ⟨l, p.sessions⟩ s₂ := by
    refine ⟨?_, hidles.sessions⟩
    rw [← hidles.data]
    exact refl l
  have hstep : Server.world (Ledger.commit job.message?) true Ledger.Grows s₁ ⟨op, r⟩ s' :=
    ⟨s₂, hsince.trans hgrown, hserves⟩
  refine ⟨s₀, s', tr ++ [⟨op, r⟩], hidle, ?_, ?_, refl s'.data, ?_⟩
  · rw [hworker]
    exact hreaches.snoc r
  · exact World.path_append.mpr ⟨s₁, hpath, .cons hstep .nil⟩
  · intro conn
    rw [hsessions]
    exact .stays

/-! ## What a program has done -/

/-- A program that has returned leaves no transaction open. -/
theorem program_idle {w w' : Worker} {job : Job} {tr : Trace Op.Res} {s s' : Server Ledger}
    (hmq : ∀ d, job = .message d → w.mq.connected = true)
    (hruns : (job.program parse w).Runs tr (.ok w'))
    (hpath : (Server.world (Ledger.commit job.message?) true Ledger.Grows).Path s tr s')
    (hidle : s.Idle) : s'.Idle := by
  cases job with
  | connect =>
    rcases Prog.runs_bind.mp hruns with ⟨res, tr₁, tr₂, h₁, h₂, rfl⟩ | ⟨x, -, hx⟩
    · obtain ⟨rfl, -⟩ := Prog.runs_done.mp h₂
      obtain ⟨res, -, hconnected⟩ := MySQLClient.connect_runs h₁
      rw [List.append_nil] at hpath
      exact (Server.path_quiet hpath hconnected.noQuery hidle).2
    · cases hx
  | message d =>
    have hmq := hmq d rfl
    cases hparse : JudgeEngine.parseMessage parse d.message.body with
    | none =>
      obtain ⟨b, rfl, -⟩ := Worker.onMessage_rejected_runs hmq hparse hruns
      exact (Server.path_quiet hpath (by simp) hidle).2
    | some submission =>
      generalize hout : (Except.ok w' : Except Abort Worker) = out at hruns
      cases Worker.onMessage_accepted_runs hmq hparse hruns with
      | thrown hjudge | crashed hjudge hping hupdate => cases hout
      | acked hjudge hping hupdate | nacked hjudge hping hupdate =>
        exact (Worker.delivery_path hjudge hping hupdate rfl hpath hidle).1

theorem stored_of_commits {m : Message} {submission : SubmissionMessage} {l l' : Ledger}
    {cfg : IsolateConfig} {tr : Trace Op.Res} {result : JudgeResultInternal}
    (hjudge : (JudgeEngine.judge cfg submission).Runs tr (.ok result))
    (h : Server.Commits (Ledger.commit (some m)) Ledger.Grows
      (Worker.resultStmts submission (Worker.dbResult submission result)) l l') :
    l'.Stored m submission := by
  obtain ⟨ss, l₁, hss, -, hgrows⟩ := h
  refine ⟨cfg, tr, result, ⟨some m, ss⟩, hjudge, ?_, rfl, hss⟩
  apply hgrows.subset
  simp [Ledger.commit]

/-- `on_message` settles nothing before its result transaction has ended. -/
theorem unsettled {w : Worker} {submission : SubmissionMessage} {stmts : List Stmt}
    {judged ping update : Trace Op.Res} {db : MySQLClient} {pinged : Bool}
    {out : Except Abort JudgeResultInternal} {out' : Except Abort Bool}
    (hjudge : (JudgeEngine.judge w.isolate submission).Runs judged out)
    (hping : w.db.Pinged ping (db, pinged)) (hupdate : db.Transacted stmts update out') :
    Trace.Only (fun op => !op.isSettlement) (judged ++ (ping ++ update)) := by
  rw [Trace.only_append, Trace.only_append]
  refine ⟨?_, ?_, ?_⟩
  · exact Host.noSettlement_of_settlements (JudgeEngine.judge_pool hjudge).1
  · exact hping.only.mono Op.isDatabase_not_isSettlement
  · exact hupdate.only.mono Op.isDatabase_not_isSettlement

/-- The settlement at the end of a delivery is the only one: before it the whole result
    transaction has been sent. -/
theorem split_at_ack {w : Worker} {submission : SubmissionMessage} {result : JudgeResult}
    {judged ping update tr tr' : Trace Op.Res} {db : MySQLClient} {pinged b' : Bool} {tag : UInt64}
    {settle : Event Op.Res} {out : Except Abort JudgeResultInternal}
    (hjudge : (JudgeEngine.judge w.isolate submission).Runs judged out)
    (hping : w.db.Pinged ping (db, pinged))
    (hupdate : db.Transacted (Worker.resultStmts submission result) update (.ok b'))
    (h : tr ++ ⟨.basicAck tag, true⟩ :: tr' = judged ++ (ping ++ (update ++ [settle]))) :
    tr = judged ++ (ping ++ update) ∧ settle = ⟨.basicAck tag, true⟩ := by
  have hsettlements := unsettled hjudge hping hupdate
  have hsplit : (judged ++ (ping ++ update)) ++ [settle] = tr ++ ⟨.basicAck tag, true⟩ :: tr' := by
    rw [h]
    simp
  obtain ⟨htr, hsettle, -⟩ := hsettlements.split_last hsplit rfl
  exact ⟨htr, hsettle.symm⟩

/-- A process about to acknowledge handles the delivery that it acknowledges, and has
    committed the result of its message, if it is one. -/
theorem Underway.acked {l : Ledger} {p : Process} {job : Job} {tag : UInt64}
    {k : Bool → Comp Worker} (h : Underway parse l p ⟨job, .exec (.basicAck tag) k⟩)
    (hmq : ∀ d, job = .message d → p.worker.mq.connected = true) :
    ∃ d, job = .message d ∧ d.tag = tag ∧
      ∀ submission, JudgeEngine.parseMessage parse d.message.body = some submission →
        l.Stored d.message submission := by
  obtain ⟨s₀, s₁, tr, hidle, hreaches, hpath, hsince⟩ := h
  have hsnoc := hreaches.snoc true
  obtain ⟨tr', out, hruns⟩ := hsnoc.completes (Host.fixed fun _ => none) ()
  rw [List.append_assoc, List.singleton_append] at hruns
  cases job with
  | connect =>
    -- connecting issues database operations only
    exfalso
    rcases Prog.runs_bind.mp hruns with ⟨res, tr₁, tr₂, h₁, h₂, htr⟩ | ⟨x, h₁, -⟩
    · obtain ⟨rfl, -⟩ := Prog.runs_done.mp h₂
      obtain ⟨res, -, hconnected⟩ := MySQLClient.connect_runs h₁
      rw [List.append_nil] at htr
      have hack : Op.isDatabase (.basicAck tag) = true :=
        hconnected.only ⟨.basicAck tag, true⟩ (by rw [← htr]; simp)
      cases hack
    · obtain ⟨res, hx, -⟩ := MySQLClient.connect_runs h₁
      cases hx
  | message d =>
    refine ⟨d, rfl, ?_⟩
    have hmq := hmq d rfl
    generalize htr : tr ++ ⟨.basicAck tag, true⟩ :: tr' = full at hruns
    cases hparse : JudgeEngine.parseMessage parse d.message.body with
    | none =>
      obtain ⟨b, rfl, -⟩ := Worker.onMessage_rejected_runs hmq hparse hruns
      have hlast : ([] : Trace Op.Res) ++ [⟨.basicAck d.tag, b⟩] =
          tr ++ ⟨.basicAck tag, true⟩ :: tr' := htr.symm
      have hnil : Trace.Only (fun op => !op.isSettlement) ([] : Trace Op.Res) := Trace.only_nil
      obtain ⟨-, hack, -⟩ := hnil.split_last hlast rfl
      cases hack
      exact ⟨rfl, fun submission hsome => nomatch hsome⟩
    | some submission =>
      cases Worker.onMessage_accepted_runs hmq hparse hruns with
      | thrown hjudge =>
        exfalso
        have hnone := Host.noSettlement_of_settlements (JudgeEngine.judge_pool hjudge).1
        have hack : (!Op.isSettlement (.basicAck tag)) = true :=
          hnone ⟨.basicAck tag, true⟩ (by rw [← htr]; simp)
        cases hack
      | nacked hjudge hping hupdate =>
        obtain ⟨-, hack⟩ := split_at_ack hjudge hping hupdate htr
        cases hack
      | crashed hjudge hping hupdate =>
        exfalso
        have hnone := unsettled hjudge hping hupdate
        have hack : (!Op.isSettlement (.basicAck tag)) = true :=
          hnone ⟨.basicAck tag, true⟩ (by rw [← htr]; simp)
        cases hack
      | acked hjudge hping hupdate =>
        obtain ⟨rfl, hack⟩ := split_at_ack hjudge hping hupdate htr
        cases hack
        refine ⟨rfl, fun submission' hsome => ?_⟩
        cases hsome
        obtain ⟨-, hcommits⟩ := Worker.update_path hjudge hping hupdate hpath hidle
        exact (stored_of_commits hjudge hcommits).grows hsince.data

/-! ## Processes -/

/-- What holds of a running process: when idle it has no transaction open, and the
    delivery that it handles is its own. -/
structure Sound (parse : Bytes → Option Json) (b : Broker) (l : Ledger) (pid : Nat)
    (p : Process) : Prop where
  idle : p.activity = none → ∀ conn, (p.sessions conn).Idle
  underway : ∀ a, p.activity = some a → Underway parse l p a
  handles : ∀ a d, p.activity = some a → a.job = .message d →
    p.worker.mq.connected = true ∧ b.Owns pid d

theorem Sound.frame {b b' : Broker} {l l' : Ledger} {pid : Nat} {p : Process}
    (h : Sound parse b l pid p) (hgrows : l.Grows l')
    (howns : ∀ d, b.Owns pid d → b'.Owns pid d) : Sound parse b' l' pid p where
  idle := h.idle
  underway a ha := (h.underway a ha).grows hgrows
  handles a d ha hd := (h.handles a d ha hd).imp_right (howns d)

/-- A process that stays idle. -/
theorem Sound.ofIdle {b : Broker} {l : Ledger} {pid : Nat} {p : Process}
    (hactivity : p.activity = none) (hidle : ∀ conn, (p.sessions conn).Idle) :
    Sound parse b l pid p where
  idle _ := hidle
  underway a ha := by
    rw [hactivity] at ha
    cases ha
  handles a d ha _ := by
    rw [hactivity] at ha
    cases ha

/-- A process that is busy. -/
theorem Sound.ofUnderway {b : Broker} {l : Ledger} {pid : Nat} {p : Process} {a : Activity}
    (hactivity : p.activity = some a) (hunderway : Underway parse l p a)
    (hhandles : ∀ d, a.job = .message d → p.worker.mq.connected = true ∧ b.Owns pid d) :
    Sound parse b l pid p where
  idle hnone := by
    rw [hactivity] at hnone
    cases hnone
  underway a' ha' := by
    rw [hactivity] at ha'
    cases ha'
    exact hunderway
  handles a' d ha' hd := by
    rw [hactivity] at ha'
    cases ha'
    exact hhandles d hd

/-! ## Operations -/

/-- The database takes an operation whatever the broker makes of it. -/
theorem effect_server {pid : Nat} {message : Option Message} {v v' : View} {e : Event Op.Res}
    (h : View.Effect pid message v e v') :
    Server.world (Ledger.commit message) true Eq v.server e v'.server := by
  cases h with
  | server hserver hpool => exact hserver
  | acked | nacked => exact Server.world_other rfl

/-- What an operation makes the broker do, if anything. -/
theorem effect_broker {pid : Nat} {message : Option Message} {v v' : View} {e : Event Op.Res}
    (h : View.Effect pid message v e v') :
    v'.broker = v.broker ∨
      (∃ tag, e.op = .basicAck tag ∧ v.broker.Step (.ack pid tag) v'.broker) ∨
      (∃ tag, e.op = .basicNack tag ∧ v.broker.Step (.nack pid tag) v'.broker) := by
  cases h with
  | server hserver hpool => exact .inl rfl
  | acked hbroker => exact .inr (.inl ⟨_, rfl, hbroker⟩)
  | nacked hbroker => exact .inr (.inr ⟨_, rfl, hbroker⟩)

theorem effect_grows {pid : Nat} {message : Option Message} {v v' : View} {e : Event Op.Res}
    (h : View.Effect pid message v e v') : v.server.data.Grows v'.server.data := by
  obtain ⟨s₁, hidles, hserves⟩ := effect_server h
  rw [hidles.data]
  rcases hserves.data with heq | ⟨ss, heq⟩
  · rw [heq]
    exact refl _
  · rw [heq]
    exact Ledger.grows_commit message ss _

/-! ## The invariant -/

/-- The message is accounted for: with the broker, or in the database. -/
def Kept (parse : Bytes → Option Json) (b : Broker) (l : Ledger) (m : Message) : Prop :=
  ∀ submission, JudgeEngine.parseMessage parse m.body = some submission →
    b.Held m ∨ l.Stored m submission

structure Inv (parse : Bytes → Option Json) (s : Deployment) : Prop where
  kept : ∀ m ∈ s.published, Kept parse s.broker s.ledger m
  proper : s.broker.Proper
  sound : ∀ pid p, s.processes pid = some p → Sound parse s.broker s.ledger pid p

theorem Kept.frame {b b' : Broker} {l l' : Ledger} {m : Message} (h : Kept parse b l m)
    (hheld : b.Held m → b'.Held m) (hgrows : l.Grows l') : Kept parse b' l' m :=
  fun submission hparse =>
    (h submission hparse).imp hheld fun hstored => hstored.grows hgrows

theorem inv_start (tables : Db) : Inv parse (start tables) where
  kept _ hm := nomatch hm
  proper _ := ⟨fun _ => rfl, List.nodup_nil, fun _ hd => nomatch hd⟩
  sound _ _ hp := nomatch hp

/-- A step of one process, or of the broker on the channel of one process: the others
    need nothing but their own deliveries. -/
theorem Inv.update {s : Deployment} (h : Inv parse s) {published : List Message}
    {b : Broker} {l : Ledger} {pid : Nat} {p : Option Process}
    (hkept : ∀ m ∈ published, Kept parse b l m) (hproper : b.Proper) (hgrows : s.ledger.Grows l)
    (howns : ∀ pid' d, pid' ≠ pid → s.broker.Owns pid' d → b.Owns pid' d)
    (hself : ∀ p', p = some p' → Sound parse b l pid p') :
    Inv parse
      { published, broker := b, ledger := l,
        processes := Function.update s.processes pid p } where
  kept := hkept
  proper := hproper
  sound pid' p' hp' := by
    change Function.update s.processes pid p pid' = some p' at hp'
    by_cases hpid : pid' = pid
    · subst hpid
      rw [Function.update_self] at hp'
      exact hself p' hp'
    · rw [Function.update_of_ne hpid] at hp'
      exact (h.sound pid' p' hp').frame hgrows fun d => howns pid' d hpid

/-- A step of the broker that acknowledges nothing and opens no channel. -/
theorem Inv.broker {s : Deployment} (h : Inv parse s) {a : Queue.Action Nat UInt64 Message}
    {b : Broker} (hbroker : s.broker.Step a b) (hack : ∀ pid tag, a ≠ .ack pid tag)
    (hopen : ∀ pid, a ≠ .openChannel pid) : Inv parse { s with broker := b } where
  kept m hm := (h.kept m hm).frame (hbroker.held_of_ne_ack hack) (refl _)
  proper := hbroker.proper h.proper
  sound pid p hp := (h.sound pid p hp).frame (refl _) fun _ => hbroker.owns (hopen pid)

/-- A process proceeds by one operation. -/
theorem Inv.operation {s : Deployment} (h : Inv parse s) {pid : Nat} {p : Process} {job : Job}
    {op : Op} {k : op.Res → Comp Worker} {r : op.Res} {v : View}
    (hp : s.processes pid = some p) (hactivity : p.activity = some ⟨job, .exec op k⟩)
    (heffect : View.Effect pid job.message? (s.view p) ⟨op, r⟩ v) :
    Inv parse (s.proceed pid p ⟨job, k r⟩ v) := by
  have hsound := h.sound pid p hp
  have hunderway := hsound.underway _ hactivity
  have hhandles : ∀ d, job = .message d → p.worker.mq.connected = true ∧ s.broker.Owns pid d :=
    fun d hd => hsound.handles _ d hactivity hd
  have hgrows : s.ledger.Grows v.server.data := effect_grows heffect
  have hnext : Underway parse v.server.data
      { p with sessions := v.server.sessions, activity := some ⟨job, k r⟩ } ⟨job, k r⟩ :=
    hunderway.operation (effect_server heffect) rfl rfl
  have hmq : ∀ d, job = .message d → p.worker.mq.connected = true :=
    fun d hd => (hhandles d hd).1
  rcases effect_broker heffect with hbroker | ⟨tag, hop, hbroker⟩ | ⟨tag, hop, hbroker⟩
  · refine h.update (fun m hm => ?_) ?_ hgrows (fun pid' d _ howns => ?_) ?_
    · exact (h.kept m hm).frame (fun hheld => hbroker ▸ hheld) hgrows
    · exact hbroker ▸ h.proper
    · exact hbroker ▸ howns
    · intro p' hp'
      cases hp'
      refine Sound.ofUnderway rfl hnext fun d hd => ?_
      exact hbroker ▸ hhandles d hd
  · cases hop
    -- what is acknowledged is the message of this job, and its result is stored
    obtain ⟨d, rfl, htag, hstored⟩ := hunderway.acked hmq
    refine h.update (fun m hm => ?_) (hbroker.proper h.proper) hgrows
      (fun pid' d _ howns => hbroker.owns nofun howns) ?_
    · intro submission hparse
      rcases h.kept m hm submission hparse with hheld | hstored'
      · rcases hbroker.held hheld with hheld' | ⟨pid', tag', heq, d', hd', htag', hm'⟩
        · exact .inl hheld'
        · cases heq
          have hd : d' = d := (hhandles d rfl).2.only d' hd' (htag'.trans htag.symm)
          subst hd
          subst hm'
          exact .inr ((hstored submission hparse).grows hgrows)
      · exact .inr (hstored'.grows hgrows)
    · intro p' hp'
      cases hp'
      refine Sound.ofUnderway rfl hnext fun d' hd' => ?_
      exact (hhandles d' hd').imp_right (hbroker.owns nofun)
  · refine h.update (fun m hm => ?_) (hbroker.proper h.proper) hgrows
      (fun pid' d _ howns => hbroker.owns nofun howns) ?_
    · exact (h.kept m hm).frame (hbroker.held_of_ne_ack nofun) hgrows
    · intro p' hp'
      cases hp'
      refine Sound.ofUnderway rfl hnext fun d' hd' => ?_
      exact (hhandles d' hd').imp_right (hbroker.owns nofun)

theorem Inv.step {s s' : Deployment} (h : Inv parse s) (hstep : Step parse s s') :
    Inv parse s' := by
  cases hstep with
  | @publish body broker hbroker =>
    have hinv := h.broker hbroker nofun nofun
    refine ⟨fun m hm => ?_, hinv.proper, hinv.sound⟩
    rcases List.mem_append.mp hm with hold | hnew
    · exact hinv.kept m hold
    · obtain rfl := List.mem_singleton.mp hnew
      intro submission hparse
      cases hbroker
      exact .inl (.inl (by simp))
  | @spawn pid isolate hp =>
    refine h.update h.kept h.proper (refl _) (fun _ _ _ howns => howns) ?_
    intro p' hp'
    cases hp'
    exact Sound.ofIdle rfl fun _ => .lost
  | @connectDb pid p hp hidle hmq =>
    refine h.update h.kept h.proper (refl _) (fun _ _ _ howns => howns) ?_
    intro p' hp'
    cases hp'
    have hsessions := (h.sound pid p hp).idle hidle
    exact Sound.ofUnderway rfl (Underway.begin .connect hsessions) nofun
  | @connectMq pid p broker hp hidle hdb hmq hbroker =>
    refine h.update (fun m hm => ?_) (hbroker.proper h.proper) (refl _)
      (fun pid' d hpid howns => ?_) ?_
    · exact (h.kept m hm).frame (hbroker.held_of_ne_ack nofun) (refl _)
    · refine hbroker.owns (fun heq => ?_) howns
      cases heq
      exact hpid rfl
    · intro p' hp'
      cases hp'
      exact Sound.ofIdle hidle ((h.sound pid p hp).idle hidle)
  | @deliver pid tag m broker hbroker => exact h.broker hbroker nofun nofun
  | @consume pid p d broker hp hidle hmq hbroker =>
    refine h.update (fun m hm => ?_) (hbroker.proper h.proper) (refl _)
      (fun pid' d _ howns => hbroker.owns nofun howns) ?_
    · exact (h.kept m hm).frame (hbroker.held_of_ne_ack nofun) (refl _)
    · intro p' hp'
      cases hp'
      have hsessions := (h.sound pid p hp).idle hidle
      refine Sound.ofUnderway rfl (Underway.begin (.message d) hsessions) fun d' hd' => ?_
      cases hd'
      exact ⟨hmq, hbroker.owns_take h.proper⟩
  | @operation pid p job op k r v hp hactivity heffect => exact h.operation hp hactivity heffect
  | @finish pid p job w hp hactivity =>
    refine h.update h.kept h.proper (refl _) (fun _ _ _ howns => howns) ?_
    intro p' hp'
    cases hp'
    have hsound := h.sound pid p hp
    obtain ⟨s₀, s₁, tr, hidle, hreaches, hpath, hsince⟩ := hsound.underway _ hactivity
    have hmq : ∀ d, job = .message d → p.worker.mq.connected = true :=
      fun d hd => (hsound.handles _ d hactivity hd).1
    have hidle₁ := program_idle hmq hreaches.runs_done hpath hidle
    exact Sound.ofIdle rfl fun conn => (hidle₁ conn).drops (hsince.sessions conn)
  | @disconnect pid broker hbroker => exact h.broker hbroker nofun nofun
  | @crash pid broker hbroker =>
    have hinv := h.broker hbroker nofun nofun
    refine hinv.update hinv.kept hinv.proper (refl _) (fun _ _ _ howns => howns) ?_
    intro p' hp'
    cases hp'

theorem Reachable.inv {s : Deployment} (h : Reachable parse s) : Inv parse s := by
  induction h with
  | start => exact inv_start _
  | step _ hstep ih => exact ih.step hstep

/-- No message is lost: in every reachable state a published message that
    `parse_message` accepts is in the queue, or delivered and not yet acknowledged, or its
    result transaction has been committed. -/
theorem no_message_lost {s : Deployment} (h : Reachable parse s) {m : Message}
    (hm : m ∈ s.published) {submission : SubmissionMessage}
    (hparse : JudgeEngine.parseMessage parse m.body = some submission) :
    m ∈ s.broker.ready ∨ s.broker.Unacknowledged m ∨ s.ledger.Stored m submission := by
  rcases h.inv.kept m hm submission hparse with (hready | hunacked) | hstored
  · exact .inl hready
  · exact .inr (.inl hunacked)
  · exact .inr (.inr hstored)

/-! ## An acknowledged message -/

/-- A process carries out what is left of its job, with the answers of a handler, and
    nobody else does anything in the meantime. -/
theorem Reachable.run {s : Deployment} {pid : Nat} {p : Process} {job : Job}
    {rest : Comp Worker} {w : Worker} {handler : Handler Op.Res View} {ok : Op → View → Bool}
    (h : Reachable parse s) (hp : s.processes pid = some p)
    (hactivity : p.activity = some ⟨job, rest⟩)
    (heffect : ∀ op v, ok op v = true →
      View.Effect pid job.message? v ⟨op, (handler op v).1⟩ (handler op v).2)
    (hmeets : rest.meets ok handler (s.view p) = true)
    (heval : (rest.eval handler (s.view p)).1 = .ok w) :
    let v := (rest.eval handler (s.view p)).2
    Reachable parse
      { s with
        broker := v.broker
        ledger := v.server.data
        processes := Function.update s.processes pid
          (some { worker := w, sessions := v.server.sessions, pool := v.pool }) } := by
  induction rest generalizing s p with
  | done w' =>
    cases heval
    exact h.step (.finish hp hactivity)
  | raise x => cases heval
  | exec op k ih =>
    obtain ⟨hok, hmeets⟩ := Bool.and_eq_true_iff.mp hmeets
    have hstep := h.step (.operation hp hactivity (heffect op (s.view p) hok))
    have hrun := ih _ hstep (Function.update_self ..) rfl hmeets heval
    simp only [proceed, Function.update_idem] at hrun
    exact hrun

/-- A host on which everything works, for the programs of process 0. -/
def workingServer (message : Option Message) : Handler Op.Res (Server Ledger) :=
  Server.reliable (Ledger.commit message)
    (Sandbox.boxFiles "exitcode:0\n" "exitcode:0\n" "1\n")

/-- There every acknowledgement arrives. -/
def workingHost (message : Option Message) : Handler Op.Res View := fun op v =>
  match op with
  | .acquire => (v.pool.headD 0, { v with pool := v.pool.tail })
  | .release boxId => ((), { v with pool := v.pool ++ [boxId] })
  | .basicAck tag =>
    (true, { v with broker := v.broker.set 0 ((v.broker.channels 0).settle tag) })
  | op =>
    ((workingServer message op v.server).1,
      { v with server := (workingServer message op v.server).2 })

/-- `acquire` does not have to wait. -/
def hasBox (op : Op) (v : View) : Bool :=
  op ≠ .acquire ∨ v.pool ≠ []

theorem workingHost_effect {message : Option Message} (op : Op) (v : View)
    (h : hasBox op v = true) :
    View.Effect 0 message v ⟨op, (workingHost message op v).1⟩ (workingHost message op v).2 := by
  have hserver : Server.world (Ledger.commit message) true Eq v.server
      ⟨op, (workingServer message op v.server).1⟩ (workingServer message op v.server).2 :=
    Server.reliable_world op v.server
  cases op with
  | acquire =>
    obtain ⟨broker, server, pool⟩ := v
    cases pool with
    | nil => simp [hasBox] at h
    | cons boxId pool => exact .server (Server.world_other rfl) .acquire
  | release boxId => exact .server (Server.world_other rfl) .release
  | basicAck tag => exact .acked .ack
  | _ => exact .server hserver (.other nofun nofun)

/-- Nothing is outstanding on the channels of the other processes. -/
def OthersIdle (v : View) : Prop :=
  ∀ pid, pid ≠ 0 → (v.broker.channels pid).outstanding = []

theorem workingHost_othersIdle {message : Option Message} (op : Op) (v : View)
    (h : OthersIdle v) : OthersIdle (workingHost message op v).2 := by
  intro pid hpid
  cases op with
  | basicAck tag =>
    change ((v.broker.set 0 _).channels pid).outstanding = []
    rw [Queue.Broker.set_ne _ _ hpid]
    exact h pid hpid
  | _ => exact h pid hpid

def sampleQueued : Message :=
  { number := 0, body := JudgeEngine.sampleBody }

theorem sampleQueued_parses : JudgeEngine.parseMessage JudgeEngine.sampleParse sampleQueued.body =
    some JudgeEngine.sampleMessage := by
  simp only [sampleQueued]
  exact JudgeEngine.parseMessage_sample

/-- That message alone, and process 0 alone. -/
def solo (broker : Broker) (ledger : Ledger) (p : Process) : Deployment :=
  { published := [sampleQueued], broker, ledger
    processes := Function.update (fun _ => none) 0 (some p) }

theorem Reachable.solo {b b' : Broker} {l l' : Ledger} {p p' : Process}
    (h : Reachable parse
      { solo b l p with
        broker := b'
        ledger := l'
        processes := Function.update (Deployment.solo b l p).processes 0 (some p') }) :
    Reachable parse (Deployment.solo b' l' p') := by
  simp only [Deployment.solo, Function.update_idem] at h
  exact h

theorem solo_process (b : Broker) (l : Ledger) (p : Process) :
    (solo b l p).processes 0 = some p := by
  simp [solo]

theorem mem_solo_published (b : Broker) (l : Ledger) (p : Process) :
    sampleQueued ∈ (solo b l p).published :=
  List.mem_singleton_self _

/-- Process 0 finishes a job. -/
theorem Reachable.finishes {b : Broker} {l : Ledger} {p : Process} {job : Job} {w : Worker}
    {rest : Comp Worker} {v : View}
    (h : Reachable parse (Deployment.solo b l { p with activity := some ⟨job, rest⟩ }))
    (hmeets : rest.meets hasBox (workingHost job.message?) ⟨b, ⟨l, p.sessions⟩, p.pool⟩ = true)
    (heval : rest.eval (workingHost job.message?) ⟨b, ⟨l, p.sessions⟩, p.pool⟩ = (.ok w, v)) :
    Reachable parse
      (Deployment.solo v.broker v.server.data ⟨w, v.server.sessions, v.pool, none⟩) := by
  have hrun := h.run (solo_process ..) rfl workingHost_effect hmeets (congrArg Prod.fst heval)
  have hv : (rest.eval (workingHost job.message?) ⟨b, ⟨l, p.sessions⟩, p.pool⟩).2 = v :=
    congrArg Prod.snd heval
  subst hv
  exact hrun.solo

/-- Process 0 before it takes the delivery of the message, its connections and its pool. -/
def sampleProcess : Process :=
  { worker := Worker.connectedWorker
    sessions := Function.update (fun _ => .lost false) 0 (.up none)
    pool := [1] }

def sampleDelivery : Delivery :=
  { tag := 1, message := sampleQueued }

/-- The broker when it has sent the message to process 0. -/
def sampleBroker : Broker :=
  { ready := []
    channels := Function.update (fun _ => {}) 0
      { opened := true, inbox := [sampleDelivery], used := [1] } }

theorem sample_reachable :
    Reachable JudgeEngine.sampleParse
      (solo sampleBroker { initial := sampleDb, commits := [] } sampleProcess) := by
  let l : Ledger := { initial := sampleDb, commits := [] }
  let b : Broker := { ready := [sampleQueued], channels := fun _ => {} }
  let p : Process := { worker := {}, sessions := fun _ => .lost false, pool := [1] }
  let p₂ : Process := { sampleProcess with worker := { db := Worker.connectedWorker.db } }
  let b₂ : Broker := b.set 0 { opened := true }
  have hpublished : Reachable JudgeEngine.sampleParse
      { start sampleDb with published := [sampleQueued], broker := b } :=
    Reachable.start.step (.publish .publish)
  have hpool : ([1] : List Int).Sublist (BoxPool.candidates {} 1) := by decide
  have hspawned : Reachable JudgeEngine.sampleParse (solo b l p) :=
    hpublished.step (.spawn rfl hpool)
  have hconnected : Reachable JudgeEngine.sampleParse (solo b l p₂) := by
    have hconnecting := (hspawned.step (.connectDb (solo_process ..) rfl rfl)).solo
    let sessions := Function.update (Function.update p.sessions 0 (.lost false)) 0 (.up none)
    have hsessions : sessions = p₂.sessions := Function.update_idem ..
    have heval : (Job.connect.program JudgeEngine.sampleParse {}).eval (workingHost none)
        ⟨b, ⟨l, p.sessions⟩, [1]⟩ = (.ok p₂.worker, ⟨b, ⟨l, sessions⟩, [1]⟩) := rfl
    rw [hsessions] at heval
    exact hconnecting.finishes rfl heval
  have hopened : Reachable JudgeEngine.sampleParse (solo b₂ l sampleProcess) :=
    (hconnected.step (.connectMq (solo_process ..) rfl rfl rfl (.openChannel rfl))).solo
  have hsent : b₂.Step (.deliver 0 1 sampleQueued) sampleBroker := by
    have hstep : b₂.Step (.deliver 0 1 sampleQueued) _ :=
      .deliver (by simp [b₂]) List.mem_cons_self (by simp [b₂])
    simpa [b₂, b, sampleBroker, sampleDelivery, Queue.Broker.set] using hstep
  exact hopened.step (.deliver hsent)

/-- The message has been judged, stored and acknowledged, and the broker holds nothing. -/
theorem sample_judged : ∃ s, Reachable JudgeEngine.sampleParse s ∧
    s.published = [sampleQueued] ∧ ¬ s.broker.Held sampleQueued ∧
    (s.ledger.initial.verdictOf 7).map (·.status) = some "PENDING" ∧
    (s.ledger.tables.verdictOf 7).map (·.status) = some "ACCEPTED" := by
  let l : Ledger := { initial := sampleDb, commits := [] }
  let b : Broker :=
    sampleBroker.set 0 { opened := true, unsettled := [sampleDelivery], used := [1] }
  let v : View := ⟨b, ⟨l, sampleProcess.sessions⟩, [1]⟩
  let program := sampleProcess.worker.handle 1 JudgeEngine.sampleMessage
  let final := program.eval (workingHost (some sampleQueued)) v
  have hfinal : program.eval (workingHost (some sampleQueued)) v = final := rfl
  have hmeets : program.meets hasBox (workingHost (some sampleQueued)) v = true := by
    decide +kernel
  have hconsumed := (sample_reachable.step (.consume (solo_process ..) rfl rfl (.take rfl))).solo
  have hprogram : (Job.message sampleDelivery).program JudgeEngine.sampleParse
      sampleProcess.worker = program := by
    simp only [Job.program, sampleDelivery, sampleQueued, Worker.onMessage_sample, program]
  rw [hprogram] at hconsumed
  have hreturns : final.1 = .ok Worker.connectedWorker := by
    decide +kernel
  have hready : final.2.broker.ready = [] := by
    decide +kernel
  have hchannel : (final.2.broker.channels 0).outstanding = [] := by
    decide +kernel
  have hothers : OthersIdle final.2 := by
    refine Prog.eval_keeps workingHost_othersIdle program fun pid hpid => ?_
    change ((sampleBroker.set 0 _).channels pid).outstanding = []
    rw [Queue.Broker.set_ne _ _ hpid]
    simp [sampleBroker, hpid, Queue.Channel.outstanding]
  have hpending : (final.2.server.data.initial.verdictOf 7).map (·.status) = some "PENDING" := by
    decide +kernel
  have haccepted : (final.2.server.data.tables.verdictOf 7).map (·.status) = some "ACCEPTED" := by
    decide +kernel
  clear_value final
  obtain ⟨out, v⟩ := final
  obtain rfl : out = .ok Worker.connectedWorker := hreturns
  refine ⟨_, hconsumed.finishes hmeets hfinal, rfl, ?_, hpending, haccepted⟩
  rintro (hin | ⟨pid, d, hd, -⟩)
  · rw [show (solo v.broker _ _).broker.ready = [] from hready] at hin
    cases hin
  · change d ∈ (v.broker.channels pid).outstanding at hd
    by_cases hpid : pid = 0
    · rw [hpid, hchannel] at hd
      cases hd
    · rw [hothers pid hpid] at hd
      cases hd

/-- A message that was judged and acknowledged is stored. -/
theorem no_message_lost_acked : ∃ s, Reachable JudgeEngine.sampleParse s ∧
    sampleQueued ∈ s.published ∧ s.ledger.Stored sampleQueued JudgeEngine.sampleMessage := by
  obtain ⟨s, h, hpublished, hnotHeld, -⟩ := sample_judged
  have hmem : sampleQueued ∈ s.published := by
    rw [hpublished]
    exact List.mem_singleton_self _
  refine ⟨s, h, hmem, ?_⟩
  rcases no_message_lost h hmem sampleQueued_parses with hin | hunacked | hstored
  · exact absurd (.inl hin) hnotHeld
  · exact absurd (.inr hunacked) hnotHeld
  · exact hstored

end Deployment
