-- SUMMARY: Every transaction that the deployment commits is the whole result of judging a published message.
import FlowStudyJudge.Worker.Lossless

/-! # Whole results

`Lossless` shows that a settled message has its transaction in the ledger. Here is the other
direction: what the ledger holds comes from somewhere. -/

/-! ## The same answers elsewhere

Neither the server nor a connection looks at what the store is. So the operations of a
client tell, in any other store, which transactions are its own. -/

namespace Tx

variable {D D' S : Type} {apply : List S → D → D} {apply' : List S → D' → D'}

/-- A request that commits a transaction here commits it there. -/
inductive Alike (apply : List S → D → D) (apply' : List S → D' → D') (d : D) (e : D') :
    D → D' → Prop where
  | nothing : Alike apply apply' d e d e
  | commit (ss : List S) : Alike apply apply' d e (apply ss d) (apply' ss e)

theorem Request.serve_elsewhere {q : Request S} {d d' : D} {tx tx' : Option (List S)}
    (h : q.serve apply d tx = (d', tx')) (e : D') :
    ∃ e', q.serve apply' e tx = (e', tx') ∧ Alike apply apply' d e d' e' := by
  cases q with
  | start | commit =>
    cases tx with
    | none =>
      cases h
      exact ⟨_, rfl, .nothing⟩
    | some ss =>
      cases h
      exact ⟨_, rfl, .commit ss⟩
  | rollback =>
    cases h
    exact ⟨_, rfl, .nothing⟩
  | stmt s =>
    cases tx with
    | none =>
      cases h
      exact ⟨_, rfl, .commit [s]⟩
    | some ss =>
      cases h
      exact ⟨_, rfl, .nothing⟩

theorem Answered.elsewhere {answerLost b : Bool} {q : Request S} {d d' : D} {c c' : Session S}
    (h : Answered apply answerLost d c q b d' c') (e : D') :
    ∃ e', Answered apply' answerLost e c q b e' c' ∧ Alike apply apply' d e d' e' := by
  cases h with
  | served hserve =>
    obtain ⟨e', hserve', halike⟩ := Request.serve_elsewhere hserve e
    exact ⟨e', .served hserve', halike⟩
  | reconnected hserve =>
    obtain ⟨e', hserve', halike⟩ := Request.serve_elsewhere hserve e
    exact ⟨e', .reconnected hserve', halike⟩
  | failed hq => exact ⟨e, .failed hq, .nothing⟩
  | dropped => exact ⟨e, .dropped, .nothing⟩
  | unanswered hlost hserve =>
    obtain ⟨e', hserve', halike⟩ := Request.serve_elsewhere hserve e
    exact ⟨e', .unanswered hlost hserve', halike⟩

end Tx

namespace Server

variable {D D' : Type} {apply : List (Nat × Stmt) → D → D} {answerLost : Bool}
  {s s' : Server D} {e : Event Op.Res}

theorem Serves.elsewhere (h : Serves apply answerLost s e s')
    (apply' : List (Nat × Stmt) → D' → D') (d : D') :
    ∃ d', Serves apply' answerLost ⟨d, s.sessions⟩ e ⟨d', s'.sessions⟩ ∧
      Tx.Alike apply apply' s.data d s'.data d' := by
  cases h with
  | initialised => exact ⟨d, .initialised, .nothing⟩
  | outOfMemory => exact ⟨d, .outOfMemory, .nothing⟩
  | connected => exact ⟨d, .connected, .nothing⟩
  | refused => exact ⟨d, .refused, .nothing⟩
  | alive hup => exact ⟨d, .alive hup, .nothing⟩
  | reconnected hlost => exact ⟨d, .reconnected hlost, .nothing⟩
  | dead => exact ⟨d, .dead, .nothing⟩
  | answered hanswered =>
    obtain ⟨d', hanswered', halike⟩ := hanswered.elsewhere d
    exact ⟨d', .answered hanswered', halike⟩
  | noHandle => exact ⟨d, .noHandle, .nothing⟩
  | other hop => exact ⟨d, .other hop, .nothing⟩

/-- Where no other client writes. -/
theorem world_elsewhere (h : world apply answerLost Eq s e s')
    (apply' : List (Nat × Stmt) → D' → D') (d : D') :
    ∃ d', world apply' answerLost Eq ⟨d, s.sessions⟩ e ⟨d', s'.sessions⟩ ∧
      Tx.Alike apply apply' s.data d s'.data d' := by
  obtain ⟨s₁, hidles, hserves⟩ := h
  obtain ⟨d', hserves', halike⟩ := hserves.elsewhere apply' d
  rw [← hidles.data] at halike
  exact ⟨d', ⟨⟨d, s₁.sessions⟩, ⟨rfl, hidles.sessions⟩, hserves'⟩, halike⟩

/-- The transactions of one client, one after the other. -/
def record (ss : List (Nat × Stmt)) (own : List (List (Nat × Stmt))) : List (List (Nat × Stmt)) :=
  own ++ [ss]

theorem record_grows {s s' : Server (List (List (Nat × Stmt)))} {tr : Trace Op.Res}
    (h : (world record answerLost Eq).Path s tr s') : s.data <+: s'.data := by
  induction h with
  | nil => exact List.prefix_rfl
  | cons hstep _ ih =>
    obtain ⟨s₁, hidles, hserves⟩ := hstep
    refine List.IsPrefix.trans ?_ ih
    rw [hidles.data]
    rcases hserves.data with heq | ⟨ss, heq⟩
    · exact ⟨[], (List.append_nil _).trans heq.symm⟩
    · exact ⟨[ss], heq.symm⟩

end Server

namespace Deployment

variable {parse : Bytes → Option Json}

/-! ## The transactions of an activity -/

/-- The transaction is the result of judging the message: all of it. -/
def Whole (parse : Bytes → Option Json) (m : Message) (ss : List (Nat × Stmt)) : Prop :=
  ∃ submission cfg tr result, JudgeEngine.parseMessage parse m.body = some submission ∧
    (JudgeEngine.judge cfg submission).Runs tr (.ok result) ∧
    ss.map (·.2) = Worker.resultStmts submission (Worker.dbResult submission result)

/-- The activity of a process that has committed the transactions `own` since it began. -/
def Busy (parse : Bytes → Option Json) (p : Process) (a : Activity)
    (own : List (List (Nat × Stmt))) : Prop :=
  ∃ s₀ tr, s₀.Idle ∧ s₀.data = [] ∧ (a.job.program parse p.worker).Reaches tr a.rest ∧
    (Server.world Server.record true Eq).Path s₀ tr { data := own, sessions := p.sessions }

theorem Busy.begin {p : Process} (job : Job) (h : ∀ conn, (p.sessions conn).Idle) :
    Busy parse p ⟨job, job.program parse p.worker⟩ [] :=
  ⟨⟨[], p.sessions⟩, [], h, rfl, .here, .nil⟩

/-- One more operation, seen from the ledger and from the process. -/
theorem Busy.operation {l : Ledger} {p : Process} {job : Job} {op : Op}
    {k : op.Res → Comp Worker} {r : op.Res} {s' : Server Ledger}
    {own : List (List (Nat × Stmt))} (h : Busy parse p ⟨job, .exec op k⟩ own) (p' : Process)
    (hserver : Server.world (Ledger.commit job.message?) true Eq ⟨l, p.sessions⟩ ⟨op, r⟩ s')
    (hworker : p'.worker = p.worker) (hsessions : p'.sessions = s'.sessions) :
    ∃ own', Busy parse p' ⟨job, k r⟩ own' ∧
      Tx.Alike (Ledger.commit job.message?) Server.record l own s'.data own' := by
  obtain ⟨s₀, tr, hidle, hdata, hreaches, hpath⟩ := h
  obtain ⟨own', hworld, halike⟩ := Server.world_elsewhere hserver Server.record own
  refine ⟨own', ⟨s₀, tr ++ [⟨op, r⟩], hidle, hdata, ?_, ?_⟩, halike⟩
  · rw [hworker]
    exact hreaches.snoc r
  · rw [hsessions]
    exact World.path_append.mpr ⟨_, hpath, .cons hworld .nil⟩

/-- What an activity has committed: nothing, or once the result of its message. -/
inductive Committed (parse : Bytes → Option Json) (job : Job) : List (List (Nat × Stmt)) → Prop where
  | nothing : Committed parse job []
  | once {d : Delivery} {ss : List (Nat × Stmt)} (hd : job = .message d)
      (hwhole : Whole parse d.message ss) : Committed parse job [ss]

theorem ends_record {stmts : List Stmt} {own : List (List (Nat × Stmt))} {b : Bool}
    (h : Server.Ends Server.record true Eq stmts [] own b) :
    own = [] ∨ ∃ ss, own = [ss] ∧ ss.map (·.2) = stmts := by
  have hcommits : Server.Commits Server.record Eq stmts [] own →
      ∃ ss, own = [ss] ∧ ss.map (·.2) = stmts := by
    rintro ⟨ss, d, hstmts, rfl, rfl⟩
    exact ⟨ss, rfl, hstmts⟩
  cases b with
  | true => exact .inr (hcommits h)
  | false =>
    rcases h with rfl | ⟨-, h⟩
    · exact .inl rfl
    · exact .inr (hcommits h)

/-- What a program has committed when it is through with it. -/
theorem program_commits {w : Worker} {job : Job} {tr : Trace Op.Res}
    {out : Except Abort Worker} {s s' : Server (List (List (Nat × Stmt)))}
    (hmq : ∀ d, job = .message d → w.mq.connected = true)
    (hruns : (job.program parse w).Runs tr out)
    (hpath : (Server.world Server.record true Eq).Path s tr s') (hidle : s.Idle)
    (hdata : s.data = []) : Committed parse job s'.data := by
  have hquiet : (∀ e ∈ tr, ∀ conn q, e.op ≠ .mysqlQuery conn q) → Committed parse job s'.data := by
    intro htr
    rw [← (Server.path_quiet hpath htr hidle).1, hdata]
    exact .nothing
  cases job with
  | connect =>
    apply hquiet
    rcases Prog.runs_bind.mp hruns with ⟨res, tr₁, tr₂, h₁, h₂, rfl⟩ | ⟨x, h₁, -⟩
    · obtain ⟨rfl, -⟩ := Prog.runs_done.mp h₂
      obtain ⟨res, -, hconnected⟩ := MySQLClient.connect_runs h₁
      rw [List.append_nil]
      exact hconnected.noQuery
    · obtain ⟨res, hx, -⟩ := MySQLClient.connect_runs h₁
      cases hx
  | message d =>
    have hmq := hmq d rfl
    cases hparse : JudgeEngine.parseMessage parse d.message.body with
    | none =>
      obtain ⟨b, rfl, -⟩ := Worker.onMessage_rejected_runs hmq hparse hruns
      exact hquiet (by simp)
    | some submission =>
      cases Worker.onMessage_accepted_runs hmq hparse hruns with
      | thrown hjudge =>
        apply hquiet
        exact Worker.noQuery_of_noDatabase (JudgeEngine.judge_noDatabase hjudge)
      | crashed hjudge hping hupdate =>
        rw [← (Worker.crashed_path hjudge hping hupdate hpath hidle).2, hdata]
        exact .nothing
      | acked hjudge hping hupdate | nacked hjudge hping hupdate =>
        have hends := (Worker.delivery_path hjudge hping hupdate rfl hpath hidle).2
        rw [hdata] at hends
        rcases ends_record hends with hnone | ⟨ss, hss, hstmts⟩
        · rw [hnone]
          exact .nothing
        · rw [hss]
          exact .once rfl ⟨submission, _, _, _, hparse, hjudge, hstmts⟩

theorem Committed.sublist {job : Job} {own own' : List (List (Nat × Stmt))}
    (h : Committed parse job own') (hsub : own.Sublist own') : Committed parse job own := by
  cases h with
  | nothing =>
    rw [List.sublist_nil.mp hsub]
    exact .nothing
  | once hd hwhole =>
    rcases List.sublist_singleton.mp hsub with rfl | rfl
    · exact .nothing
    · exact .once hd hwhole

/-- A transaction that it has committed was the first. -/
theorem Committed.first {job : Job} {own : List (List (Nat × Stmt))} {ss : List (Nat × Stmt)}
    (h : Committed parse job (own ++ [ss])) :
    own = [] ∧ ∃ d, job = .message d ∧ Whole parse d.message ss := by
  generalize hall : own ++ [ss] = all at h
  cases h with
  | nothing => simp at hall
  | once hd hwhole =>
    obtain ⟨rfl, heq⟩ := List.append_inj' (hall.trans (List.nil_append _).symm) rfl
    cases heq
    exact ⟨rfl, _, hd, hwhole⟩

/-- At any moment of an activity. What is left of it is completed on a server that works. -/
theorem Busy.committed {p : Process} {a : Activity} {own : List (List (Nat × Stmt))}
    (h : Busy parse p a own) (hmq : ∀ d, a.job = .message d → p.worker.mq.connected = true) :
    Committed parse a.job own := by
  obtain ⟨s₀, tr, hidle, hdata, hreaches, hpath⟩ := h
  let s₁ : Server (List (List (Nat × Stmt))) := ⟨own, p.sessions⟩
  let handler := Server.reliable Server.record fun _ => none
  have hrest : (Server.world Server.record true Eq).Path s₁ (a.rest.trace handler s₁)
      (a.rest.eval handler s₁).2 := Prog.path_trace a.rest Server.reliable_world s₁
  have hruns := hreaches.runs (a.rest.runs_trace handler s₁)
  have hall := program_commits hmq hruns (World.path_append.mpr ⟨s₁, hpath, hrest⟩) hidle hdata
  exact hall.sublist (Server.record_grows hrest).sublist

/-! ## The ledger -/

/-- The transaction of a published message. -/
def Genuine (parse : Bytes → Option Json) (published : List Message) (c : Commit) : Prop :=
  ∃ m ∈ published, c.message = some m ∧ Whole parse m c.stmts

theorem Genuine.mono {published published' : List Message} {c : Commit}
    (h : Genuine parse published c) (hsub : ∀ m ∈ published, m ∈ published') :
    Genuine parse published' c := by
  obtain ⟨m, hm, hmessage, hwhole⟩ := h
  exact ⟨m, hsub m hm, hmessage, hwhole⟩

/-- What the broker holds and the processes handle has been published, and what the ledger
    holds is genuine. -/
structure Honest (parse : Bytes → Option Json) (s : Deployment) : Prop where
  held : ∀ m, s.broker.Held m → m ∈ s.published
  busy : ∀ pid p a, s.processes pid = some p → p.activity = some a →
    (∃ own, Busy parse p a own) ∧ ∀ d, a.job = .message d → d.message ∈ s.published
  genuine : ∀ c ∈ s.ledger.commits, Genuine parse s.published c

/-- A step of one process, or of the broker. -/
theorem Honest.update {s : Deployment} (h : Honest parse s) {published : List Message}
    {b : Broker} {l : Ledger} {pid : Nat} {p : Option Process}
    (hsub : ∀ m ∈ s.published, m ∈ published) (hheld : ∀ m, b.Held m → m ∈ published)
    (hgenuine : ∀ c ∈ l.commits, c ∈ s.ledger.commits ∨ Genuine parse published c)
    (hself : ∀ p' a, p = some p' → p'.activity = some a →
      (∃ own, Busy parse p' a own) ∧ ∀ d, a.job = .message d → d.message ∈ published) :
    Honest parse
      { published, broker := b, ledger := l,
        processes := Function.update s.processes pid p } where
  held := hheld
  busy pid' p' a hp' ha := by
    change Function.update s.processes pid p pid' = some p' at hp'
    by_cases hpid : pid' = pid
    · subst hpid
      rw [Function.update_self] at hp'
      exact hself p' a hp' ha
    · rw [Function.update_of_ne hpid] at hp'
      exact (h.busy pid' p' a hp' ha).imp_right fun hmessage d hd => hsub _ (hmessage d hd)
  genuine c hc := by
    rcases hgenuine c hc with hold | hnew
    · exact (h.genuine c hold).mono hsub
    · exact hnew

/-- A step of the broker alone that publishes nothing. -/
theorem Honest.broker {s : Deployment} (h : Honest parse s) {a : Queue.Action Nat UInt64 Message}
    {b : Broker} (hbroker : s.broker.Step a b) (hpublish : ∀ m, a ≠ .publish m) :
    Honest parse { s with broker := b } where
  held m hm := h.held m ((hbroker.held_before hm).resolve_right (hpublish m))
  busy := h.busy
  genuine := h.genuine

/-- An operation that commits a transaction commits the whole result of its message. -/
theorem Honest.operation {s : Deployment} (h : Honest parse s) (hinv : Inv parse s) {pid : Nat}
    {p : Process} {job : Job} {op : Op} {k : op.Res → Comp Worker} {r : op.Res} {v : View}
    (hp : s.processes pid = some p) (hactivity : p.activity = some ⟨job, .exec op k⟩)
    (heffect : View.Effect pid job.message? (s.view p) ⟨op, r⟩ v) :
    Honest parse (s.proceed pid p ⟨job, k r⟩ v) := by
  obtain ⟨⟨own, hbusy⟩, hmessage⟩ := h.busy pid p _ hp hactivity
  have hmq : ∀ d, job = .message d → p.worker.mq.connected = true :=
    fun d hd => ((hinv.sound pid p hp).handles _ d hactivity hd).1
  let p' : Process :=
    { p with sessions := v.server.sessions, pool := v.pool, activity := some ⟨job, k r⟩ }
  obtain ⟨own', hbusy', halike⟩ := hbusy.operation p' (effect_server heffect) rfl rfl
  refine h.update (fun _ hm => hm) (fun m hm => ?_) (fun c hc => ?_) ?_
  · rcases effect_broker heffect with heq | ⟨tag, -, hbroker⟩ | ⟨tag, -, hbroker⟩
    · rw [heq] at hm
      exact h.held m hm
    · exact h.held m ((hbroker.held_before hm).resolve_right nofun)
    · exact h.held m ((hbroker.held_before hm).resolve_right nofun)
  · change c ∈ v.server.data.commits at hc
    generalize v.server.data = l' at hc halike
    cases halike with
    | nothing => exact .inl hc
    | commit ss =>
      rcases List.mem_append.mp hc with hold | hnew
      · exact .inl hold
      · right
        obtain ⟨-, d, rfl, hwhole⟩ := (Busy.committed hbusy' hmq).first
        rw [List.mem_singleton.mp hnew]
        exact ⟨d.message, hmessage d rfl, rfl, hwhole⟩
  · rintro _ a ⟨⟩ ⟨⟩
    exact ⟨⟨own', hbusy'⟩, hmessage⟩

theorem Honest.step {s s' : Deployment} (h : Honest parse s) (hinv : Inv parse s)
    (hstep : Step parse s s') : Honest parse s' := by
  cases hstep with
  | @publish body broker hbroker =>
    refine ⟨fun m hm => ?_, fun pid p a hp ha => ?_, fun c hc => ?_⟩
    · rcases hbroker.held_before hm with hold | hnew
      · exact List.mem_append_left _ (h.held m hold)
      · cases hnew
        exact List.mem_append_right _ (List.mem_singleton_self _)
    · exact (h.busy pid p a hp ha).imp_right fun hmessage d hd =>
        List.mem_append_left _ (hmessage d hd)
    · exact (h.genuine c hc).mono fun m hm => List.mem_append_left _ hm
  | @spawn pid isolate hp =>
    refine h.update (fun _ hm => hm) h.held (fun _ hc => .inl hc) ?_
    rintro _ a ⟨⟩ ⟨⟩
  | @connectDb pid p hp hidle hmq =>
    refine h.update (fun _ hm => hm) h.held (fun _ hc => .inl hc) ?_
    rintro _ a ⟨⟩ ⟨⟩
    exact ⟨⟨[], Busy.begin .connect ((hinv.sound pid p hp).idle hidle)⟩, by simp⟩
  | @connectMq pid p broker hp hidle hdb hmq hbroker =>
    refine (h.broker hbroker (by simp)).update (fun _ hm => hm) (h.broker hbroker (by simp)).held
      (fun _ hc => .inl hc) ?_
    rintro _ a ⟨⟩ ha
    change p.activity = some a at ha
    rw [hidle] at ha
    cases ha
  | @deliver pid tag m broker hbroker => exact h.broker hbroker (by simp)
  | @consume pid p d broker hp hidle hmq hbroker =>
    refine (h.broker hbroker (by simp)).update (fun _ hm => hm) (h.broker hbroker (by simp)).held
      (fun _ hc => .inl hc) ?_
    rintro _ a ⟨⟩ ⟨⟩
    refine ⟨⟨[], Busy.begin (.message d) ((hinv.sound pid p hp).idle hidle)⟩, ?_⟩
    rintro d' ⟨⟩
    cases hbroker with
    | @take _ _ rest hinbox =>
      refine h.held d.message (.inr ⟨pid, d, ?_, rfl⟩)
      rw [Queue.Channel.outstanding, hinbox]
      exact List.mem_cons_self
  | @operation pid p job op k r v hp hactivity heffect =>
    exact h.operation hinv hp hactivity heffect
  | @finish pid p job w hp hactivity =>
    refine h.update (fun _ hm => hm) h.held (fun _ hc => .inl hc) ?_
    rintro _ a ⟨⟩ ⟨⟩
  | @disconnect pid broker hbroker => exact h.broker hbroker (by simp)
  | @crash pid broker hbroker =>
    refine (h.broker hbroker (by simp)).update (fun _ hm => hm) (h.broker hbroker (by simp)).held
      (fun _ hc => .inl hc) ?_
    rintro _ a ⟨⟩

theorem Reachable.honest {s : Deployment} (h : Reachable parse s) : Honest parse s := by
  induction h with
  | start =>
    refine ⟨?_, nofun, nofun⟩
    rintro m (hready | ⟨pid, d, hd, -⟩)
    · cases hready
    · cases hd
  | step hbefore hstep ih => exact ih.step hbefore.inv hstep

end Deployment
