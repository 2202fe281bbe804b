-- SUMMARY: The MySQL server as a world: connections, faults, other clients, and what a result transaction does to the store.
import Mathlib.Logic.Function.Basic
import Mathlib.Order.Defs.Unbundled
import FlowStudyJudge.Db.Behaviour
import FlowStudyJudge.Storage.Transaction

/-! # The database server

`Server.world` answers the database operations of one client process. Its store is
whatever `apply` works on: the tables, or the log of committed transactions. Other
clients may change the store, as `env` allows, between any two operations. -/

/-- What a query asks of the server when it arrives there at time `now`. -/
def Query.request (now : Nat) : Query → Tx.Request (Nat × Stmt)
  | .startTransaction => .start
  | .commit => .commit
  | .rollback => .rollback
  | .stmt s => .stmt (now, s)

structure Server (D : Type) where
  data : D
  sessions : Handle → Tx.Session (Nat × Stmt)

namespace Server

variable {D : Type}

/-- The state after an answer over `conn`: the new store, and the connection itself. -/
def reply (s : Server D) (conn : Handle) (d : D) (c : Tx.Session (Nat × Stmt)) : Server D :=
  { data := d, sessions := Function.update s.sessions conn c }

@[simp] theorem reply_same (s : Server D) (conn : Handle) (d : D)
    (c : Tx.Session (Nat × Stmt)) : (s.reply conn d c).sessions conn = c := by
  simp [reply]

theorem reply_ne (s : Server D) {conn i : Handle} (d : D) (c : Tx.Session (Nat × Stmt))
    (h : i ≠ conn) : (s.reply conn d c).sessions i = s.sessions i := by
  simp [reply, h]

variable (apply : List (Nat × Stmt) → D → D) (answerLost : Bool) (env : D → D → Prop)

/-- The answers to a database operation. Nothing comes of a query through a null handle. -/
inductive Serves : Server D → Event Op.Res → Server D → Prop where
  | initialised {s : Server D} {conn : Handle} :
      Serves s ⟨.mysqlInit, some conn⟩ (s.reply conn s.data (.lost false))
  | outOfMemory {s : Server D} : Serves s ⟨.mysqlInit, none⟩ s
  | connected {s : Server D} {conn : Handle} :
      Serves s ⟨.mysqlRealConnect conn, true⟩ (s.reply conn s.data (.up none))
  | refused {s : Server D} {conn : Handle} :
      Serves s ⟨.mysqlRealConnect conn, false⟩ (s.reply conn s.data (.lost false))
  | alive {s : Server D} {conn : Handle} {tx : Option (List (Nat × Stmt))}
      (h : s.sessions conn = .up tx) : Serves s ⟨.mysqlPing conn, true⟩ s
  | reconnected {s : Server D} {conn : Handle} (h : s.sessions conn = .lost false) :
      Serves s ⟨.mysqlPing conn, true⟩ (s.reply conn s.data (.up none))
  | dead {s : Server D} {conn : Handle} :
      Serves s ⟨.mysqlPing conn, false⟩ (s.reply conn s.data (.lost false))
  | answered {s : Server D} {conn : Handle} {q : Query} {b : Bool} {now : Nat} {d : D}
      {c : Tx.Session (Nat × Stmt)}
      (h : Tx.Answered apply answerLost s.data (s.sessions conn) (q.request now) b d c) :
      Serves s ⟨.mysqlQuery (some conn) q, b⟩ (s.reply conn d c)
  | noHandle {s : Server D} {q : Query} : Serves s ⟨.mysqlQuery none q, false⟩ s
  | other {s : Server D} {e : Event Op.Res} (h : e.op.isDatabase = false) : Serves s e s

/-- Between two operations: other clients are active, and connections get lost. -/
structure Idles (s s' : Server D) : Prop where
  data : env s.data s'.data
  sessions : ∀ conn, Tx.Session.Drops (s.sessions conn) (s'.sessions conn)

def world : World Op.Res (Server D) := fun s e s' =>
  ∃ s₁ : Server D, Idles env s s₁ ∧ Serves apply answerLost s₁ e s'

/-- No connection but `conn` is inside a transaction. -/
def OthersIdle (conn : Handle) (s : Server D) : Prop :=
  ∀ i, i ≠ conn → (s.sessions i).Idle

/-- No connection is inside a transaction. -/
def Idle (s : Server D) : Prop :=
  ∀ conn, (s.sessions conn).Idle

/-- A transaction of the statements `stmts` is committed on the way from `d` to `d'`. -/
def Commits (stmts : List Stmt) (d d' : D) : Prop :=
  ∃ (ss : List (Nat × Stmt)) (d₁ : D), ss.map (·.2) = stmts ∧ env d d₁ ∧ env (apply ss d₁) d'

variable {apply answerLost env} {s s₁ s' : Server D} {conn : Handle} {d : D}
  {c : Tx.Session (Nat × Stmt)} {ss : List (Nat × Stmt)}

/-! ## One operation -/

theorem OthersIdle.idles (h : s.OthersIdle conn) (hidles : Idles env s s₁) :
    s₁.OthersIdle conn :=
  fun i hi => (h i hi).drops (hidles.sessions i)

theorem OthersIdle.reply (h : s.OthersIdle conn) : (s.reply conn d c).OthersIdle conn := by
  intro i hi
  rw [reply_ne s d c hi]
  exact h i hi

theorem OthersIdle.idle (h : s.OthersIdle conn) (hconn : (s.sessions conn).Idle) : s.Idle := by
  intro i
  by_cases hi : i = conn
  · rw [hi]
    exact hconn
  · exact h i hi

theorem OthersIdle.reply_idle (h : s.OthersIdle conn) (hc : c.Idle) :
    (s.reply conn d c).Idle := by
  refine h.reply.idle ?_
  rw [reply_same]
  exact hc

theorem Idle.othersIdle (h : s.Idle) : s.OthersIdle conn :=
  fun i _ => h i

theorem Idle.idles (h : s.Idle) (hidles : Idles env s s₁) : s₁.Idle :=
  fun conn => (h conn).drops (hidles.sessions conn)

/-- An operation other than a query leaves the store to the other clients, and opens
    no transaction. -/
theorem world_quiet {e : Event Op.Res} (h : world apply answerLost env s e s')
    (he : ∀ conn q, e.op ≠ .mysqlQuery conn q) (hidle : s.Idle) :
    env s.data s'.data ∧ s'.Idle := by
  obtain ⟨s₁, hidles, hserves⟩ := h
  have henv := hidles.data
  have hidle₁ := hidle.idles hidles
  cases hserves with
  | initialised | refused | dead => exact ⟨henv, hidle₁.othersIdle.reply_idle .lost⟩
  | connected | reconnected => exact ⟨henv, hidle₁.othersIdle.reply_idle .up⟩
  | outOfMemory | alive | other => exact ⟨henv, hidle₁⟩
  | answered | noHandle => exact absurd rfl (he _ _)

/-- Whatever is no operation of the database may leave it alone. -/
theorem world_other [Std.Refl env] {e : Event Op.Res} (h : e.op.isDatabase = false) :
    world apply answerLost env s e s :=
  ⟨s, ⟨refl s.data, fun _ => .stays⟩, .other h⟩

/-- The store changes by transactions only. -/
theorem Serves.data {e : Event Op.Res} (h : Serves apply answerLost s e s') :
    s'.data = s.data ∨ ∃ ss, s'.data = apply ss s.data := by
  cases h with
  | answered hanswered => exact hanswered.data
  | _ => exact .inl rfl

/-- A query: the state in which the server took it, and its answer. -/
theorem world_query {q : Query} {b : Bool}
    (h : world apply answerLost env s ⟨.mysqlQuery (some conn) q, b⟩ s') :
    ∃ (s₁ : Server D) (now : Nat) (d : D) (c : Tx.Session (Nat × Stmt)), Idles env s s₁ ∧
      Tx.Answered apply answerLost s₁.data (s₁.sessions conn) (q.request now) b d c ∧
      s' = s₁.reply conn d c := by
  obtain ⟨s₁, hidles, hserves⟩ := h
  cases hserves with
  | answered hanswered => exact ⟨s₁, _, _, _, hidles, hanswered, rfl⟩
  | other hop => cases hop

theorem world_query_null {q : Query} {b : Bool}
    (h : world apply answerLost env s ⟨.mysqlQuery none q, b⟩ s') :
    b = false ∧ Idles env s s' := by
  obtain ⟨s₁, hidles, hserves⟩ := h
  cases hserves with
  | noHandle => exact ⟨rfl, hidles⟩
  | other hop => cases hop

/-- The same for a connection that may be inside a transaction. -/
theorem world_query_open {q : Query} {b : Bool}
    (h : world apply answerLost env s ⟨.mysqlQuery (some conn) q, b⟩ s')
    (hothers : s.OthersIdle conn) (hopen : (s.sessions conn).Open ss) :
    ∃ (d₁ d : D) (now : Nat) (c₁ c : Tx.Session (Nat × Stmt)), env s.data d₁ ∧ c₁.Open ss ∧
      Tx.Answered apply answerLost d₁ c₁ (q.request now) b d c ∧
      s'.data = d ∧ s'.sessions conn = c ∧ s'.OthersIdle conn := by
  obtain ⟨s₁, now, d, c, hidles, hanswered, rfl⟩ := world_query h
  exact ⟨s₁.data, d, now, s₁.sessions conn, c, hidles.data, hopen.drops (hidles.sessions conn),
    hanswered, rfl, reply_same .., (hothers.idles hidles).reply⟩

/-- A `ROLLBACK` ends the transaction, whatever its answer. -/
theorem rollback_step {b : Bool}
    (h : world apply answerLost env s ⟨.mysqlQuery (some conn) .rollback, b⟩ s')
    (hothers : s.OthersIdle conn) (hconn : (s.sessions conn).Open ss ∨ (s.sessions conn).Idle) :
    env s.data s'.data ∧ s'.Idle := by
  obtain ⟨s₁, now, d, c, hidles, hanswered, rfl⟩ := world_query h
  have hconn₁ : (s₁.sessions conn).Open ss ∨ (s₁.sessions conn).Idle :=
    hconn.imp (·.drops (hidles.sessions conn)) (·.drops (hidles.sessions conn))
  obtain ⟨rfl, hc⟩ := hanswered.rollback hconn₁
  exact ⟨hidles.data, (hothers.idles hidles).reply_idle hc⟩

/-! ## Traces -/

variable [IsPreorder D env]

theorem Idles.trans {s₂ : Server D} (h : Idles env s s₁) (h' : Idles env s₁ s₂) :
    Idles env s s₂ where
  data := trans_of env h.data h'.data
  sessions conn := (h.sessions conn).trans (h'.sessions conn)

theorem path_quiet {tr : Trace Op.Res} (h : (world apply answerLost env).Path s tr s')
    (htr : ∀ e ∈ tr, ∀ conn q, e.op ≠ .mysqlQuery conn q) (hidle : s.Idle) :
    env s.data s'.data ∧ s'.Idle := by
  induction h with
  | nil => exact ⟨refl _, hidle⟩
  | cons hstep _ ih =>
    obtain ⟨henv, hidle₁⟩ := world_quiet hstep (htr _ (List.mem_cons_self ..)) hidle
    obtain ⟨henv', hidle₂⟩ := ih (fun e he => htr e (List.mem_cons_of_mem _ he)) hidle₁
    exact ⟨trans_of env henv henv', hidle₂⟩

/-- How a transaction of the statements `stmts` ends that reports `b`. -/
def Ends (apply : List (Nat × Stmt) → D → D) (answerLost : Bool) (env : D → D → Prop)
    (stmts : List Stmt) (d d' : D) : Bool → Prop
  | true => Commits apply env stmts d d'
  | false => env d d' ∨ answerLost = true ∧ Commits apply env stmts d d'

theorem Ends.after {stmts : List Stmt} {d d₁ d' : D} {b : Bool} (henv : env d d₁)
    (h : Ends apply answerLost env stmts d₁ d' b) : Ends apply answerLost env stmts d d' b := by
  have hcommits : Commits apply env stmts d₁ d' → Commits apply env stmts d d' := by
    intro ⟨ss, d₂, hstmts, henv', hrest⟩
    exact ⟨ss, d₂, hstmts, trans_of env henv henv', hrest⟩
  cases b with
  | true => exact hcommits h
  | false => exact h.imp (trans_of env henv) fun ⟨hlost, h⟩ => ⟨hlost, hcommits h⟩

theorem Ends.before {stmts : List Stmt} {d d₁ d' : D} {b : Bool} (henv : env d₁ d')
    (h : Ends apply answerLost env stmts d d₁ b) : Ends apply answerLost env stmts d d' b := by
  have hcommits : Commits apply env stmts d d₁ → Commits apply env stmts d d' := by
    intro ⟨ss, d₂, hstmts, hrest, henv'⟩
    exact ⟨ss, d₂, hstmts, hrest, trans_of env henv' henv⟩
  cases b with
  | true => exact hcommits h
  | false => exact h.imp (trans_of env · henv) fun ⟨hlost, h⟩ => ⟨hlost, hcommits h⟩

/-- The statements behind `START TRANSACTION`, with `ss` sent so far. The induction is
    on the statements still to be sent. -/
theorem sent_path {stmts : List Stmt} {tr : Trace Op.Res} {b : Bool}
    (hsent : MySQLClient.Sent conn stmts tr b)
    (h : (world apply answerLost env).Path s tr s') (hothers : s.OthersIdle conn)
    (hopen : (s.sessions conn).Open ss) :
    s'.Idle ∧ Ends apply answerLost env (ss.map (·.2) ++ stmts) s.data s'.data b := by
  induction hsent generalizing s ss with
  | committed =>
    obtain ⟨s₁, hcommit, hnil⟩ := World.path_cons.mp h
    obtain rfl := World.path_nil.mp hnil
    obtain ⟨d₁, d, now, c₁, c, henv, hc₁, hanswered, hdata, hconn, hothers'⟩ :=
      world_query_open hcommit hothers hopen
    obtain ⟨rfl, hc⟩ := hanswered.commit hc₁
    refine ⟨hothers'.idle (hconn ▸ hc), ss, d₁, by simp, henv, ?_⟩
    rw [hdata]
    exact refl _
  | commitFailed =>
    obtain ⟨s₁, hcommit, h₁⟩ := World.path_cons.mp h
    obtain ⟨s₂, hrollback, hnil⟩ := World.path_cons.mp h₁
    obtain rfl := World.path_nil.mp hnil
    obtain ⟨d₁, d, now, c₁, c, henv, hc₁, hanswered, rfl, rfl, hothers'⟩ :=
      world_query_open hcommit hothers hopen
    obtain ⟨hd, hc⟩ := hanswered.commit_failed hc₁
    obtain ⟨henv', hidle⟩ := rollback_step hrollback hothers' hc
    refine ⟨hidle, ?_⟩
    rcases hd with hd | ⟨hlost, hd⟩
    · rw [hd] at henv'
      exact .inl (trans_of env henv henv')
    · rw [hd] at henv'
      exact .inr ⟨hlost, ss, d₁, by simp, henv, henv'⟩
  | stmtFailed =>
    obtain ⟨s₁, hstmt, h₁⟩ := World.path_cons.mp h
    obtain ⟨s₂, hrollback, hnil⟩ := World.path_cons.mp h₁
    obtain rfl := World.path_nil.mp hnil
    obtain ⟨d₁, d, now, c₁, c, henv, hc₁, hanswered, rfl, rfl, hothers'⟩ :=
      world_query_open hstmt hothers hopen
    obtain ⟨hd, hc⟩ := hanswered.stmt_failed hc₁
    obtain ⟨henv', hidle⟩ := rollback_step hrollback hothers' hc
    rw [hd] at henv'
    exact ⟨hidle, .inl (trans_of env henv henv')⟩
  | @stmt stmt rest tr b hrest ih =>
    obtain ⟨s₁, hstmt, h₁⟩ := World.path_cons.mp h
    obtain ⟨d₁, d, now, c₁, c, henv, hc₁, hanswered, rfl, rfl, hothers'⟩ :=
      world_query_open hstmt hothers hopen
    obtain ⟨hd, hc⟩ := hanswered.stmt hc₁
    obtain ⟨hidle, hends⟩ := ih h₁ hothers' hc
    have hstmts : (ss ++ [(now, stmt)]).map (·.2) ++ rest = ss.map (·.2) ++ stmt :: rest := by
      simp
    rw [hd, hstmts] at hends
    exact ⟨hidle, hends.after henv⟩

/-- A result transaction, from an idle client to an idle client. -/
theorem transacted_path {client : MySQLClient} {stmts : List Stmt} {tr : Trace Op.Res}
    {b : Bool} (htx : client.Transacted stmts tr (.ok b))
    (h : (world apply answerLost env).Path s tr s') (hidle : s.Idle) :
    s'.Idle ∧ Ends apply answerLost env stmts s.data s'.data b := by
  cases htx with
  | notConnected hconnected =>
    obtain rfl := World.path_nil.mp h
    exact ⟨hidle, .inl (refl _)⟩
  | notStarted hconnected hconn =>
    obtain ⟨s₁, hstart, hnil⟩ := World.path_cons.mp h
    obtain rfl := World.path_nil.mp hnil
    obtain ⟨s₂, now, d, c, hidles, hanswered, rfl⟩ := world_query hstart
    have hidle₂ := hidle.idles hidles
    obtain ⟨rfl, hc⟩ := hanswered.start_failed (hidle₂ _)
    exact ⟨hidle₂.othersIdle.reply_idle hc, .inl hidles.data⟩
  | started hconnected hconn hsent =>
    obtain ⟨s₁, hstart, h₁⟩ := World.path_cons.mp h
    obtain ⟨s₂, now, d, c, hidles, hanswered, rfl⟩ := world_query hstart
    have hidle₂ := hidle.idles hidles
    obtain ⟨rfl, hc⟩ := hanswered.start (hidle₂ _)
    obtain ⟨hidle', hends⟩ := sent_path hsent h₁ hidle₂.othersIdle.reply
      (by rw [reply_same]; exact hc)
    exact ⟨hidle', hends.after hidles.data⟩

omit [IsPreorder D env] in
/-- A result transaction that ends the process has not reached the server. -/
theorem crashed_path {client : MySQLClient} {stmts : List Stmt} {tr : Trace Op.Res} {x : Abort}
    (htx : client.Transacted stmts tr (.error x)) (h : (world apply answerLost env).Path s tr s')
    (hidle : s.Idle) : s'.Idle ∧ env s.data s'.data := by
  cases htx with
  | noHandle hconnected hconn =>
    obtain ⟨s₁, hstart, hnil⟩ := World.path_cons.mp h
    obtain rfl := World.path_nil.mp hnil
    obtain ⟨-, hidles⟩ := world_query_null hstart
    exact ⟨hidle.idles hidles, hidles.data⟩

/-! ## A server that works -/

/-- A server on which nothing fails, for a client on the host `Host.fixed files`. -/
def reliable (apply : List (Nat × Stmt) → D → D) (files : Bytes → Option Bytes) :
    Handler Op.Res (Server D) := fun op s =>
  match op with
  | .mysqlInit => (some 0, s.reply 0 s.data (.lost false))
  | .mysqlRealConnect conn => (true, s.reply conn s.data (.up none))
  | .mysqlPing conn =>
    match s.sessions conn with
    | .up _ => (true, s)
    | .lost _ => (false, s.reply conn s.data (.lost false))
  | .mysqlQuery none _ => (false, s)
  | .mysqlQuery (some conn) q =>
    match s.sessions conn with
    | .up tx =>
      let r := (q.request 0).serve apply s.data tx
      (true, s.reply conn r.1 (.up r.2))
    | .lost _ => (false, s.reply conn s.data (.lost false))
  | op => ((Host.fixed files op ()).1, s)

omit [IsPreorder D env] in
theorem reliable_world {files : Bytes → Option Bytes} [Std.Refl env] (op : Op) (s : Server D) :
    world apply answerLost env s ⟨op, (reliable apply files op s).1⟩
      (reliable apply files op s).2 := by
  refine ⟨s, ⟨refl _, fun conn => .stays⟩, ?_⟩
  cases op with
  | mysqlInit => exact .initialised
  | mysqlRealConnect conn => exact .connected
  | mysqlPing conn =>
    simp only [reliable]
    cases hconn : s.sessions conn with
    | up tx => exact .alive hconn
    | lost inTx => exact .dead
  | mysqlQuery handle q =>
    cases handle with
    | none => exact .noHandle
    | some conn =>
      simp only [reliable]
      cases hconn : s.sessions conn with
      | up tx =>
        have hserved : Tx.Answered apply answerLost s.data (s.sessions conn) (q.request 0) true
            ((q.request 0).serve apply s.data tx).1
            (.up ((q.request 0).serve apply s.data tx).2) := by
          rw [hconn]
          exact .served rfl
        exact .answered hserved
      | lost inTx =>
        have hdropped : Tx.Answered apply answerLost s.data (s.sessions conn) (q.request 0) false
            s.data (.lost false) := by
          rw [hconn]
          exact .dropped
        exact .answered hdropped
  | acquire | release | ofstream | ifstream | mkdir | system | basicAck | basicNack =>
    exact .other rfl

end Server

/-! ## Tables with a log -/

/-- The tables together with the log of the committed transactions. -/
structure Store where
  db : Db
  log : List (List Stmt)

/-- The effect of a transaction. -/
def Store.commit (ss : List (Nat × Stmt)) (st : Store) : Store :=
  { db := st.db.execAll ss, log := st.log ++ [ss.map (·.2)] }
