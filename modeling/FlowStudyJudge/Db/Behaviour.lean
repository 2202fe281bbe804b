-- SUMMARY: The possible runs of the MySQL client, one inversion lemma for each method.
import FlowStudyJudge.Db.Client

/-! # Runs of the MySQL client

None of the methods throws. Only a result transaction may end the process, on a null handle. -/

namespace MySQLClient

variable {c : MySQLClient} {tr : Trace Op.Res}

/-- The ways `connect` can go. -/
inductive Connected (c : MySQLClient) : Trace Op.Res → MySQLClient × Bool → Prop where
  | noHandle : Connected c [⟨.mysqlInit, none⟩] ({ c with conn := none }, false)
  | refused {conn : Handle} :
      Connected c [⟨.mysqlInit, some conn⟩, ⟨.mysqlRealConnect conn, false⟩]
        ({ c with conn := some conn }, false)
  | connected {conn : Handle} :
      Connected c [⟨.mysqlInit, some conn⟩, ⟨.mysqlRealConnect conn, true⟩]
        ({ conn := some conn, connected := true }, true)

theorem connect_runs {out : Except Abort (MySQLClient × Bool)}
    (h : c.connect.Runs tr out) : ∃ res, out = .ok res ∧ c.Connected tr res := by
  unfold connect Host.mysqlInit at h
  obtain ⟨handle, tr₁, rfl, h₁⟩ := Prog.runs_perform_bind.mp h
  cases handle with
  | none =>
    obtain ⟨rfl, rfl⟩ := Prog.runs_done.mp h₁
    exact ⟨_, rfl, .noHandle⟩
  | some conn =>
    unfold Host.mysqlRealConnect at h₁
    obtain ⟨b, tr₂, rfl, h₂⟩ := Prog.runs_perform_bind.mp h₁
    cases b with
    | false =>
      obtain ⟨rfl, rfl⟩ := Prog.runs_done.mp h₂
      exact ⟨_, rfl, .refused⟩
    | true =>
      obtain ⟨rfl, rfl⟩ := Prog.runs_done.mp h₂
      exact ⟨_, rfl, .connected⟩

/-- The ways `ping` can go. -/
inductive Pinged (c : MySQLClient) : Trace Op.Res → MySQLClient × Bool → Prop where
  | alive {conn : Handle} (hconn : c.conn = some conn) (hconnected : c.connected = true) :
      Pinged c [⟨.mysqlPing conn, true⟩] (c, true)
  | lost {conn : Handle} {tr : Trace Op.Res} {res : MySQLClient × Bool}
      (hconn : c.conn = some conn) (hconnected : c.connected = true)
      (hconnect : c.Connected tr res) :
      Pinged c (⟨.mysqlPing conn, false⟩ :: tr) res
  | notConnected {tr : Trace Op.Res} {res : MySQLClient × Bool}
      (hconnect : c.Connected tr res) : Pinged c tr res

theorem ping_runs {out : Except Abort (MySQLClient × Bool)}
    (h : c.ping.Runs tr out) : ∃ res, out = .ok res ∧ c.Pinged tr res := by
  unfold ping at h
  split at h
  · obtain ⟨res, hout, hc⟩ := connect_runs h
    exact ⟨res, hout, .notConnected hc⟩
  · rename_i conn hconn
    split at h
    · obtain ⟨res, hout, hc⟩ := connect_runs h
      exact ⟨res, hout, .notConnected hc⟩
    · rename_i hconnected
      have hconnected : c.connected = true := by simpa using hconnected
      unfold Host.mysqlPing at h
      obtain ⟨b, tr₁, rfl, h₁⟩ := Prog.runs_perform_bind.mp h
      cases b with
      | false =>
        obtain ⟨res, hout, hc⟩ := connect_runs h₁
        exact ⟨res, hout, .lost hconn hconnected hc⟩
      | true =>
        obtain ⟨rfl, rfl⟩ := Prog.runs_done.mp h₁
        exact ⟨_, rfl, .alive hconn hconnected⟩

/-- The ways the statements behind `START TRANSACTION` can go. -/
inductive Sent (conn : Handle) : List Stmt → Trace Op.Res → Bool → Prop where
  | committed : Sent conn [] [⟨.mysqlQuery (some conn) .commit, true⟩] true
  | commitFailed {b : Bool} :
      Sent conn []
        [⟨.mysqlQuery (some conn) .commit, false⟩, ⟨.mysqlQuery (some conn) .rollback, b⟩] false
  | stmtFailed {s : Stmt} {rest : List Stmt} {b : Bool} :
      Sent conn (s :: rest)
        [⟨.mysqlQuery (some conn) (.stmt s), false⟩, ⟨.mysqlQuery (some conn) .rollback, b⟩] false
  | stmt {s : Stmt} {rest : List Stmt} {tr : Trace Op.Res} {b : Bool}
      (hrest : Sent conn rest tr b) :
      Sent conn (s :: rest) (⟨.mysqlQuery (some conn) (.stmt s), true⟩ :: tr) b

theorem sendStmts_runs {conn : Handle} {stmts : List Stmt} {out : Except Abort Bool}
    (h : (sendStmts (some conn) stmts).Runs tr out) :
    ∃ b, out = .ok b ∧ Sent conn stmts tr b := by
  induction stmts generalizing tr with
  | nil =>
    unfold sendStmts Host.mysqlQuery at h
    obtain ⟨b, tr₁, rfl, h₁⟩ := Prog.runs_perform_bind.mp h
    cases b with
    | true =>
      obtain ⟨rfl, rfl⟩ := Prog.runs_done.mp h₁
      exact ⟨_, rfl, .committed⟩
    | false =>
      obtain ⟨b, tr₂, rfl, h₂⟩ := Prog.runs_perform_bind.mp h₁
      obtain ⟨rfl, rfl⟩ := Prog.runs_done.mp h₂
      exact ⟨_, rfl, .commitFailed⟩
  | cons s rest ih =>
    unfold sendStmts Host.mysqlQuery at h
    obtain ⟨b, tr₁, rfl, h₁⟩ := Prog.runs_perform_bind.mp h
    cases b with
    | true =>
      obtain ⟨b, hout, hrest⟩ := ih h₁
      exact ⟨b, hout, .stmt hrest⟩
    | false =>
      obtain ⟨b, tr₂, rfl, h₂⟩ := Prog.runs_perform_bind.mp h₁
      obtain ⟨rfl, rfl⟩ := Prog.runs_done.mp h₂
      exact ⟨_, rfl, .stmtFailed⟩

/-- The ways a result transaction can go. -/
inductive Transacted (c : MySQLClient) (stmts : List Stmt) :
    Trace Op.Res → Except Abort Bool → Prop where
  | notConnected (h : c.connected = false) : Transacted c stmts [] (.ok false)
  | noHandle {b : Bool} (h : c.connected = true) (hconn : c.conn = none) :
      Transacted c stmts [⟨.mysqlQuery none .startTransaction, b⟩] (.error .segfault)
  | notStarted {conn : Handle} (h : c.connected = true) (hconn : c.conn = some conn) :
      Transacted c stmts [⟨.mysqlQuery (some conn) .startTransaction, false⟩] (.ok false)
  | started {conn : Handle} {tr : Trace Op.Res} {b : Bool} (h : c.connected = true)
      (hconn : c.conn = some conn) (hsent : Sent conn stmts tr b) :
      Transacted c stmts (⟨.mysqlQuery (some conn) .startTransaction, true⟩ :: tr) (.ok b)

theorem transaction_runs {stmts : List Stmt} {out : Except Abort Bool}
    (h : (c.transaction stmts).Runs tr out) : c.Transacted stmts tr out := by
  unfold transaction at h
  split at h
  · rename_i hconnected
    obtain ⟨rfl, rfl⟩ := Prog.runs_done.mp h
    exact .notConnected (by simpa using hconnected)
  · rename_i hconnected
    have hconnected : c.connected = true := by simpa using hconnected
    cases hconn : c.conn with
    | none =>
      rw [hconn] at h
      obtain ⟨b, tr₁, rfl, h₁⟩ := Prog.runs_exec.mp h
      obtain ⟨rfl, rfl⟩ := Prog.runs_raise.mp h₁
      exact .noHandle hconnected hconn
    | some conn =>
      rw [hconn] at h
      unfold Host.mysqlQuery at h
      obtain ⟨b, tr₁, rfl, h₁⟩ := Prog.runs_perform_bind.mp h
      cases b with
      | true =>
        obtain ⟨b, rfl, hsent⟩ := sendStmts_runs h₁
        exact .started hconnected hconn hsent
      | false =>
        obtain ⟨rfl, rfl⟩ := Prog.runs_done.mp h₁
        exact .notStarted hconnected hconn

/-! ## Operations -/

theorem Connected.only {res : MySQLClient × Bool} (h : c.Connected tr res) :
    Trace.Only Op.isDatabase tr := by
  cases h <;> simp [Op.isDatabase]

theorem Pinged.only {res : MySQLClient × Bool} (h : c.Pinged tr res) :
    Trace.Only Op.isDatabase tr := by
  cases h with
  | alive hconn hconnected => simp [Op.isDatabase]
  | lost hconn hconnected hconnect => simp [Op.isDatabase, hconnect.only]
  | notConnected hconnect => exact hconnect.only

theorem Sent.only {conn : Handle} {stmts : List Stmt} {b : Bool}
    (h : Sent conn stmts tr b) : Trace.Only Op.isDatabase tr := by
  induction h with
  | committed => simp [Op.isDatabase]
  | commitFailed => simp [Op.isDatabase]
  | stmtFailed => simp [Op.isDatabase]
  | stmt hrest ih => simp [Op.isDatabase, ih]

theorem Transacted.only {stmts : List Stmt} {out : Except Abort Bool}
    (h : c.Transacted stmts tr out) : Trace.Only Op.isDatabase tr := by
  cases h with
  | notConnected h => simp
  | noHandle | notStarted => simp [Op.isDatabase]
  | started h hconn hsent => simp [Op.isDatabase, hsent.only]

/-- Connecting sends no query. -/
theorem Connected.noQuery {res : MySQLClient × Bool} (h : c.Connected tr res) :
    ∀ e ∈ tr, ∀ conn q, e.op ≠ .mysqlQuery conn q := by
  cases h <;> simp

theorem Pinged.noQuery {res : MySQLClient × Bool} (h : c.Pinged tr res) :
    ∀ e ∈ tr, ∀ conn q, e.op ≠ .mysqlQuery conn q := by
  cases h with
  | alive hconn hconnected => simp
  | lost hconn hconnected hconnect => simpa using hconnect.noQuery
  | notConnected hconnect => exact hconnect.noQuery

end MySQLClient
