-- SUMMARY: Result transactions are all-or-nothing: what the tables hold after a call of the MySQL client, from any history of calls.
import FlowStudyJudge.Db.Server

/-! # All or nothing -/

namespace JudgeResult

/-- What a stored result adds to the `accepted_count` of a problem. -/
def gain (r : JudgeResult) (problem : UInt64) : Int :=
  if r.status = "ACCEPTED" ∧ r.problemId ≠ 0 ∧ r.problemId = problem then 1 else 0

end JudgeResult

namespace Db

/-! ## The effect of the statements -/

/-- The rows of one owner in a table of case results are replaced by `rows`. -/
def replaceCases (table : CaseTable) (owner : UInt64) (rows : List CaseRow)
    (caseResults : CaseTable → List CaseRow) : CaseTable → List CaseRow :=
  fun t => if t = table then (caseResults t).filter (·.owner ≠ owner) ++ rows else caseResults t

theorem execAll_insertCases {table : CaseTable} {rows : List CaseRow}
    {ss : List (Nat × Stmt)} (h : ss.map (·.2) = rows.map (.insertCase table)) (db : Db) :
    db.execAll ss =
      { db with caseResults := fun t =>
          if t = table then db.caseResults t ++ rows else db.caseResults t } := by
  induction rows generalizing ss db with
  | nil =>
    obtain rfl := List.map_eq_nil_iff.mp h
    simp
  | cons row rows ih =>
    obtain ⟨s, rest, rfl, hs, hrest⟩ := List.map_eq_cons_iff.mp h
    rw [execAll_cons, hs, ih hrest]
    simp only [Stmt.exec]
    congr 1
    funext t
    by_cases ht : t = table <;> simp [ht]

theorem execAll_caseStmts {r : JudgeResult} {table : CaseTable} {owner : UInt64}
    {ss : List (Nat × Stmt)} (h : ss.map (·.2) = r.caseStmts table owner) (db : Db) :
    db.execAll ss =
      { db with
        caseResults := replaceCases table owner
          (r.caseResults.map (JudgeResult.caseRow owner)) db.caseResults } := by
  obtain ⟨s, rest, rfl, hs, hrest⟩ := List.map_eq_cons_iff.mp h
  have hrows : rest.map (·.2) =
      (r.caseResults.map (JudgeResult.caseRow owner)).map (.insertCase table) := by
    rw [hrest, List.map_map]
    rfl
  rw [execAll_cons, hs, execAll_insertCases hrows]
  simp only [Stmt.exec]
  congr 1
  funext t
  by_cases ht : t = table <;> simp [ht, replaceCases]

theorem execAll_problemStmts {r : JudgeResult} {ss : List (Nat × Stmt)}
    (h : ss.map (·.2) = r.problemStmts) (db : Db) :
    db.execAll ss =
      { db with fsProblem := fun p => (db.fsProblem p).map (· + r.gain p) } := by
  unfold JudgeResult.problemStmts at h
  split at h
  · rename_i hcounted
    have haccepted : r.status = "ACCEPTED" := by
      simpa [JudgeResult.accepted] using hcounted.1
    obtain ⟨s, rest, rfl, hs, hrest⟩ := List.map_eq_cons_iff.mp h
    obtain rfl := List.map_eq_nil_iff.mp hrest
    rw [execAll_cons, hs, execAll_nil]
    simp only [Stmt.exec]
    congr 1
    funext p
    by_cases hp : r.problemId = p
    · subst hp
      simp [JudgeResult.gain, haccepted, hcounted.2]
    · rw [updateRow_ne _ _ fun h => hp h.symm]
      simp [JudgeResult.gain, hp]
  · rename_i hcounted
    obtain rfl := List.map_eq_nil_iff.mp h
    have hgain : ∀ p, r.gain p = 0 := by
      intro p
      unfold JudgeResult.gain
      rw [if_neg]
      rintro ⟨haccepted, hproblem, -⟩
      exact hcounted ⟨by simp [JudgeResult.accepted, haccepted], hproblem⟩
    simp [hgain]

/-- The transaction of `update_submission`, executed as a whole. -/
theorem execAll_submissionStmts {r : JudgeResult} {ss : List (Nat × Stmt)}
    (h : ss.map (·.2) = r.submissionStmts) (db : Db) :
    ∃ now, db.execAll ss =
      { fsSubmission :=
          updateRow db.fsSubmission r.submissionId fun _ => ⟨r.submissionVerdict, now⟩
        fsCodeRun := db.fsCodeRun
        fsProblem := fun p => (db.fsProblem p).map (· + r.gain p)
        caseResults := replaceCases .fsJudgeCaseResult r.submissionId
          (r.caseResults.map (JudgeResult.caseRow r.submissionId)) db.caseResults } := by
  obtain ⟨s, rest, rfl, hs, hrest⟩ := List.map_eq_cons_iff.mp h
  obtain ⟨cs, ps, rfl, hcs, hps⟩ := List.map_eq_append_iff.mp hrest
  refine ⟨s.1, ?_⟩
  rw [execAll_cons, execAll_append, hs, execAll_caseStmts hcs, execAll_problemStmts hps]
  rfl

/-- The transaction of `update_code_run`, executed as a whole. -/
theorem execAll_codeRunStmts {r : JudgeResult} {ss : List (Nat × Stmt)}
    (h : ss.map (·.2) = r.codeRunStmts) (db : Db) :
    ∃ now, db.execAll ss =
      { db with
        fsCodeRun := updateRow db.fsCodeRun r.runId fun _ => ⟨r.runVerdict, now⟩
        caseResults := replaceCases .fsCodeRunCaseResult r.runId
          (r.caseResults.map (JudgeResult.caseRow r.runId)) db.caseResults } := by
  obtain ⟨s, rest, rfl, hs, hrest⟩ := List.map_eq_cons_iff.mp h
  refine ⟨s.1, ?_⟩
  rw [execAll_cons, hs, execAll_caseStmts hrest]
  rfl

end Db

/-! ## What a call leaves behind -/

/-- An empty text and an id of `0` are stored as `NULL`. -/
def nullIf {α : Type} [DecidableEq α] (empty value : α) : Option α :=
  if value = empty then none else some value

/-- The columns of `fs_submission` for a result, spelled out. -/
theorem JudgeResult.submissionVerdict_eq (r : JudgeResult) : r.submissionVerdict =
    { status := r.status
      score := if r.status = "ACCEPTED" then 100 else 0
      timeUsedMs := r.timeUsedMs
      memoryUsedKb := r.memoryUsedKb
      compileMessage := nullIf [] r.compilerOutput
      runtimeMessage := nullIf [] r.errorMessage } := by
  simp [JudgeResult.submissionVerdict, JudgeResult.accepted, JudgeResult.nullableSql, nullIf]

/-- The case rows of `owner` are exactly the given case results; the other rows are untouched. -/
structure CasesStored (table : CaseTable) (owner : UInt64) (items : List JudgeCaseResult)
    (db db' : Db) : Prop where
  rows : (db'.caseResults table).filter (·.owner = owner) = items.map fun item =>
    { owner
      testcaseId := nullIf 0 item.testcaseId
      caseIndex := item.caseIndex
      status := item.status
      timeUsedMs := item.timeUsedMs
      memoryUsedKb := item.memoryUsedKb
      inputText := nullIf [] item.inputText
      actualOutput := nullIf [] item.actualOutput
      expectedOutput := nullIf [] item.expectedOutput
      errorMessage := nullIf [] item.errorMessage }
  otherRows : (db'.caseResults table).filter (·.owner ≠ owner) =
    (db.caseResults table).filter (·.owner ≠ owner)
  otherTable : ∀ t, t ≠ table → db'.caseResults t = db.caseResults t

/-- A row with primary key `id` holds `verdict` if there is one; the other rows of the
    table are untouched. -/
structure RowStored {V : Type} (id : UInt64) (verdict : V)
    (table table' : UInt64 → Option (Row V)) : Prop where
  row : (table' id).map (·.verdict) = (table id).map fun _ => verdict
  otherRows : ∀ i, i ≠ id → table' i = table i

structure SubmissionStored (r : JudgeResult) (db db' : Db) : Prop where
  row : RowStored r.submissionId
    { status := r.status
      score := if r.status = "ACCEPTED" then 100 else 0
      timeUsedMs := r.timeUsedMs
      memoryUsedKb := r.memoryUsedKb
      compileMessage := nullIf [] r.compilerOutput
      runtimeMessage := nullIf [] r.errorMessage }
    db.fsSubmission db'.fsSubmission
  cases : CasesStored .fsJudgeCaseResult r.submissionId r.caseResults db db'
  /-- `accepted_count` has grown by one for an accepted submission of a known problem. -/
  problem : ∀ p, db'.fsProblem p =
    if r.status = "ACCEPTED" ∧ r.problemId ≠ 0 ∧ p = r.problemId then
      (db.fsProblem p).map (· + 1)
    else db.fsProblem p
  codeRuns : db'.fsCodeRun = db.fsCodeRun

structure CodeRunStored (r : JudgeResult) (db db' : Db) : Prop where
  row : RowStored r.runId
    { status := r.status
      timeUsedMs := r.timeUsedMs
      memoryUsedKb := r.memoryUsedKb
      compileMessage := nullIf [] r.compilerOutput
      runtimeMessage := nullIf [] r.errorMessage }
    db.fsCodeRun db'.fsCodeRun
  cases : CasesStored .fsCodeRunCaseResult r.runId r.caseResults db db'
  problems : db'.fsProblem = db.fsProblem
  submissions : db'.fsSubmission = db.fsSubmission

/-- Whether the row is there decides whether it has what the verdict has. -/
theorem RowStored.exists_iff {V : Type} {id : UInt64} {verdict : V}
    {table table' : UInt64 → Option (Row V)} (h : RowStored id verdict table table')
    {P : V → Prop} (hP : P verdict) :
    (∃ row, table' id = some row ∧ P row.verdict) ↔ (table id).isSome = true := by
  have hrow := h.row
  refine ⟨fun ⟨row, hsome, _⟩ => ?_, fun hsome => ?_⟩
  · rw [hsome] at hrow
    cases hold : table id with
    | none =>
      rw [hold] at hrow
      cases hrow
    | some old => rfl
  · obtain ⟨old, hold⟩ := Option.isSome_iff_exists.mp hsome
    rw [hold] at hrow
    obtain ⟨row, hnew, hverdict⟩ := Option.map_eq_some_iff.mp hrow
    refine ⟨row, hnew, ?_⟩
    rw [hverdict]
    exact hP

theorem RowStored.updateRow {V : Type} {table : UInt64 → Option (Row V)} {id : UInt64}
    {verdict : V} {now : Nat} :
    RowStored id verdict table (updateRow table id fun _ => ⟨verdict, now⟩) where
  row := by
    rw [updateRow_same, Option.map_map]
    rfl
  otherRows i hi := updateRow_ne table _ hi

theorem CasesStored.replaceCases {table : CaseTable} {owner : UInt64}
    {items : List JudgeCaseResult} {db db' : Db}
    (h : db'.caseResults = Db.replaceCases table owner (items.map (JudgeResult.caseRow owner))
      db.caseResults) : CasesStored table owner items db db' where
  rows := by
    rw [h]
    simp only [Db.replaceCases, if_true, List.filter_append, List.filter_filter]
    have hnone : (db.caseResults table).filter
        (fun row => decide (row.owner = owner) && decide (row.owner ≠ owner)) = [] := by
      simp
    rw [hnone, List.nil_append, List.filter_eq_self.mpr]
    · rfl
    · intro row hrow
      obtain ⟨item, -, rfl⟩ := List.mem_map.mp hrow
      simp [JudgeResult.caseRow]
  otherRows := by
    rw [h]
    simp only [Db.replaceCases, if_true, List.filter_append, List.filter_filter, Bool.and_self]
    refine List.append_right_eq_self.mpr (List.filter_eq_nil_iff.mpr ?_)
    intro row hrow
    obtain ⟨item, -, rfl⟩ := List.mem_map.mp hrow
    simp [JudgeResult.caseRow]
  otherTable t ht := by
    rw [h]
    simp [Db.replaceCases, ht]

theorem execAll_submissionStored {r : JudgeResult} {ss : List (Nat × Stmt)}
    (h : ss.map (·.2) = r.submissionStmts) (db : Db) :
    SubmissionStored r db (db.execAll ss) := by
  obtain ⟨now, heq⟩ := Db.execAll_submissionStmts h db
  rw [heq]
  refine ⟨?_, .replaceCases rfl, ?_, rfl⟩
  · rw [← JudgeResult.submissionVerdict_eq]
    exact .updateRow
  · intro p
    simp only [JudgeResult.gain, eq_comm]
    split
    · rfl
    · simp

theorem execAll_codeRunStored {r : JudgeResult} {ss : List (Nat × Stmt)}
    (h : ss.map (·.2) = r.codeRunStmts) (db : Db) : CodeRunStored r db (db.execAll ss) := by
  obtain ⟨now, heq⟩ := Db.execAll_codeRunStmts h db
  rw [heq]
  exact ⟨.updateRow, .replaceCases rfl, rfl, rfl⟩

/-! ## Histories of calls -/

/-- The methods of `MySQLClient`. -/
inductive DbCall where
  | connect
  | ping
  | updateSubmission (r : JudgeResult)
  | updateCodeRun (r : JudgeResult)

namespace DbCall

/-- A call: the client afterwards, and the answer. -/
def run (c : MySQLClient) : DbCall → Comp (MySQLClient × Bool)
  | .connect => c.connect
  | .ping => c.ping
  | .updateSubmission r => return (c, ← c.updateSubmission r)
  | .updateCodeRun r => return (c, ← c.updateCodeRun r)

end DbCall

/-- A server whose store is the committed tables, and whose only client is this one. -/
abbrev Db.world : World Op.Res (Server Db) :=
  Server.world (fun ss db => db.execAll ss) false Eq

/-- The states that a client that starts out unconnected reaches by calls. -/
inductive DbReached : MySQLClient → Server Db → Prop where
  | start {s : Server Db} (h : ∀ conn, s.sessions conn = .lost false) : DbReached {} s
  | call {c c' : MySQLClient} {s s' : Server Db} {call : DbCall} {tr : Trace Op.Res} {b : Bool}
      (h : DbReached c s) (hruns : (call.run c).Runs tr (.ok (c', b)))
      (hpath : Db.world.Path s tr s') : DbReached c' s'

/-- What a call that answers `b` does to the tables. -/
def DbCall.Effect (db db' : Db) : DbCall → Bool → Prop
  | .updateSubmission r, true => SubmissionStored r db db'
  | .updateCodeRun r, true => CodeRunStored r db db'
  | .connect, _ | .ping, _ => db' = db
  | .updateSubmission _, false | .updateCodeRun _, false => db' = db

namespace DbCall

variable {c c' : MySQLClient} {s s' : Server Db} {tr : Trace Op.Res} {b : Bool}

theorem transaction_runs {stmts : List Stmt}
    (h : (do return (c, ← c.transaction stmts) : Comp (MySQLClient × Bool)).Runs tr
      (.ok (c', b))) : c.Transacted stmts tr (.ok b) := by
  rcases Prog.runs_bind.mp h with ⟨b', tr₁, tr₂, h₁, h₂, rfl⟩ | ⟨x, -, hx⟩
  · obtain ⟨rfl, hout⟩ := Prog.runs_done.mp h₂
    cases hout
    rw [List.append_nil]
    exact MySQLClient.transaction_runs h₁
  · cases hx

/-- One call, from a server on which no transaction is open to such a server. -/
theorem idle_effect {call : DbCall} (hruns : (call.run c).Runs tr (.ok (c', b)))
    (hpath : Db.world.Path s tr s') (hidle : s.Idle) :
    s'.Idle ∧ call.Effect s.data s'.data b := by
  cases call with
  | connect =>
    obtain ⟨res, -, hconnected⟩ := MySQLClient.connect_runs hruns
    obtain ⟨hdata, hidle'⟩ := Server.path_quiet hpath hconnected.noQuery hidle
    exact ⟨hidle', hdata.symm⟩
  | ping =>
    obtain ⟨res, -, hpinged⟩ := MySQLClient.ping_runs hruns
    obtain ⟨hdata, hidle'⟩ := Server.path_quiet hpath hpinged.noQuery hidle
    exact ⟨hidle', hdata.symm⟩
  | updateSubmission r =>
    obtain ⟨hidle', hends⟩ := Server.transacted_path (transaction_runs hruns) hpath hidle
    refine ⟨hidle', ?_⟩
    cases b with
    | true =>
      obtain ⟨ss, d, hss, rfl, hdata⟩ := hends
      unfold Effect
      rw [← hdata]
      exact execAll_submissionStored hss s.data
    | false => exact hends.elim Eq.symm fun hlost => by cases hlost.1
  | updateCodeRun r =>
    obtain ⟨hidle', hends⟩ := Server.transacted_path (transaction_runs hruns) hpath hidle
    refine ⟨hidle', ?_⟩
    cases b with
    | true =>
      obtain ⟨ss, d, hss, rfl, hdata⟩ := hends
      unfold Effect
      rw [← hdata]
      exact execAll_codeRunStored hss s.data
    | false => exact hends.elim Eq.symm fun hlost => by cases hlost.1

end DbCall

/-- No transaction is open between two calls. -/
theorem DbReached.idle {c : MySQLClient} {s : Server Db} (h : DbReached c s) : s.Idle := by
  induction h with
  | start h =>
    intro conn
    rw [h conn]
    exact .lost
  | call _ hruns hpath ih => exact (DbCall.idle_effect hruns hpath ih).1

/-- A call that succeeds has stored the whole result and nothing else; a call that
    fails has stored nothing, whatever became of the calls before it. -/
theorem dbCall_all_or_nothing {c c' : MySQLClient} {s s' : Server Db} {call : DbCall}
    {tr : Trace Op.Res} {b : Bool} (h : DbReached c s)
    (hruns : (call.run c).Runs tr (.ok (c', b))) (hpath : Db.world.Path s tr s') :
    call.Effect s.data s'.data b :=
  (DbCall.idle_effect hruns hpath h.idle).2

/-- Tables with one submission, an old case row of it, and one problem. -/
def sampleDb : Db :=
  { fsSubmission := fun i =>
      if i = 7 then some ⟨{ status := "PENDING", score := 0, timeUsedMs := 0, memoryUsedKb := 0,
                            compileMessage := none, runtimeMessage := none }, 0⟩
      else none
    fsCodeRun := fun _ => none
    fsProblem := fun i => if i = 3 then some 0 else none
    caseResults := fun _ => [JudgeResult.caseRow 7 { caseIndex := 5 }] }

/-- An accepted result of that submission. -/
def sampleResult : JudgeResult :=
  { submissionId := 7
    problemId := 3
    status := "ACCEPTED"
    timeUsedMs := 20
    caseResults := [{ caseIndex := 1, status := "ACCEPTED", timeUsedMs := 20 }] }

/-- A database server on which nothing fails. -/
def reliableDb : Handler Op.Res (Server Db) :=
  Server.reliable (fun ss db => db.execAll ss) fun _ => none

/-- A client right behind `connect`, and the server then. -/
def sampleClient : MySQLClient := { conn := some 0, connected := true }

def sampleServer : Server Db :=
  ((DbCall.run {} .connect).eval reliableDb ⟨sampleDb, fun _ => .lost false⟩).2

theorem sampleServer_reached : DbReached sampleClient sampleServer := by
  have heval : ((DbCall.run {} .connect).eval reliableDb
      ⟨sampleDb, fun _ => .lost false⟩).1 = .ok (sampleClient, true) := by
    rfl
  have hruns := Prog.runs_trace (DbCall.run {} .connect) reliableDb
    ⟨sampleDb, fun _ => .lost false⟩
  rw [heval] at hruns
  exact .call (.start fun _ => rfl) hruns (Prog.path_trace _ Server.reliable_world _)

theorem dbCall_all_or_nothing_accepted :
    let e := ((DbCall.updateSubmission sampleResult).run sampleClient).eval reliableDb sampleServer
    e.1 = .ok (sampleClient, true) ∧ SubmissionStored sampleResult sampleServer.data e.2.data := by
  intro e
  have heval : e.1 = .ok (sampleClient, true) := by
    decide +kernel
  have hruns := Prog.runs_trace ((DbCall.updateSubmission sampleResult).run sampleClient)
    reliableDb sampleServer
  rw [heval] at hruns
  exact ⟨heval, dbCall_all_or_nothing sampleServer_reached hruns
    (Prog.path_trace _ Server.reliable_world _)⟩
