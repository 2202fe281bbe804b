-- SUMMARY: The tables the judge writes, its SQL statements, and what each statement does to the tables.
import FlowStudyJudge.Text.Bytes

/-! # Tables and statements

Only the columns that a statement of `mysql_client.cpp` names are kept. The
tables `fs_submission`, `fs_code_run` and `fs_problem` are maps from their
primary key. A nullable column is an `Option`, with `none` for `NULL`. -/

/-- The two tables of case results: of submissions, and of code runs. -/
inductive CaseTable where
  | fsJudgeCaseResult
  | fsCodeRunCaseResult
  deriving DecidableEq, Repr

/-- A row of either table of case results. `owner` is its `submission_id`,
    respectively its `run_id`. -/
structure CaseRow where
  owner : UInt64
  testcaseId : Option UInt64
  caseIndex : Int
  status : Bytes
  timeUsedMs : Int
  memoryUsedKb : Int
  inputText : Option Bytes
  actualOutput : Option Bytes
  expectedOutput : Option Bytes
  errorMessage : Option Bytes
  deriving DecidableEq

/-- The columns of `fs_submission` that an update sets, `updated_at` apart. -/
structure SubmissionVerdict where
  status : Bytes
  score : Int
  timeUsedMs : Int
  memoryUsedKb : Int
  compileMessage : Option Bytes
  runtimeMessage : Option Bytes
  deriving DecidableEq

/-- The columns of `fs_code_run` that an update sets, `updated_at` apart. -/
structure RunVerdict where
  status : Bytes
  timeUsedMs : Int
  memoryUsedKb : Int
  compileMessage : Option Bytes
  runtimeMessage : Option Bytes
  deriving DecidableEq

/-- A row with the time of its last update. -/
structure Row (V : Type) where
  verdict : V
  updatedAt : Nat
  deriving DecidableEq

/-- The statements of the judge that change a table. -/
inductive Stmt where
  /-- `UPDATE fs_submission SET … , updated_at = NOW() WHERE id = …` -/
  | updateFsSubmission (verdict : SubmissionVerdict) (id : UInt64)
  /-- `UPDATE fs_code_run SET … , updated_at = NOW() WHERE id = …` -/
  | updateFsCodeRun (verdict : RunVerdict) (id : UInt64)
  /-- `DELETE FROM fs_judge_case_result WHERE submission_id = …`, respectively
      `DELETE FROM fs_code_run_case_result WHERE run_id = …` -/
  | clearCases (table : CaseTable) (owner : UInt64)
  /-- `INSERT INTO … VALUES …` -/
  | insertCase (table : CaseTable) (row : CaseRow)
  /-- `UPDATE fs_problem SET accepted_count = accepted_count + 1 WHERE id = …` -/
  | updateProblem (id : UInt64)
  deriving DecidableEq

/-- What one `mysql_query` call sends. -/
inductive Query where
  | startTransaction
  | commit
  | rollback
  | stmt (s : Stmt)
  deriving DecidableEq

structure Db where
  fsSubmission : UInt64 → Option (Row SubmissionVerdict)
  fsCodeRun : UInt64 → Option (Row RunVerdict)
  /-- `accepted_count` of each problem. -/
  fsProblem : UInt64 → Option Int
  caseResults : CaseTable → List CaseRow

/-! ## Execution -/

/-- `UPDATE` of the row with a primary key. It succeeds and changes nothing when
    there is no such row. -/
def updateRow {V : Type} (table : UInt64 → Option V) (id : UInt64) (f : V → V) :
    UInt64 → Option V :=
  fun i => if i = id then (table i).map f else table i

namespace Stmt

/-- The effect of a statement executed at time `now`. -/
def exec (now : Nat) : Stmt → Db → Db
  | .updateFsSubmission verdict id, db =>
    { db with fsSubmission := updateRow db.fsSubmission id fun _ => ⟨verdict, now⟩ }
  | .updateFsCodeRun verdict id, db =>
    { db with fsCodeRun := updateRow db.fsCodeRun id fun _ => ⟨verdict, now⟩ }
  | .clearCases table owner, db =>
    { db with caseResults := fun t =>
        if t = table then (db.caseResults t).filter (·.owner ≠ owner) else db.caseResults t }
  | .insertCase table row, db =>
    { db with caseResults := fun t =>
        if t = table then db.caseResults t ++ [row] else db.caseResults t }
  | .updateProblem id, db =>
    { db with fsProblem := updateRow db.fsProblem id (· + 1) }

end Stmt

/-- The effect of a list of statements, each with the time it was executed at. -/
def Db.execAll (db : Db) (stmts : List (Nat × Stmt)) : Db :=
  stmts.foldl (fun db s => s.2.exec s.1 db) db

namespace Db

@[simp] theorem execAll_nil (db : Db) : db.execAll [] = db := rfl

@[simp] theorem execAll_cons (db : Db) (s : Nat × Stmt) (stmts : List (Nat × Stmt)) :
    db.execAll (s :: stmts) = (s.2.exec s.1 db).execAll stmts := rfl

theorem execAll_append (db : Db) (ss ts : List (Nat × Stmt)) :
    db.execAll (ss ++ ts) = (db.execAll ss).execAll ts := by
  simp [execAll]

end Db

@[simp] theorem updateRow_same {V : Type} (table : UInt64 → Option V) (id : UInt64)
    (f : V → V) : updateRow table id f id = (table id).map f := by
  simp [updateRow]

theorem updateRow_ne {V : Type} (table : UInt64 → Option V) {id i : UInt64} (f : V → V)
    (h : i ≠ id) : updateRow table id f i = table i := by
  simp [updateRow, h]
