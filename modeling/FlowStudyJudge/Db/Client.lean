-- SUMMARY: `MySQLClient`: connecting, and the two result transactions.
import FlowStudyJudge.Host

/-! # The MySQL client

`update_submission` and `update_code_run` are the same sequence of calls over
different statements: open a transaction, send the statements one by one, commit,
and roll back as soon as one of them fails. -/

structure JudgeCaseResult where
  testcaseId : UInt64 := 0
  caseIndex : Int := 0
  status : Bytes := []
  timeUsedMs : Int := 0
  memoryUsedKb : Int := 0
  inputText : Bytes := []
  actualOutput : Bytes := []
  expectedOutput : Bytes := []
  errorMessage : Bytes := []
  deriving DecidableEq

structure JudgeResult where
  runId : UInt64 := 0
  submissionId : UInt64 := 0
  problemId : UInt64 := 0
  status : Bytes := []
  timeUsedMs : Int := 0
  memoryUsedKb : Int := 0
  errorMessage : Bytes := []
  compilerOutput : Bytes := []
  failedTestcase : Int := -1
  caseResults : List JudgeCaseResult := []
  deriving DecidableEq

/-- `MySQLClient::Impl`, without the configuration. -/
structure MySQLClient where
  conn : Option Handle := none
  connected : Bool := false
  deriving DecidableEq

namespace JudgeResult

/-! ## Statements -/

/-- `nullable_sql`: an empty string is stored as `NULL`. -/
def nullableSql (value : Bytes) : Option Bytes :=
  if value = [] then none else some value

/-- `item.testcase_id == 0 ? "NULL" : …` -/
def nullableId (id : UInt64) : Option UInt64 :=
  if id = 0 then none else some id

def accepted (result : JudgeResult) : Bool :=
  result.status == "ACCEPTED"

def submissionVerdict (result : JudgeResult) : SubmissionVerdict :=
  { status := result.status
    score := if result.accepted then 100 else 0
    timeUsedMs := result.timeUsedMs
    memoryUsedKb := result.memoryUsedKb
    compileMessage := nullableSql result.compilerOutput
    runtimeMessage := nullableSql result.errorMessage }

def runVerdict (result : JudgeResult) : RunVerdict :=
  { status := result.status
    timeUsedMs := result.timeUsedMs
    memoryUsedKb := result.memoryUsedKb
    compileMessage := nullableSql result.compilerOutput
    runtimeMessage := nullableSql result.errorMessage }

/-- The row inserted for one case result. -/
def caseRow (owner : UInt64) (item : JudgeCaseResult) : CaseRow :=
  { owner
    testcaseId := nullableId item.testcaseId
    caseIndex := item.caseIndex
    status := item.status
    timeUsedMs := item.timeUsedMs
    memoryUsedKb := item.memoryUsedKb
    inputText := nullableSql item.inputText
    actualOutput := nullableSql item.actualOutput
    expectedOutput := nullableSql item.expectedOutput
    errorMessage := nullableSql item.errorMessage }

/-- `clear_cases`, then one `insert_case` per case result. -/
def caseStmts (result : JudgeResult) (table : CaseTable) (owner : UInt64) : List Stmt :=
  .clearCases table owner ::
    result.caseResults.map fun item => .insertCase table (caseRow owner item)

/-- `update_problem`, sent only for an accepted submission of a known problem. -/
def problemStmts (result : JudgeResult) : List Stmt :=
  if result.accepted ∧ result.problemId ≠ 0 then [.updateProblem result.problemId] else []

/-- The statements of `update_submission` between `START TRANSACTION` and `COMMIT`. -/
def submissionStmts (result : JudgeResult) : List Stmt :=
  .updateFsSubmission result.submissionVerdict result.submissionId ::
    (result.caseStmts .fsJudgeCaseResult result.submissionId ++ result.problemStmts)

/-- The statements of `update_code_run` between `START TRANSACTION` and `COMMIT`. -/
def codeRunStmts (result : JudgeResult) : List Stmt :=
  .updateFsCodeRun result.runVerdict result.runId ::
    result.caseStmts .fsCodeRunCaseResult result.runId

end JudgeResult

namespace MySQLClient

/-! ## Connecting -/

/-- `connect`. Only success writes `connected`; a failed attempt leaves the flag of
    the connection it replaces. -/
def connect (c : MySQLClient) : Comp (MySQLClient × Bool) := do
  match ← Host.mysqlInit with
  | none => return ({ c with conn := none }, false)
  | some conn =>
    if ← Host.mysqlRealConnect conn then
      return ({ conn := some conn, connected := true }, true)
    else
      return ({ c with conn := some conn }, false)

def ping (c : MySQLClient) : Comp (MySQLClient × Bool) :=
  match c.conn with
  | none => c.connect
  | some conn =>
    if !c.connected then c.connect
    else do
      if ← Host.mysqlPing conn then
        return (c, true)
      else
        c.connect

/-! ## The result transactions -/

/-- Send the remaining statements and commit. A statement that fails, `COMMIT`
    included, is answered by a `ROLLBACK` whose own failure is ignored. -/
def sendStmts (conn : Option Handle) : List Stmt → Comp Bool
  | [] => do
    if ← Host.mysqlQuery conn .commit then
      return true
    else do
      let _ ← Host.mysqlQuery conn .rollback
      return false
  | s :: rest => do
    if ← Host.mysqlQuery conn (.stmt s) then
      sendStmts conn rest
    else do
      let _ ← Host.mysqlQuery conn .rollback
      return false

def transaction (c : MySQLClient) (stmts : List Stmt) : Comp Bool := do
  if !c.connected then
    return false
  if ← Host.mysqlQuery c.conn .startTransaction then
    sendStmts c.conn stmts
  else
    return false

def updateSubmission (c : MySQLClient) (result : JudgeResult) : Comp Bool :=
  c.transaction result.submissionStmts

def updateCodeRun (c : MySQLClient) (result : JudgeResult) : Comp Bool :=
  c.transaction result.codeRunStmts

end MySQLClient
