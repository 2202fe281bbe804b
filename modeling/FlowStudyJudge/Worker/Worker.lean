-- SUMMARY: `Worker::on_message`: parse, judge, store, acknowledge.
import FlowStudyJudge.Judge.Engine
import FlowStudyJudge.Db.Client

/-- `RabbitMQClient::Impl`, as far as acknowledgements look at it. -/
structure RabbitMQClient where
  connected : Bool := false
  deriving DecidableEq

namespace RabbitMQClient

def ack (mq : RabbitMQClient) (deliveryTag : UInt64) : Comp Bool :=
  if !mq.connected then return false else Host.basicAck deliveryTag

def nackRequeue (mq : RabbitMQClient) (deliveryTag : UInt64) : Comp Bool :=
  if !mq.connected then return false else Host.basicNack deliveryTag

end RabbitMQClient

/-- The members of `Worker` that `on_message` uses. -/
structure Worker where
  isolate : IsolateConfig := {}
  mq : RabbitMQClient := {}
  db : MySQLClient := {}
  deriving DecidableEq

namespace Worker

def dbCaseResult (item : JudgeCaseResultInternal) : JudgeCaseResult :=
  { testcaseId := item.testcaseId
    caseIndex := item.caseIndex
    status := item.status.toBytes
    timeUsedMs := item.timeUsedMs
    memoryUsedKb := item.memoryUsedKb
    inputText := item.inputText
    actualOutput := item.actualOutput
    expectedOutput := item.expectedOutput
    errorMessage := item.errorMessage }

/-- The section "Build DB result" of `on_message`. -/
def dbResult (submission : SubmissionMessage) (result : JudgeResultInternal) : JudgeResult :=
  { runId := submission.runId
    submissionId := submission.submissionId
    problemId := submission.problemId
    status := result.status.toBytes
    timeUsedMs := result.timeUsedMs
    memoryUsedKb := result.memoryUsedKb
    errorMessage := result.errorMessage
    compilerOutput := result.compilerOutput
    failedTestcase := result.failedTestcaseIndex
    caseResults := result.caseResults.map dbCaseResult }

/-- The choice between `update_code_run` and `update_submission`. -/
def updateDb (db : MySQLClient) (submission : SubmissionMessage) (result : JudgeResult) :
    Comp Bool :=
  if submission.isRun then db.updateCodeRun result else db.updateSubmission result

/-- `on_message` behind the parser: judge, ping, write, settle the delivery. -/
def handle (w : Worker) (deliveryTag : UInt64) (submission : SubmissionMessage) :
    Comp Worker := do
  let result ← JudgeEngine.judge w.isolate submission
  let (db, _) ← w.db.ping
  let w := { w with db }
  if ← updateDb db submission (dbResult submission result) then do
    let _ ← w.mq.ack deliveryTag
    return w
  else do
    let _ ← w.mq.nackRequeue deliveryTag
    return w

/-- `on_message`. It returns the worker, whose database connection may be new. -/
def onMessage (parse : Bytes → Option Json) (w : Worker) (deliveryTag : UInt64)
    (body : Bytes) : Comp Worker :=
  match JudgeEngine.parseMessage parse body with
  | none => do
    let _ ← w.mq.ack deliveryTag
    return w
  | some submission => w.handle deliveryTag submission

end Worker
