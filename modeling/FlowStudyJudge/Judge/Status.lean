-- SUMMARY: The judge statuses and their database strings.
import FlowStudyJudge.Text.Bytes

inductive JudgeStatus where
  | pending
  | compiling
  | running
  | accepted
  | wrongAnswer
  | timeLimitExceeded
  | memoryLimitExceeded
  | runtimeError
  | compilationError
  | systemError
  deriving DecidableEq, Repr

namespace JudgeStatus

/-- `to_string`: the string stored in the database. -/
def toBytes : JudgeStatus → Bytes
  | .pending => "PENDING"
  | .compiling => "COMPILING"
  | .running => "RUNNING"
  | .accepted => "ACCEPTED"
  | .wrongAnswer => "WRONG_ANSWER"
  | .timeLimitExceeded => "TIME_LIMIT_EXCEEDED"
  | .memoryLimitExceeded => "MEMORY_LIMIT_EXCEEDED"
  | .runtimeError => "RUNTIME_ERROR"
  | .compilationError => "COMPILE_ERROR"
  | .systemError => "SYSTEM_ERROR"

/-- The statuses that a test case, rather than the compilation, decides. -/
def isVerdict : JudgeStatus → Bool
  | .accepted | .wrongAnswer | .timeLimitExceeded | .memoryLimitExceeded | .runtimeError => true
  | _ => false

end JudgeStatus
