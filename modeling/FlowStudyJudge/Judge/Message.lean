-- SUMMARY: Submission messages: the JSON values of the message library and `parse_message`.
import FlowStudyJudge.Text.Numeral

/-! # Submission messages

The text parser of the JSON library is a parameter of `parseMessage`; the value
it returns and the accessors that `parse_message` calls on it are modelled here
as the library documents them. -/

/-- A JSON value. The library holds an integer in 64 bits and every other number
    in a double; an object has each key once. -/
inductive Json where
  | null
  | boolean (b : Bool)
  | integer (n : Int)
  | float (x : Double)
  | string (s : Bytes)
  | array (elements : List Json)
  | object (fields : List (Bytes × Json))

/-- The exceptions of the JSON library, all of one base class. -/
inductive JsonException where
  | typeError
  | outOfRange
  deriving DecidableEq, Repr

namespace Json

/-! ## Accessors -/

/-- `operator[]` on a present key, and the lookup of `find`. -/
def lookup : Json → Bytes → Option Json
  | .object fields, key => (fields.find? fun f => f.1 = key).map (·.2)
  | _, _ => none

def isNull : Json → Bool
  | .null => true
  | _ => false

/-- `at` with a key. -/
def atKey (j : Json) (key : Bytes) : Except JsonException Json :=
  match j with
  | .object _ =>
    match j.lookup key with
    | some v => .ok v
    | none => .error .outOfRange
  | _ => .error .typeError

/-- `static_cast<uint64_t>` of a finite double. C++ leaves a value outside of the type
    undefined; compiled for x86-64, a negative one wraps as far as it fits 64 bits with a sign,
    and beyond that and from `2 ^ 64` on the answer is `2 ^ 63` and `0`. -/
def castUInt64 (x : Double) : UInt64 :=
  if x.truncate < -2 ^ 63 then UInt64.ofInt (2 ^ 63)
  else if 2 ^ 64 ≤ x.truncate then 0
  else UInt64.ofInt x.truncate

/-- `get<uint64_t>`: a static cast from either kind of number. -/
def getUInt64 : Json → Except JsonException UInt64
  | .integer n => .ok (UInt64.ofInt n)
  | .float x => .ok (castUInt64 x)
  | _ => .error .typeError

/-- `static_cast<int>` of an integer. -/
def castInt (n : Int) : Int :=
  n.bmod (2 ^ 32)

/-- `get<int>`: a static cast from either kind of number, or from a boolean. -/
def getInt : Json → Except JsonException Int
  | .integer n => .ok (castInt n)
  | .float x => .ok x.toInt
  | .boolean b => .ok (if b then 1 else 0)
  | _ => .error .typeError

/-- `get<std::string>` -/
def getString : Json → Except JsonException Bytes
  | .string s => .ok s
  | _ => .error .typeError

/-- `value(key, default)` with the conversion `get` to the type of the default. -/
def value {α : Type} (j : Json) (key : Bytes) (get : Json → Except JsonException α)
    (default : α) : Except JsonException α :=
  match j with
  | .object _ =>
    match j.lookup key with
    | some v => get v
    | none => .ok default
  | _ => .error .typeError

/-- What a range-based `for` visits. A value that is no container is visited as
    a sequence of one, `null` as an empty one. -/
def elements : Json → List Json
  | .array xs => xs
  | .object fields => fields.map (·.2)
  | .null => []
  | j => [j]

end Json

/-! ## Messages -/

structure TestCase where
  testcaseId : UInt64 := 0
  caseIndex : Int := 0
  input : Bytes
  expectedOutput : Bytes
  deriving DecidableEq

structure SubmissionMessage where
  taskType : Bytes := "SUBMISSION"
  runId : UInt64 := 0
  submissionId : UInt64 := 0
  problemId : UInt64 := 0
  language : Bytes
  submitMode : Bytes := "FULL_PROGRAM"
  code : Bytes
  timeLimitMs : Int := 1000
  memoryLimitKb : Int := 262144
  testcases : List TestCase
  deriving DecidableEq

namespace SubmissionMessage

/-- The message asks for a run rather than for the judging of a submission. -/
def isRun (msg : SubmissionMessage) : Bool :=
  msg.taskType == "RUN"

end SubmissionMessage

namespace JudgeEngine

open Json

/-- An id that may be absent or `null`, and is then `0`. -/
def optionalId (j : Json) (key : Bytes) : Except JsonException UInt64 :=
  match j.lookup key with
  | none => .ok 0
  | some v => if v.isNull then .ok 0 else v.getUInt64

/-- The loop over `testcases`; `size` is the number of test cases read so far. -/
def readTestcases (size : Nat) : List Json → Except JsonException (List TestCase)
  | [] => .ok []
  | tc :: rest => do
    let testcaseId ← optionalId tc "testcase_id"
    let caseIndex ← tc.value "case_index" getInt (castInt size + 1)
    let input ← (← tc.atKey "input").getString
    let expectedOutput ← (← tc.atKey "expected_output").getString
    let t : TestCase := { testcaseId, caseIndex, input, expectedOutput }
    return t :: (← readTestcases (size + 1) rest)

/-- The body of the `try` block of `parse_message`, on the parsed text. -/
def readMessage (j : Json) : Except JsonException SubmissionMessage := do
  let taskType ← j.value "task_type" getString "SUBMISSION"
  let runId ← optionalId j "run_id"
  let submissionId ← optionalId j "submission_id"
  let problemId ← (← j.atKey "problem_id").getUInt64
  let language ← j.value "language" getString "cpp"
  let submitMode ← j.value "submit_mode" getString "FULL_PROGRAM"
  let code ← (← j.atKey "code").getString
  let timeLimitMs ← j.value "time_limit" getInt 1000
  let memoryLimitKb ← j.value "memory_limit" getInt 262144
  let testcases ← readTestcases 0 (← j.atKey "testcases").elements
  return { taskType, runId, submissionId, problemId, language, submitMode, code,
           timeLimitMs, memoryLimitKb, testcases }

/-- `parse_message`. `parse` is the text parser of the library, `none` where it
    throws; every exception of the library becomes `nullopt`. -/
def parseMessage (parse : Bytes → Option Json) (jsonStr : Bytes) : Option SubmissionMessage :=
  match parse jsonStr with
  | none => none
  | some j =>
    match readMessage j with
    | .ok msg => some msg
    | .error _ => none

theorem parseMessage_of_some {parse : Bytes → Option Json} {jsonStr : Bytes} {j : Json}
    {msg : SubmissionMessage} (hparse : parse jsonStr = some j) (hread : readMessage j = .ok msg) :
    parseMessage parse jsonStr = some msg := by
  simp only [parseMessage, hparse, hread]

/-! ## A message -/

/-- The text of a small submission in Python. -/
def sampleBody : Bytes :=
  "\x7b\"submission_id\":7,\"problem_id\":3,\"language\":\"python\",\"code\":\"print(1)\",\"testcases\":[\x7b\"input\":\"\",\"expected_output\":\"1\"\x7d]\x7d"

/-- The value of that text. -/
def sampleJson : Json :=
  .object
    [("submission_id", .integer 7), ("problem_id", .integer 3),
      ("language", .string "python"), ("code", .string "print(1)"),
      ("testcases", .array [.object [("input", .string ""), ("expected_output", .string "1")]])]

/-- A text parser that knows one text. -/
def sampleParse (jsonStr : Bytes) : Option Json :=
  if jsonStr = sampleBody then some sampleJson else none

def sampleMessage : SubmissionMessage :=
  { submissionId := 7
    problemId := 3
    language := "python"
    code := "print(1)"
    testcases := [{ caseIndex := 1, input := "", expectedOutput := "1" }] }

theorem parseMessage_sample : parseMessage sampleParse sampleBody = some sampleMessage := by
  have hread : readMessage sampleJson = .ok sampleMessage := by decide +kernel
  exact parseMessage_of_some (if_pos rfl) hread

end JudgeEngine
