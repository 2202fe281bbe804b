-- SUMMARY: The SQL texts that `MySQLClient` puts together, and the statements they are for the server.
import FlowStudyJudge.Db.Client
import FlowStudyJudge.Text.Sql
import Mathlib.Data.List.Forall2

/-! # SQL texts

`update_submission` and `update_code_run` write every value into the text of a
statement. The texts are built here as the source builds them, and compared with the
statements of `JudgeResult.submissionStmts` and `JudgeResult.codeRunStmts`. -/

/-! ## The texts -/

namespace MySQLClient

/-- `escape_sql`. The buffer has room for two bytes per byte and the terminator. -/
def escapeSql (value : Bytes) : Bytes :=
  Sql.escape value

/-- `nullable_sql` -/
def nullableText (value : Bytes) : Bytes :=
  if value = [] then "NULL" else "'" ++ escapeSql value ++ "'"

/-- An unsigned number on an output stream. -/
def idText (id : UInt64) : Bytes :=
  Bytes.ofNat id.toNat

end MySQLClient

namespace CaseTable

def name : CaseTable → Bytes
  | .fsJudgeCaseResult => "fs_judge_case_result"
  | .fsCodeRunCaseResult => "fs_code_run_case_result"

def ownerColumn : CaseTable → Bytes
  | .fsJudgeCaseResult => "submission_id"
  | .fsCodeRunCaseResult => "run_id"

end CaseTable

namespace JudgeResult

open MySQLClient

/-- `update` in `update_submission`. -/
def updateSubmissionText (result : JudgeResult) : Bytes :=
  "UPDATE fs_submission SET " ++
    "status = '" ++ escapeSql result.status ++ "', " ++
    "score = " ++ Bytes.ofInt (if result.accepted then 100 else 0) ++ ", " ++
    "time_used_ms = " ++ Bytes.ofInt result.timeUsedMs ++ ", " ++
    "memory_used_kb = " ++ Bytes.ofInt result.memoryUsedKb ++ ", " ++
    "compile_message = " ++ nullableText result.compilerOutput ++ ", " ++
    "runtime_message = " ++ nullableText result.errorMessage ++ ", " ++
    "updated_at = NOW() " ++
    "WHERE id = " ++ idText result.submissionId

/-- `update` in `update_code_run`. -/
def updateCodeRunText (result : JudgeResult) : Bytes :=
  "UPDATE fs_code_run SET " ++
    "status = '" ++ escapeSql result.status ++ "', " ++
    "time_used_ms = " ++ Bytes.ofInt result.timeUsedMs ++ ", " ++
    "memory_used_kb = " ++ Bytes.ofInt result.memoryUsedKb ++ ", " ++
    "compile_message = " ++ nullableText result.compilerOutput ++ ", " ++
    "runtime_message = " ++ nullableText result.errorMessage ++ ", " ++
    "updated_at = NOW() " ++
    "WHERE id = " ++ idText result.runId

/-- `clear_cases` -/
def clearCasesText (table : CaseTable) (owner : UInt64) : Bytes :=
  "DELETE FROM " ++ table.name ++ " WHERE " ++ table.ownerColumn ++ " = " ++ idText owner

/-- `insert_case` -/
def insertCaseText (table : CaseTable) (owner : UInt64) (item : JudgeCaseResult) : Bytes :=
  "INSERT INTO " ++ table.name ++ " (" ++
    table.ownerColumn ++ ", testcase_id, case_index, status, time_used_ms, memory_used_kb, " ++
    "input_text, actual_output, expected_output, error_message" ++
    ") VALUES (" ++
    idText owner ++ ", " ++
    (if item.testcaseId = 0 then ("NULL" : Bytes) else idText item.testcaseId) ++ ", " ++
    Bytes.ofInt item.caseIndex ++ ", " ++
    "'" ++ escapeSql item.status ++ "', " ++
    Bytes.ofInt item.timeUsedMs ++ ", " ++
    Bytes.ofInt item.memoryUsedKb ++ ", " ++
    nullableText item.inputText ++ ", " ++
    nullableText item.actualOutput ++ ", " ++
    nullableText item.expectedOutput ++ ", " ++
    nullableText item.errorMessage ++ ")"

/-- `update_problem` -/
def updateProblemText (problemId : UInt64) : Bytes :=
  "UPDATE fs_problem SET accepted_count = accepted_count + 1 " ++
    "WHERE id = " ++ idText problemId

def caseTexts (result : JudgeResult) (table : CaseTable) (owner : UInt64) : List Bytes :=
  clearCasesText table owner :: result.caseResults.map (insertCaseText table owner)

/-- The texts that `update_submission` sends between `START TRANSACTION` and `COMMIT`. -/
def submissionTexts (result : JudgeResult) : List Bytes :=
  result.updateSubmissionText ::
    (result.caseTexts .fsJudgeCaseResult result.submissionId ++
      if result.accepted ∧ result.problemId ≠ 0 then [updateProblemText result.problemId] else [])

/-- The texts that `update_code_run` sends between `START TRANSACTION` and `COMMIT`. -/
def codeRunTexts (result : JudgeResult) : List Bytes :=
  result.updateCodeRunText :: result.caseTexts .fsCodeRunCaseResult result.runId

end JudgeResult

/-! ## The statements -/

namespace Stmt

/-! What the texts have around their values. -/

def updateFsSubmissionParts : List Bytes :=
  ["UPDATE fs_submission SET status = ", ", score = ", ", time_used_ms = ",
    ", memory_used_kb = ", ", compile_message = ", ", runtime_message = ",
    ", updated_at = NOW() WHERE id = ", ""]

def updateFsCodeRunParts : List Bytes :=
  ["UPDATE fs_code_run SET status = ", ", time_used_ms = ", ", memory_used_kb = ",
    ", compile_message = ", ", runtime_message = ", ", updated_at = NOW() WHERE id = ", ""]

def clearCasesParts (table : CaseTable) : List Bytes :=
  ["DELETE FROM " ++ table.name ++ " WHERE " ++ table.ownerColumn ++ " = ", []]

def insertCaseParts (table : CaseTable) : List Bytes :=
  ["INSERT INTO " ++ table.name ++ " (" ++
      table.ownerColumn ++ ", testcase_id, case_index, status, time_used_ms, memory_used_kb, " ++
      "input_text, actual_output, expected_output, error_message" ++ ") VALUES (",
    Bytes.ofString ", ", Bytes.ofString ", ", Bytes.ofString ", ", Bytes.ofString ", ",
    Bytes.ofString ", ", Bytes.ofString ", ", Bytes.ofString ", ", Bytes.ofString ", ",
    Bytes.ofString ", ", Bytes.ofString ")"]

def updateProblemParts : List Bytes :=
  ["UPDATE fs_problem SET accepted_count = accepted_count + 1 WHERE id = ", ""]

def parts : Stmt → List Bytes
  | .updateFsSubmission _ _ => updateFsSubmissionParts
  | .updateFsCodeRun _ _ => updateFsCodeRunParts
  | .clearCases table _ => clearCasesParts table
  | .insertCase table _ => insertCaseParts table
  | .updateProblem _ => updateProblemParts

def nullableString : Option Bytes → Sql.Value
  | none => .null
  | some s => .string s

def nullableNumber : Option UInt64 → Sql.Value
  | none => .null
  | some id => .number id.toNat

/-- The values of a statement, in the order of its columns. -/
def values : Stmt → List Sql.Value
  | .updateFsSubmission verdict id =>
    [.string verdict.status, .number verdict.score, .number verdict.timeUsedMs,
      .number verdict.memoryUsedKb, nullableString verdict.compileMessage,
      nullableString verdict.runtimeMessage, .number id.toNat]
  | .updateFsCodeRun verdict id =>
    [.string verdict.status, .number verdict.timeUsedMs, .number verdict.memoryUsedKb,
      nullableString verdict.compileMessage, nullableString verdict.runtimeMessage,
      .number id.toNat]
  | .clearCases _ owner => [.number owner.toNat]
  | .insertCase _ row =>
    [.number row.owner.toNat, nullableNumber row.testcaseId, .number row.caseIndex,
      .string row.status, .number row.timeUsedMs, .number row.memoryUsedKb,
      nullableString row.inputText, nullableString row.actualOutput,
      nullableString row.expectedOutput, nullableString row.errorMessage]
  | .updateProblem id => [.number id.toNat]

/-- The parts of every statement can be told from its values. -/
theorem parts_isTemplate (s : Stmt) : Sql.isTemplate s.parts = true := by
  have hsubmission : Sql.isTemplate updateFsSubmissionParts = true := by decide +kernel
  have hcodeRun : Sql.isTemplate updateFsCodeRunParts = true := by decide +kernel
  have hclear : ∀ table, Sql.isTemplate (clearCasesParts table) = true := by
    intro table
    cases table <;> decide +kernel
  have hinsert : ∀ table, Sql.isTemplate (insertCaseParts table) = true := by
    intro table
    cases table <;> decide +kernel
  have hproblem : Sql.isTemplate updateProblemParts = true := by decide +kernel
  cases s with
  | updateFsSubmission => exact hsubmission
  | updateFsCodeRun => exact hcodeRun
  | clearCases table => exact hclear table
  | insertCase table => exact hinsert table
  | updateProblem => exact hproblem

theorem parts_length (s : Stmt) : s.parts.length = s.values.length + 1 := by
  cases s <;> rfl

end Stmt

namespace JudgeResult

open MySQLClient Stmt

theorem nullableText_eq (value : Bytes) :
    nullableText value = (nullableString (nullableSql value)).text := by
  unfold nullableText nullableSql
  split <;> rfl

theorem text_string (s : Bytes) : (Sql.Value.string s).text = "'" ++ (Sql.escape s ++ "'") :=
  List.append_assoc ..

theorem text_number (n : Int) : (Sql.Value.number n).text = Bytes.ofInt n := rfl

theorem idText_eq (id : UInt64) : idText id = (Sql.Value.number id.toNat).text := rfl

theorem testcaseIdText_eq (id : UInt64) :
    (if id = 0 then ("NULL" : Bytes) else idText id) = (nullableNumber (nullableId id)).text := by
  unfold nullableId
  split <;> rfl

/-! The fixed parts, cut where the source cuts them. -/

theorem closeQuote_eq : ("', " : Bytes) = "'" ++ ", " := by decide +kernel

theorem openStatus_eq : ("status = '" : Bytes) = "status = " ++ "'" := by decide +kernel

theorem updateFsSubmissionParts_eq :
    updateFsSubmissionParts =
      [("UPDATE fs_submission SET " : Bytes) ++ "status = ", (", " : Bytes) ++ "score = ",
        (", " : Bytes) ++ "time_used_ms = ", (", " : Bytes) ++ "memory_used_kb = ",
        (", " : Bytes) ++ "compile_message = ", (", " : Bytes) ++ "runtime_message = ",
        (", " : Bytes) ++ "updated_at = NOW() " ++ "WHERE id = ", []] := by
  decide +kernel

theorem updateFsCodeRunParts_eq :
    updateFsCodeRunParts =
      [("UPDATE fs_code_run SET " : Bytes) ++ "status = ", (", " : Bytes) ++ "time_used_ms = ",
        (", " : Bytes) ++ "memory_used_kb = ", (", " : Bytes) ++ "compile_message = ",
        (", " : Bytes) ++ "runtime_message = ",
        (", " : Bytes) ++ "updated_at = NOW() " ++ "WHERE id = ", []] := by
  decide +kernel

theorem updateProblemParts_eq :
    updateProblemParts =
      [("UPDATE fs_problem SET accepted_count = accepted_count + 1 " : Bytes) ++ "WHERE id = ",
        []] := by
  decide +kernel

theorem updateSubmissionText_eq (result : JudgeResult) :
    result.updateSubmissionText =
      Sql.weave updateFsSubmissionParts
        (Stmt.updateFsSubmission result.submissionVerdict result.submissionId).values := by
  unfold updateSubmissionText
  simp only [openStatus_eq, closeQuote_eq, nullableText_eq, idText_eq, text_number, escapeSql,
    List.append_assoc]
  simp only [updateFsSubmissionParts_eq, values, submissionVerdict, Sql.weave, text_string,
    text_number, List.append_assoc, List.append_nil]

theorem updateCodeRunText_eq (result : JudgeResult) :
    result.updateCodeRunText =
      Sql.weave updateFsCodeRunParts
        (Stmt.updateFsCodeRun result.runVerdict result.runId).values := by
  unfold updateCodeRunText
  simp only [openStatus_eq, closeQuote_eq, nullableText_eq, idText_eq, text_number, escapeSql,
    List.append_assoc]
  simp only [updateFsCodeRunParts_eq, values, runVerdict, Sql.weave, text_string, text_number,
    List.append_assoc, List.append_nil]

theorem clearCasesText_eq (table : CaseTable) (owner : UInt64) :
    clearCasesText table owner =
      Sql.weave (clearCasesParts table) (Stmt.clearCases table owner).values := by
  simp only [clearCasesText, clearCasesParts, values, Sql.weave, idText_eq, List.append_assoc,
    List.append_nil]

theorem insertCaseText_eq (table : CaseTable) (owner : UInt64) (item : JudgeCaseResult) :
    insertCaseText table owner item =
      Sql.weave (insertCaseParts table) (Stmt.insertCase table (caseRow owner item)).values := by
  unfold insertCaseText
  rw [testcaseIdText_eq]
  simp only [closeQuote_eq, nullableText_eq, idText_eq, text_number, escapeSql,
    List.append_assoc]
  simp only [insertCaseParts, values, caseRow, Sql.weave, text_string, text_number,
    List.append_assoc]

theorem updateProblemText_eq (problemId : UInt64) :
    updateProblemText problemId =
      Sql.weave updateProblemParts (Stmt.updateProblem problemId).values := by
  simp only [updateProblemText, updateProblemParts_eq, values, Sql.weave, idText_eq,
    List.append_assoc, List.append_nil]

/-! ## The texts carry the statements -/

/-- The text is the statement for the server. -/
def Sends (text : Bytes) (s : Stmt) : Prop :=
  Sql.Carries text s.parts s.values

theorem weave_sends (s : Stmt) : Sends (Sql.weave s.parts s.values) s :=
  Sql.weave_carries s.parts_isTemplate s.parts_length

theorem caseTexts_send (result : JudgeResult) (table : CaseTable) (owner : UInt64) :
    List.Forall₂ Sends (result.caseTexts table owner) (result.caseStmts table owner) := by
  refine .cons ?_ ?_
  · rw [clearCasesText_eq]
    exact weave_sends (.clearCases table owner)
  · rw [List.forall₂_map_left_iff, List.forall₂_map_right_iff]
    refine List.forall₂_same.mpr ?_
    intro item _
    rw [insertCaseText_eq]
    exact weave_sends (.insertCase table (caseRow owner item))

theorem submissionTexts_send (result : JudgeResult) :
    List.Forall₂ Sends result.submissionTexts result.submissionStmts := by
  refine .cons ?_ (List.rel_append (caseTexts_send result _ _) ?_)
  · rw [updateSubmissionText_eq]
    exact weave_sends (.updateFsSubmission result.submissionVerdict result.submissionId)
  · unfold problemStmts
    split
    · refine .cons ?_ .nil
      rw [updateProblemText_eq]
      exact weave_sends (.updateProblem result.problemId)
    · exact .nil

theorem codeRunTexts_send (result : JudgeResult) :
    List.Forall₂ Sends result.codeRunTexts result.codeRunStmts := by
  refine .cons ?_ (caseTexts_send result _ _)
  rw [updateCodeRunText_eq]
  exact weave_sends (.updateFsCodeRun result.runVerdict result.runId)

/-- Whatever a result contains, the texts of both transactions are, one by one, the
    statements that the transactions are made of, with the values of their columns. -/
theorem texts_carry_data (result : JudgeResult) :
    List.Forall₂ (fun text s => Sql.Carries text (Stmt.parts s) s.values)
      result.submissionTexts result.submissionStmts ∧
    List.Forall₂ (fun text s => Sql.Carries text (Stmt.parts s) s.values)
      result.codeRunTexts result.codeRunStmts :=
  ⟨submissionTexts_send result, codeRunTexts_send result⟩

end JudgeResult
