-- SUMMARY: `compare_output`: equality of outputs up to trailing blanks and trailing empty lines.
import FlowStudyJudge.Text.Bytes

namespace JudgeEngine

/-- The bytes that `normalize_line` trims. -/
def isTrailingBlank (c : UInt8) : Bool :=
  c == ' '.toUInt8 || c == '\t'.toUInt8 || c == '\r'.toUInt8

def normalizeLine (line : Bytes) : Bytes :=
  line.rdropWhile isTrailingBlank

/-- The lambda `split_lines` of `compare_output`. -/
def splitLines (s : Bytes) : List Bytes :=
  ((Bytes.getlines s).map normalizeLine).rdropWhile List.isEmpty

/-- The size check and the comparison line by line amount to equality. -/
def compareOutput (expected actual : Bytes) : Bool :=
  splitLines expected == splitLines actual

example : compareOutput "3  \n12\n" "3\r\n12 \t\n\n" = true := by decide +kernel
example : compareOutput "3\n12\n" "3\n" = false := by decide +kernel

@[simp] theorem compareOutput_self (s : Bytes) : compareOutput s s = true := by
  simp [compareOutput]

end JudgeEngine
