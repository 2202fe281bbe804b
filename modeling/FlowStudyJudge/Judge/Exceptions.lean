-- SUMMARY: When judging throws: exactly when a meta file that it read has a numeric record that does not convert.
import FlowStudyJudge.Judge.Behaviour

/-! # Exceptions of the judge

`parse_meta` has no `try` block, so an exception of `std::stod` or `std::stoi`
leaves `judge`. A trace tells whether that happened: the meta files are what the
judge reads in text mode. -/

namespace Host

/-- The content an event reads from a meta file. -/
def metaContent : Event Op.Res → Option Bytes
  | ⟨.ifstream _ .text, content⟩ => content
  | _ => none

/-- The contents of the meta files that a run reads. -/
def metaContents (tr : Trace Op.Res) : List Bytes :=
  tr.filterMap metaContent

/-- Every meta file that a run reads converts. -/
def allConvertible (tr : Trace Op.Res) : Bool :=
  (metaContents tr).all Sandbox.metaConvertible

@[simp] theorem allConvertible_append (tr₁ tr₂ : Trace Op.Res) :
    allConvertible (tr₁ ++ tr₂) = (allConvertible tr₁ && allConvertible tr₂) := by
  simp [allConvertible, metaContents]

theorem allConvertible_cons (e : Event Op.Res) (tr : Trace Op.Res) :
    allConvertible (e :: tr) = (allConvertible [e] && allConvertible tr) :=
  allConvertible_append [e] tr

end Host

open Host

namespace Sandbox

variable {sb : Sandbox} {tr : Trace Op.Res}

/-- Reading the meta file converts exactly when parsing it does not throw. -/
theorem allConvertible_meta (path : Bytes) (content : Option Bytes) :
    allConvertible [⟨.ifstream path .text, content⟩] = (parseMeta path content).toBool := by
  cases content with
  | none => rfl
  | some content =>
    rw [parseMeta_toBool]
    simp [allConvertible, metaContents, metaContent]

theorem Executed.toBool_eq {args : List Bytes} {f : Bytes}
    {out : Except Abort SandboxResult} (h : Executed sb args f tr out) :
    out.toBool = allConvertible tr := by
  cases h with
  | notStarted => rfl
  | @thrown ret content x hret hparse =>
    rw [allConvertible_cons, allConvertible_meta, hparse]
    rfl
  | @finished ret content output error result hret hparse =>
    rw [allConvertible_cons, allConvertible_cons ⟨.ifstream (sb.path f) .text, content⟩,
      allConvertible_meta, hparse]
    rfl

theorem Ran.toBool_eq {language : Bytes} {timeLimitMs memoryLimitKb : Int}
    {stdinInput : Bytes} {out : Except Abort SandboxResult}
    (h : Ran sb language timeLimitMs memoryLimitKb stdinInput tr out) :
    out.toBool = allConvertible tr := by
  cases h with
  | notWritten => rfl
  | unsupported hw hlang => rfl
  | executed hw hlang hexec =>
    rw [allConvertible_cons, ← hexec.toBool_eq, toBool_map]
    rfl

theorem DirsMade.allConvertible {lang : Language} {message : Option Bytes}
    (h : DirsMade sb lang tr message) : Host.allConvertible tr = true := by
  cases h <;> rfl

theorem StderrRead.allConvertible {result result' : SandboxResult}
    (h : StderrRead sb result tr result') : Host.allConvertible tr = true := by
  cases h <;> rfl

theorem Compiled.toBool_eq {language sourceCode : Bytes}
    {out : Except Abort (Sandbox × SandboxResult)}
    (h : Compiled sb language sourceCode tr out) : out.toBool = Host.allConvertible tr := by
  cases h with
  | unsupported hlang => rfl
  | noDirs hlang hdirs => exact hdirs.allConvertible.symm
  | notWritten hlang hdirs =>
    rw [allConvertible_append, hdirs.allConvertible]
    rfl
  | thrown hlang hdirs hw hexec =>
    rw [allConvertible_append, allConvertible_cons, hdirs.allConvertible, ← hexec.toBool_eq]
    rfl
  | executed hlang hdirs hw hexec htail =>
    rw [allConvertible_append, allConvertible_cons, allConvertible_append,
      hdirs.allConvertible, ← hexec.toBool_eq, htail.allConvertible]
    rfl

end Sandbox

namespace JudgeEngine

theorem Looped.toBool_eq {sandbox : Sandbox} {submission : SubmissionMessage} {i : Nat}
    {p : Progress} {testcases : List TestCase} {tr : Trace Op.Res}
    {out : Except Abort JudgeResultInternal}
    (h : Looped sandbox submission i p testcases tr out) :
    out.toBool = allConvertible tr := by
  induction h with
  | finished => rfl
  | thrown hrun => exact hrun.toBool_eq
  | stopped hrun hverdict hstop =>
    rw [allConvertible_append, ← hrun.toBool_eq]
    rfl
  | next hrun hverdict haccepted hrest ih =>
    rw [allConvertible_append, ← hrun.toBool_eq, ← ih]
    rfl

/-- `judge` returns normally exactly when every meta file it read converts. -/
theorem judge_toBool_eq {cfg : IsolateConfig} {submission : SubmissionMessage}
    {tr : Trace Op.Res} {out : Except Abort JudgeResultInternal}
    (h : (judge cfg submission).Runs tr out) : out.toBool = allConvertible tr := by
  cases judge_runs h with
  | compileThrown hcompile =>
    rw [allConvertible_cons, ← hcompile.toBool_eq]
    rfl
  | compileFailed hcompile hexit =>
    rw [allConvertible_cons, allConvertible_append, ← hcompile.toBool_eq]
    rfl
  | looped hcompile hexit hloop =>
    rw [allConvertible_cons, allConvertible_append, ← hcompile.toBool_eq, ← hloop.toBool_eq]
    rfl

end JudgeEngine
