-- SUMMARY: Submissions that share a box one after another: what judging leaves behind, and when that has no influence on the next result.
import FlowStudyJudge.Judge.Evidence
import FlowStudyJudge.Judge.Leftovers

/-! # Independence

What earlier submissions left in a box has no influence on a result, as long as isolate
does not look at it and it is not in the way. Both are assumptions: nothing between two
submissions empties the box. -/

open FileSystem (IsDirectory)
open HostFs (boxDir)
open Sandbox (boxPath languageOf parseMeta)

/-! ## The program of a submission -/

namespace JudgeEngine

open Box

variable {disk : Disk} {iso : Isolate} {boxId : Int} {cfg : IsolateConfig}
  {submission : SubmissionMessage}

/-- A place that a successful compilation has changed is seen changed by every run. -/
theorem Judged.built {fs : HostFs} {tr : Trace Op.Res} {out : Except Abort JudgeResultInternal}
    {b : Box} {loc : Location Bytes} (h : Judged cfg submission (⟨.acquire, boxId⟩ :: tr) out)
    (hpath : Box.world.Path (start fs) (⟨.acquire, boxId⟩ :: tr) b)
    (hbuilt : ∀ call, b.calls[0]? = some call →
      ∀ r, parseMeta (boxPath boxId ++ "compile_meta.txt")
        (call.after (boxPath boxId ++ "compile_meta.txt")) = .ok r → r.exitCode = 0 →
      call.freshAfter loc = true)
    {k : Nat} {call : Call} (hk : b.calls[k + 1]? = some call) : call.fresh loc = true := by
  obtain ⟨b₁, hacquire, hpath₁⟩ := World.path_cons.mp hpath
  have hstart : b₁.calls = [] := Box.world_calls hacquire (by simp)
  have hlt : k + 1 < b.calls.length := (List.getElem?_eq_some_iff.mp hk).1
  generalize htr : (⟨.acquire, boxId⟩ :: tr : Trace Op.Res) = tr₀ at h
  cases h with
  | compileThrown hcompile =>
    cases htr
    have hone := hcompile.one_call hpath₁
    rw [hstart] at hone
    exact absurd (hlt.trans_le hone) (by simp)
  | compileFailed hcompile hexit =>
    cases htr
    obtain ⟨b₂, hcompilePath, hrelease⟩ := World.path_append.mp hpath₁
    have hone := hcompile.one_call hcompilePath
    rw [hstart, ← Box.path_calls hrelease (by simp)] at hone
    exact absurd (hlt.trans_le hone) (by simp)
  | looped hcompile hexit hloop =>
    cases htr
    obtain ⟨b₂, hcompilePath, hloopPath⟩ := World.path_append.mp hpath₁
    rcases hcompile.box hcompilePath with ⟨hfailed, -⟩ | ⟨compile, hcompileCall, hgrown, hparsed⟩
    · exact absurd hexit hfailed
    · obtain ⟨calls, hcalls, hfresh⟩ := (grown_of_path hloopPath).calls
      rw [hstart, List.nil_append] at hcompileCall
      rw [hcompileCall] at hcalls
      obtain ⟨r, hr, hparse⟩ := hparsed hexit
      have hplace : compile.freshAfter loc = true :=
        hbuilt compile (by rw [hcalls]; rfl) r hparse hr
      rw [hcalls] at hk
      exact hfresh call (List.mem_of_getElem? hk) loc (hgrown loc hplace)

/-- The judging of a submission in a box with these files: its outcome, and the box then. -/
abbrev judgedIn (disk : Disk) (iso : Isolate) (boxId : Int) (cfg : IsolateConfig)
    (submission : SubmissionMessage) (fs : HostFs) : Except Abort JudgeResultInternal × Box :=
  (judge cfg submission).eval (host disk iso boxId) (start fs)

/-- Every run executes a program of the submission. -/
theorem judge_built {fs : HostFs}
    (h : Contained iso boxId submission (judgedIn disk iso boxId cfg submission fs).2)
    {k : Nat} {call : Call}
    (hk : (judgedIn disk iso boxId cfg submission fs).2.calls[k + 1]? = some call) :
    call.fresh (boxDir boxId ++ [submission.programName]) = true := by
  have hjudged := judge_runs
    (Prog.runs_trace (judge cfg submission) (host disk iso boxId) (start fs))
  have hpath := Prog.path_trace (judge cfg submission) Box.host_world
    (h := host disk iso boxId) (start fs)
  have htrace : ∃ tr, (judge cfg submission).trace (host disk iso boxId) (start fs) =
      ⟨.acquire, boxId⟩ :: tr := ⟨_, rfl⟩
  obtain ⟨tr, htr⟩ := htrace
  rw [htr] at hjudged hpath
  exact hjudged.built hpath (fun call hcall => (h 0 call hcall).built rfl) hk

/-- With programs of its own, the judging sees nothing older. -/
theorem blind_of_contained {fs : HostFs}
    (h : Contained iso boxId submission (judgedIn disk iso boxId cfg submission fs).2) :
    Blind iso boxId (judgedIn disk iso boxId cfg submission fs).2 := by
  intro k call hk
  obtain ⟨hblind, hwrites, -, hinput⟩ := h k call hk
  refine ⟨?_, hwrites, hinput⟩
  cases k with
  | zero => rwa [if_pos rfl] at hblind
  | succ k =>
    rw [if_neg (Nat.succ_ne_zero k), Call.visibleWith_eq (judge_built h hk)] at hblind
    exact hblind

/-- The files that earlier calls of `judge` can leave behind in box `boxId`. -/
inductive LeftBy (disk : Disk) (iso : Isolate) (boxId : Int) (cfg : IsolateConfig) :
    HostFs → Prop where
  /-- `isolate --init` makes an empty box. -/
  | init {fs : HostFs} (hbox : IsDirectory fs (boxDir boxId))
      (hempty : ∀ rest, rest ≠ [] → fs (boxDir boxId ++ rest) = none) :
      LeftBy disk iso boxId cfg fs
  | judged {fs : HostFs} (submission : SubmissionMessage) (h : LeftBy disk iso boxId cfg fs) :
      LeftBy disk iso boxId cfg (judgedIn disk iso boxId cfg submission fs).2.fs

/-- Nothing that happens in a box removes it. -/
theorem isDirectory_of_host (op : Op) (b : Box) (h : IsDirectory b.fs (boxDir boxId)) :
    IsDirectory (host disk iso boxId op b).2.fs (boxDir boxId) := by
  cases op with
  | ofstream path content =>
    cases hloc : b.fs.writable path with
    | none => simpa only [host, hloc, Option.elim_none] using h
    | some loc =>
      have hput : ∀ content, IsDirectory (b.fs.put loc (.file content)) (boxDir boxId) :=
        fun content => h.put (HostFs.writable_eq_some.mp hloc).2
      simp only [host, hloc, Option.elim_some, store]
      cases disk.ofstream path content with
      | refused => exact h
      | truncated => exact hput _
      | complete => exact hput _
  | mkdir path =>
    by_cases hpermitted : disk.mkdir path = true
    · cases hloc : b.fs.entryOf path with
      | none => simpa only [host, if_pos hpermitted, hloc, Option.elim_none] using h
      | some loc =>
        simp only [host, if_pos hpermitted, hloc, Option.elim_some, makeDir]
        split
        · exact h.put_directory
        · exact h.put_directory
        · exact h
        · exact h
    · simpa only [host, if_neg hpermitted] using h
  | system cmd => exact isDirectory_change h
  | acquire | release | ifstream | mysqlInit | mysqlRealConnect | mysqlPing | basicAck
  | basicNack => exact h
  | mysqlQuery => exact h

theorem LeftBy.isDirectory {fs : HostFs} (h : LeftBy disk iso boxId cfg fs) :
    IsDirectory fs (boxDir boxId) := by
  induction h with
  | init hbox hempty => exact hbox
  | judged submission h ih =>
    exact Prog.eval_keeps (P := fun b : Box => IsDirectory b.fs (boxDir boxId))
      isDirectory_of_host _ ih

/-- An isolate whose programs keep notes in their box: `save` copies its input to
    `notes.txt`, `load` prints that file, `block` leaves a directory in place of its input,
    every other program prints its input. -/
def notebookIsolate : Isolate := fun cmd contents =>
  let file (name : Bytes) : Bytes :=
    match contents [name] with
    | some (.file content) => content
    | some .directory | some (.link _ _) | none => []
  let program := file "solution.py"
  let ran (output : Bytes) : List (Bytes × Bytes) :=
    [("run_meta.txt", "exitcode:0\n"), ("output.txt", output), ("error.txt", [])]
  if ¬ ("run_meta.txt" : Bytes) <:+: cmd then
    (0, writes [("compile_meta.txt", "exitcode:0\n"), ("error.txt", [])])
  else if program = "save" then (0, writes (("notes.txt", file "input.txt") :: ran []))
  else if program = "block" then
    (0, fun loc => if loc = ["input.txt"] then some (some .directory) else writes (ran []) loc)
  else (0, writes (ran (file (if program = "load" then "notes.txt" else "input.txt"))))

def noteSubmission (code input : Bytes) : SubmissionMessage :=
  { problemId := 3, language := "python", code
    testcases := [{ caseIndex := 1, input, expectedOutput := "5" }] }

/-- The files after a first submission in box 1. -/
def leftFiles (code input : Bytes) : HostFs :=
  (judgedIn {} notebookIsolate 1 {} (noteSubmission code input) (emptyBox 1)).2.fs

theorem leftFiles_leftBy (code input : Bytes) :
    LeftBy {} notebookIsolate 1 {} (leftFiles code input) := by
  refine .judged _ (.init (fun d hd _ => if_pos hd) fun rest hrest => ?_)
  exact if_neg (not_prefix_boxDir hrest)

/-- A call of the compiler, or of a program that loads nothing and finds its input. -/
def NoteCall (k : Nat) (call : Call) : Prop :=
  (∀ name ∈ requiredNames k, ∃ content ∈ (["exitcode:0\n", "5", []] : List Bytes),
    call.changes (boxDir 1 ++ [name]) = some (some (.file content))) ∧
  call.changes (boxDir 1 ++ [("input.txt" : Bytes)]) = none ∧
  call.freshAfter (boxDir 1 ++ [("solution.py" : Bytes)]) = true ∧
  (("run_meta.txt" : Bytes) <:+: call.cmd → k ≠ 0 ∧
    call.fresh (boxDir 1 ++ [("input.txt" : Bytes)]) = true ∧
    call.before (boxDir 1 ++ [("solution.py" : Bytes)]) = some (.file "print"))

instance (k : Nat) (call : Call) : Decidable (NoteCall k call) :=
  inferInstanceAs (Decidable (_ ∧ _ ∧ _ ∧ _))

theorem notebookIsolate_congr {cmd : Bytes} {contents contents' : Contents}
    (h : ("run_meta.txt" : Bytes) <:+: cmd →
      contents ["solution.py"] = some (.file "print") ∧
      contents' ["solution.py"] = some (.file "print") ∧
      contents ["input.txt"] = contents' ["input.txt"]) :
    notebookIsolate cmd contents = notebookIsolate cmd contents' := by
  have hsave : ("print" : Bytes) ≠ "save" := by decide +kernel
  have hblock : ("print" : Bytes) ≠ "block" := by decide +kernel
  have hload : ("print" : Bytes) ≠ "load" := by decide +kernel
  unfold notebookIsolate
  by_cases hrun : ("run_meta.txt" : Bytes) <:+: cmd
  · obtain ⟨hprogram, hprogram', hinput⟩ := h hrun
    simp only [hrun, hprogram, hprogram', hinput, hsave, hblock, hload, not_true_eq_false, if_false]
  · simp only [hrun, not_false_eq_true, if_true]

theorem NoteCall.containedCall {k : Nat} {call : Call} {input : Bytes} (h : NoteCall k call) :
    ContainedCall notebookIsolate 1 (noteSubmission "print" input) k call := by
  obtain ⟨hwrites, hinput, hbuilt, hrun⟩ := h
  have hname : (noteSubmission "print" input).programName = "solution.py" := rfl
  refine ⟨notebookIsolate_congr fun hcmd => ?_, fun name hname => ?_, fun _ _ _ _ => hbuilt, ?_⟩
  · obtain ⟨hk, hfresh, hprogram⟩ := hrun hcmd
    have hother : ([("input.txt" : Bytes)] : Location Bytes) ≠ [("solution.py" : Bytes)] := by
      decide +kernel
    rw [if_neg hk, hname]
    refine ⟨hprogram, ?_, ?_⟩
    · rw [Call.visibleWith, if_pos rfl, hprogram]
    · rw [Call.visibleWith, if_neg hother, Call.visible, if_pos (.inl hfresh)]
      rfl
  · obtain ⟨content, -, hcontent⟩ := hwrites name hname
    exact ⟨content, hcontent⟩
  · intro absolute target heq
    rw [hinput] at heq
    cases heq

/-- The judging of a program that prints its input, after another submission. -/
theorem print_contained {code input : Bytes}
    (h : ∀ call ∈ (judgedIn {} notebookIsolate 1 {} (noteSubmission "print" "5")
      (leftFiles code input)).2.calls.zipIdx, NoteCall call.2 call.1) :
    Contained notebookIsolate 1 (noteSubmission "print" "5")
      (judgedIn {} notebookIsolate 1 {} (noteSubmission "print" "5") (leftFiles code input)).2 :=
  fun k call hk => (h (call, k) (List.mk_mem_zipIdx_iff_getElem?.mpr hk)).containedCall

end JudgeEngine
