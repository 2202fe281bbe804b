-- SUMMARY: Two calls of `judge` side by side: what two hosts have to agree on for the results to be the same.
import FlowStudyJudge.Effects.Relational
import FlowStudyJudge.Judge.Behaviour

/-! # Side by side

`judge` reads files behind a call of isolate only. Two hosts that answer the calls in the
same way, and hold the same in the files that are read behind each of them, lead it to
the same result. -/

open Sandbox (boxPath)

namespace Box

/-- The names of the files that call number `k` of a submission has to write: the compiler
    its meta file and error output, a program its meta file, output and error output. -/
def requiredNames : Nat → List Bytes
  | 0 => ["compile_meta.txt", "error.txt"]
  | _ + 1 => ["run_meta.txt", "output.txt", "error.txt"]

def requiredFiles (boxId : Int) (k : Nat) : List Bytes :=
  (requiredNames k).map (boxPath boxId ++ ·)

end Box

namespace Sandbox

/-- The command lines of call number `k` of a submission: the compiler first, then the
    program on the test cases. -/
inductive IsCommand (isolateBin : Bytes) (boxId : Int) : Nat → Bytes → Prop
  | compile {sb : Sandbox} (hbox : sb.boxId = boxId) (hbin : sb.isolateBin = isolateBin)
      (file : Bytes) (lang : Language) :
      IsCommand isolateBin boxId 0
        (sb.commandLine (compileArgs sb.boxId file lang) "compile_meta.txt")
  | run {sb : Sandbox} (hbox : sb.boxId = boxId) (hbin : sb.isolateBin = isolateBin)
      (timeLimitMs memoryLimitKb : Int) (lang : Language) (k : Nat) :
      IsCommand isolateBin boxId (k + 1)
        (sb.commandLine (sb.runArgs timeLimitMs memoryLimitKb lang) "run_meta.txt")

end Sandbox

/-- A host, and when two of its states look alike to `judge`: before call number `k`, and
    right behind it, while its files are read. -/
structure Views (σ : Type) where
  host : Handler Op.Res σ
  ok : σ → Prop
  isolateBin : Bytes
  boxId : Int
  before : Nat → σ → σ → Prop
  behind : Nat → σ → σ → Prop

namespace Views

variable {σ : Type} (V : Views σ)

/-- Two programs side by side on the host. -/
abbrev SideBySide {α : Type} (P : σ → σ → Prop) (p₁ p₂ : Comp α)
    (Q : α → α → σ → σ → Prop) : Prop :=
  Prog.Related V.host V.ok P p₁ p₂ Q

/-- A program that keeps the two states alike, and returns the same on both sides. -/
abbrev Keeps {α : Type} (k : Nat) (p : Comp α) : Prop :=
  V.SideBySide (V.before k) p p fun a₁ a₂ s₁ s₂ => a₁ = a₂ ∧ V.before k s₁ s₂

/-- The operations of `judge` on the submission keep the two states alike. -/
structure Lawful (submission : SubmissionMessage) : Prop where
  ok_of_step : ∀ op s, V.ok (V.host op s).2 → V.ok s
  acquire : V.SideBySide (V.before 0) Host.acquire Host.acquire
    fun id₁ id₂ s₁ s₂ => (id₁ = V.boxId ∧ id₂ = V.boxId) ∧ V.before 0 s₁ s₂
  dirs : ∀ (sb : Sandbox) lang, sb.boxId = V.boxId →
    Sandbox.languageOf submission.language = some lang → V.Keeps 0 (sb.makeDirs lang)
  source : ∀ lang, Sandbox.languageOf submission.language = some lang →
    V.Keeps 0 (Host.ofstream (boxPath V.boxId ++ Sandbox.sourceFile submission.code lang)
      submission.code)
  input : ∀ k content, V.Keeps (k + 1) (Host.ofstream (boxPath V.boxId ++ "input.txt") content)
  system : ∀ k cmd, Sandbox.IsCommand V.isolateBin V.boxId k cmd →
    V.SideBySide (V.before k) (Host.system cmd) (Host.system cmd)
      fun ret₁ ret₂ s₁ s₂ => ret₁ = ret₂ ∧ V.behind k s₁ s₂
  ifstream : ∀ k path mode, V.SideBySide (V.behind k) (Host.ifstream path mode)
    (Host.ifstream path mode) fun c₁ c₂ s₁ s₂ =>
      (path ∈ Box.requiredFiles V.boxId k → c₁ = c₂) ∧ V.behind k s₁ s₂
  next : ∀ k s₁ s₂, V.behind k s₁ s₂ → V.before (k + 1) s₁ s₂

end Views

namespace Sandbox

open Box (requiredFiles requiredNames)

variable {σ : Type} {V : Views σ} {submission : SubmissionMessage} {sb : Sandbox} {k : Nat}

theorem writeFile_sideBySide (hok : ∀ op s, V.ok (V.host op s).2 → V.ok s)
    {filename content : Bytes} (hwrite : V.Keeps k (Host.ofstream (sb.path filename) content)) :
    V.Keeps k (sb.writeFile filename content) := by
  unfold writeFile
  refine Prog.Related.bind_eq hok hwrite fun w => ?_
  cases w <;> exact .done fun s₁ s₂ hbefore => ⟨rfl, hbefore⟩

theorem readFile_sideBySide (hV : V.Lawful submission) (filename : Bytes) :
    V.SideBySide (V.behind k) (sb.readFile filename) (sb.readFile filename)
      fun text₁ text₂ s₁ s₂ =>
        (sb.path filename ∈ requiredFiles V.boxId k → text₁ = text₂) ∧ V.behind k s₁ s₂ := by
  unfold readFile
  refine Prog.Related.bind hV.ok_of_step (hV.ifstream k _ _) fun c₁ c₂ => ?_
  refine .done fun s₁ s₂ hread => ⟨fun hpath => ?_, hread.2⟩
  rw [hread.1 hpath]

theorem error_mem_requiredFiles (sb : Sandbox) (k : Nat) :
    sb.path "error.txt" ∈ requiredFiles sb.boxId k := by
  cases k <;> simp [requiredFiles, requiredNames, path]

/-- `execute` sees the same on both sides, but for an output file that the result does
    not depend on. -/
theorem execute_sideBySide (hV : V.Lawful submission) (hbox : sb.boxId = V.boxId)
    {args : List Bytes} {filename : Bytes}
    (hcommand : IsCommand V.isolateBin V.boxId k (sb.commandLine args filename))
    (hmeta : sb.path filename ∈ requiredFiles V.boxId k) :
    V.SideBySide (V.before k) (sb.execute args filename) (sb.execute args filename)
      fun r₁ r₂ s₁ s₂ => V.behind k s₁ s₂ ∧
        r₂ = { r₁ with stdoutOutput := r₂.stdoutOutput } ∧
        (sb.path "output.txt" ∈ requiredFiles V.boxId k → r₁ = r₂) := by
  have herrorFile : sb.path "error.txt" ∈ requiredFiles V.boxId k :=
    hbox ▸ error_mem_requiredFiles sb k
  unfold execute
  refine Prog.Related.bind_eq hV.ok_of_step (hV.system k _ hcommand) fun ret => ?_
  by_cases hret : ret = -1
  · rw [if_pos hret]
    exact .done fun s₁ s₂ hbehind => ⟨hbehind, rfl, fun _ => rfl⟩
  · rw [if_neg hret]
    have hread : V.SideBySide (V.behind k) (Host.ifstream (sb.path filename) .text)
        (Host.ifstream (sb.path filename) .text)
        fun c₁ c₂ s₁ s₂ => c₁ = c₂ ∧ V.behind k s₁ s₂ :=
      (hV.ifstream k _ _).mono (fun _ _ h => h) fun _ _ _ _ h => ⟨h.1 hmeta, h.2⟩
    refine Prog.Related.bind_eq hV.ok_of_step hread fun content => ?_
    cases parseMeta (sb.path filename) content with
    | error x => exact .raise
    | ok result =>
      rw [Prog.ofExcept_ok, Prog.done_bind]
      refine Prog.Related.bind hV.ok_of_step (readFile_sideBySide hV _) fun out₁ out₂ => ?_
      refine .assume (fun s₁ s₂ h => h.1) fun hout => ?_
      have herror : V.SideBySide
          (fun s₁ s₂ => (sb.path "output.txt" ∈ requiredFiles V.boxId k → out₁ = out₂) ∧
            V.behind k s₁ s₂)
          (sb.readFile "error.txt") (sb.readFile "error.txt")
          fun text₁ text₂ s₁ s₂ => text₁ = text₂ ∧ V.behind k s₁ s₂ :=
        (readFile_sideBySide hV _).mono (fun _ _ h => h.2)
          fun _ _ _ _ h => ⟨h.1 herrorFile, h.2⟩
      refine Prog.Related.bind_eq hV.ok_of_step herror fun text => ?_
      refine .done fun s₁ s₂ hbehind => ⟨hbehind, rfl, fun hpath => ?_⟩
      rw [hout hpath]

/-- The directories are made alike if `mkdir` answers the same. -/
theorem makeDirs_sideBySide (hok : ∀ op s, V.ok (V.host op s).2 → V.ok s)
    (hmkdir : ∀ path, V.Keeps k (Host.mkdir path)) (lang : Language) :
    V.Keeps k (sb.makeDirs lang) := by
  cases lang with
  | cpp | java | python => exact .done fun s₁ s₂ hbefore => ⟨rfl, hbefore⟩
  | go =>
    unfold makeDirs
    refine Prog.Related.bind_eq hok (hmkdir _) fun r => ?_
    by_cases hr : r = .failed
    · rw [if_pos hr]
      exact .done fun s₁ s₂ hbefore => ⟨rfl, hbefore⟩
    · rw [if_neg hr]
      refine Prog.Related.bind_eq hok (hmkdir _) fun r' => ?_
      by_cases hr' : r' = .failed
      · rw [if_pos hr']
        exact .done fun s₁ s₂ hbefore => ⟨rfl, hbefore⟩
      · rw [if_neg hr']
        exact .done fun s₁ s₂ hbefore => ⟨rfl, hbefore⟩

/-- What `judge` uses of the result of a compilation, and where it goes on. -/
structure SameCompile (V : Views σ) (r₁ r₂ : SandboxResult) (s₁ s₂ : σ) : Prop where
  exitCode : r₁.exitCode = r₂.exitCode
  stderrOutput : r₁.stderrOutput = r₂.stderrOutput
  before : r₁.exitCode = 0 → V.before 1 s₁ s₂

theorem compileSource_sideBySide (hV : V.Lawful submission) (hbox : sb.boxId = V.boxId)
    (hbin : sb.isolateBin = V.isolateBin) {lang : Language}
    (hlang : languageOf submission.language = some lang) :
    V.SideBySide (V.before 0) (sb.compileSource lang submission.code)
      (sb.compileSource lang submission.code) (SameCompile V) := by
  have hsource := hV.source lang hlang
  rw [← hbox] at hsource
  unfold compileSource
  refine Prog.Related.bind_eq hV.ok_of_step (writeFile_sideBySide hV.ok_of_step hsource)
    fun written => ?_
  cases written with
  | false =>
    refine .done fun s₁ s₂ hbefore => ⟨rfl, rfl, fun hexit => ?_⟩
    cases hexit
  | true =>
    rw [if_neg (by decide)]
    have hmeta : sb.path "compile_meta.txt" ∈ requiredFiles V.boxId 0 := by
      simp [requiredFiles, requiredNames, path, hbox]
    have hexecute := execute_sideBySide hV hbox
      (.compile hbox hbin (sourceFile submission.code lang) lang) hmeta
    refine Prog.Related.bind hV.ok_of_step hexecute fun r₁ r₂ => ?_
    refine .assume (fun s₁ s₂ h => h.2.1) fun heq => ?_
    rw [heq]
    by_cases hstderr : r₁.stderrOutput = []
    · rw [if_pos hstderr, if_pos hstderr]
      refine Prog.Related.bind hV.ok_of_step
        ((readFile_sideBySide hV _).mono (fun _ _ h => h.1) fun _ _ _ _ h => h)
        fun text₁ text₂ => ?_
      refine .done fun s₁ s₂ h => ⟨rfl, h.1 ?_, fun _ => hV.next 0 s₁ s₂ h.2⟩
      exact hbox ▸ error_mem_requiredFiles sb 0
    · rw [if_neg hstderr, if_neg hstderr]
      exact .done fun s₁ s₂ h => ⟨rfl, rfl, fun _ => hV.next 0 s₁ s₂ h.1⟩

theorem compile_sideBySide (hV : V.Lawful submission) (hbox : sb.boxId = V.boxId)
    (hbin : sb.isolateBin = V.isolateBin) :
    V.SideBySide (V.before 0) (sb.compile submission.language submission.code)
      (sb.compile submission.language submission.code)
      fun c₁ c₂ s₁ s₂ => c₁.1 = c₂.1 ∧ (c₁.1.boxId = V.boxId ∧ c₁.1.isolateBin = V.isolateBin) ∧
        SameCompile V c₁.2 c₂.2 s₁ s₂ := by
  unfold compile
  cases hlang : languageOf submission.language with
  | none =>
    refine .done fun s₁ s₂ _ => ⟨rfl, ⟨hbox, hbin⟩, rfl, rfl, fun hexit => ?_⟩
    cases hexit
  | some lang =>
    have hbox' : (sb.setMainClass lang submission.code).boxId = V.boxId :=
      (setMainClass_boxId ..).trans hbox
    have hbin' : (sb.setMainClass lang submission.code).isolateBin = V.isolateBin :=
      (setMainClass_isolateBin ..).trans hbin
    refine Prog.Related.bind_eq hV.ok_of_step (hV.dirs _ lang hbox' hlang) fun message => ?_
    cases message with
    | some message =>
      refine .done fun s₁ s₂ _ => ⟨rfl, ⟨hbox', hbin'⟩, rfl, rfl, fun hexit => ?_⟩
      cases hexit
    | none =>
      refine Prog.Related.bind hV.ok_of_step
        (compileSource_sideBySide hV hbox' hbin' hlang) fun r₁ r₂ => ?_
      exact .done fun s₁ s₂ h => ⟨rfl, ⟨hbox', hbin'⟩, h⟩

theorem run_sideBySide (hV : V.Lawful submission) (hbox : sb.boxId = V.boxId)
    (hbin : sb.isolateBin = V.isolateBin) (language : Bytes) (timeLimitMs memoryLimitKb : Int)
    (stdinInput : Bytes) :
    V.SideBySide (V.before (k + 1)) (sb.run language timeLimitMs memoryLimitKb stdinInput)
      (sb.run language timeLimitMs memoryLimitKb stdinInput)
      fun r₁ r₂ s₁ s₂ => r₁ = r₂ ∧ ∃ k, V.before (k + 1) s₁ s₂ := by
  have hinput := hV.input k stdinInput
  rw [← hbox] at hinput
  unfold run
  refine Prog.Related.bind_eq hV.ok_of_step (writeFile_sideBySide hV.ok_of_step hinput)
    fun written => ?_
  cases written with
  | false => exact .done fun s₁ s₂ hbefore => ⟨rfl, k, hbefore⟩
  | true =>
    rw [if_neg (by decide)]
    cases languageOf language with
    | none => exact .done fun s₁ s₂ hbefore => ⟨rfl, k, hbefore⟩
    | some lang =>
      have hmeta : sb.path "run_meta.txt" ∈ requiredFiles V.boxId (k + 1) := by
        simp [requiredFiles, requiredNames, path, hbox]
      have houtput : sb.path "output.txt" ∈ requiredFiles V.boxId (k + 1) := by
        simp [requiredFiles, requiredNames, path, hbox]
      have hexecute : V.SideBySide (V.before (k + 1))
          (sb.execute (sb.runArgs timeLimitMs memoryLimitKb lang) "run_meta.txt")
          (sb.execute (sb.runArgs timeLimitMs memoryLimitKb lang) "run_meta.txt")
          fun r₁ r₂ s₁ s₂ => r₁ = r₂ ∧ V.before (k + 1 + 1) s₁ s₂ :=
        (execute_sideBySide hV hbox (.run hbox hbin _ _ lang k) hmeta).mono (fun _ _ h => h)
          fun _ _ s₁ s₂ h => ⟨h.2.2 houtput, hV.next (k + 1) s₁ s₂ h.1⟩
      refine Prog.Related.bind_eq hV.ok_of_step hexecute fun r => ?_
      exact .done fun s₁ s₂ hbefore => ⟨rfl, k + 1, hbefore⟩

end Sandbox

namespace JudgeEngine

variable {σ : Type} {V : Views σ} {submission : SubmissionMessage}

theorem release_sideBySide {boxId : Int} {P : σ → σ → Prop} (r : JudgeResultInternal) :
    V.SideBySide P (do Host.release boxId; return r) (do Host.release boxId; return r)
      fun r₁ r₂ _ _ => r₁ = r₂ :=
  fun _ _ _ _ _ => rfl

theorem judgeTestcases_sideBySide (hV : V.Lawful submission) {sandbox : Sandbox}
    (hbox : sandbox.boxId = V.boxId) (hbin : sandbox.isolateBin = V.isolateBin)
    {testcases : List TestCase} {i k : Nat} {p : Progress} :
    V.SideBySide (V.before (k + 1)) (judgeTestcases sandbox submission i p testcases)
      (judgeTestcases sandbox submission i p testcases) fun r₁ r₂ _ _ => r₁ = r₂ := by
  induction testcases generalizing i k p with
  | nil => exact release_sideBySide _
  | cons tc rest ih =>
    unfold judgeTestcases
    refine Prog.Related.bind_eq hV.ok_of_step (Sandbox.run_sideBySide hV hbox hbin _ _ _ _)
      fun runResult => ?_
    refine .exists_pre fun k => ?_
    simp only
    split
    · exact ih
    · exact release_sideBySide _

theorem judge_sideBySide (hV : V.Lawful submission) {cfg : IsolateConfig}
    (hbin : cfg.binaryPath = V.isolateBin) :
    V.SideBySide (V.before 0) (judge cfg submission) (judge cfg submission)
      fun r₁ r₂ _ _ => r₁ = r₂ := by
  unfold judge
  refine Prog.Related.bind hV.ok_of_step hV.acquire fun id₁ id₂ => ?_
  refine .assume (fun s₁ s₂ h => h.1) fun hid => ?_
  obtain ⟨rfl, rfl⟩ := hid
  have hcompile := @Sandbox.compile_sideBySide _ _ _ (Sandbox.make V.boxId cfg) hV rfl hbin
  refine Prog.Related.bind hV.ok_of_step
    (hcompile.mono (fun _ _ h => h.2) fun _ _ _ _ h => h) fun c₁ c₂ => ?_
  obtain ⟨sandbox, r₁⟩ := c₁
  obtain ⟨sandbox₂, r₂⟩ := c₂
  have hsandbox : ∀ s₁ s₂ : σ, sandbox = sandbox₂ ∧
      (sandbox.boxId = V.boxId ∧ sandbox.isolateBin = V.isolateBin) ∧
      Sandbox.SameCompile V r₁ r₂ s₁ s₂ → sandbox = sandbox₂ ∧
      (sandbox.boxId = V.boxId ∧ sandbox.isolateBin = V.isolateBin) ∧
      r₁.exitCode = r₂.exitCode ∧ r₁.stderrOutput = r₂.stderrOutput :=
    fun s₁ s₂ h => ⟨h.1, h.2.1, h.2.2.exitCode, h.2.2.stderrOutput⟩
  refine .assume hsandbox fun hsame => ?_
  obtain ⟨rfl, ⟨hbox, hbin⟩, hexitCode, hstderr⟩ := hsame
  simp only [← hexitCode, ← hstderr]
  by_cases hexit : r₁.exitCode = 0
  · rw [if_neg (not_not_intro hexit)]
    exact (judgeTestcases_sideBySide hV hbox hbin).mono (fun s₁ s₂ h => h.2.2.before hexit)
      fun _ _ _ _ h => h
  · rw [if_pos hexit, ← hbox]
    exact release_sideBySide _

end JudgeEngine
