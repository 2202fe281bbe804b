-- SUMMARY: Whether a judged program can change its own measurements: two runs with the same measurements and outputs.
import FlowStudyJudge.Judge.Commands
import FlowStudyJudge.Judge.SideBySide
import FlowStudyJudge.Storage.Inodes

/-! # Measurements

isolate opens the file of its `--meta` option, runs the program, and writes what it has
measured through the open file at the end. The worker reads the file by its name
afterwards, from the directory that the program could change meanwhile. -/

open Sandbox (boxPath)

/-- The contents of a box, with isolate's file under its name or under none. -/
abbrev BoxFiles := Inodes Bytes Bytes

namespace Inodes

/-- Write `bytes` over the start of a file. -/
def overwrite (d : BoxFiles) (file : Nat) (bytes : Bytes) : BoxFiles :=
  d.fill file (bytes ++ (d.contents file).drop bytes.length)

end Inodes

/-- One call of isolate and its program. -/
structure Behaviour where
  /-- The answer of `std::system`. -/
  ret : Int
  /-- What isolate measures. -/
  records : Bytes
  /-- What is done to the box while the program runs, in order. -/
  acts : List (Inodes.Act Bytes Bytes)

/-- What the judge should depend on. -/
structure Shown where
  ret : Int
  records : Bytes
  /-- The contents of `output.txt` and `error.txt` in the end. -/
  output : Option Bytes
  error : Option Bytes
  deriving DecidableEq

structure Invocation where
  shown : Shown
  /-- The name of the meta file still leads to the file that isolate has opened, and
      this file holds no more than isolate is going to write. -/
  spared : Bool

/-- A box with the behaviours of the calls, and the calls so far. -/
structure Observed where
  files : BoxFiles
  behaviours : Nat → Behaviour
  calls : List Invocation

/-- How the host answers the worker's own operations. -/
structure Answers where
  ofstream : Bytes → Bytes → Written
  /-- What reaches the file of a truncated write. -/
  part : Bytes → Bytes → Bytes
  mkdir : Bytes → MkdirResult

namespace Observed

/-- The file that the `--meta` option of a call names. -/
def metaFile (isolateBin cmd : Bytes) : Bytes :=
  (((cmd.drop isolateBin.length).splitOn ' '.toUInt8).find? fun w =>
    ("--meta=" : Bytes).isPrefixOf w).elim [] fun w => w.drop ("--meta=" : Bytes).length

/-- The number of the file that isolate has opened, and the box when the program ends. -/
def atEnd (m : Observed) (metaPath : Bytes) : Nat × BoxFiles :=
  let (file, files) := m.files.create metaPath []
  (file, (m.behaviours m.calls.length).acts.foldl Inodes.perform files)

/-- isolate has written its records through the open file. -/
def afterCall (m : Observed) (metaPath : Bytes) : BoxFiles :=
  (m.atEnd metaPath).2.overwrite (m.atEnd metaPath).1 (m.behaviours m.calls.length).records

def invocation (m : Observed) (boxId : Int) (metaPath : Bytes) : Invocation where
  shown :=
    { ret := (m.behaviours m.calls.length).ret
      records := (m.behaviours m.calls.length).records
      output := (m.afterCall metaPath).read (boxPath boxId ++ "output.txt")
      error := (m.afterCall metaPath).read (boxPath boxId ++ "error.txt") }
  spared :=
    decide ((m.atEnd metaPath).2.entries metaPath = some (m.atEnd metaPath).1) &&
      decide (((m.atEnd metaPath).2.contents (m.atEnd metaPath).1).length ≤
        (m.behaviours m.calls.length).records.length)

def invoke (m : Observed) (boxId : Int) (metaPath : Bytes) : Observed :=
  { m with files := m.afterCall metaPath, calls := m.calls ++ [m.invocation boxId metaPath] }

def host (io : Answers) (isolateBin : Bytes) (boxId : Int) : Handler Op.Res Observed :=
  fun op m =>
    match op with
    | .acquire => (boxId, m)
    | .ofstream path content =>
      match io.ofstream path content with
      | .refused => (Written.refused, m)
      | .truncated =>
        (Written.truncated, { m with files := (m.files.create path (io.part path content)).2 })
      | .complete => (Written.complete, { m with files := (m.files.create path content).2 })
    | .ifstream path _ => (m.files.read path, m)
    | .mkdir path => (io.mkdir path, m)
    | .system cmd =>
      ((m.behaviours m.calls.length).ret, m.invoke boxId (metaFile isolateBin cmd))
    | op => ((Host.fixed (fun _ => none) op ()).1, m)

/-- From call number `first` on, the calls have shown what they should, and the programs have
    spared the meta files. -/
structure Kept (first : Nat) (shown : Nat → Shown) (m : Observed) : Prop where
  shows : ∀ k call, first ≤ k → m.calls[k]? = some call → call.shown = shown k
  spared : ∀ k call, first ≤ k → m.calls[k]? = some call → call.spared = true

end Observed

namespace Sandbox

open Shell

/-! ## The meta file of a call -/

/-- The name behind the meta option of call number `k`. -/
def metaName : Nat → Bytes
  | 0 => "compile_meta.txt"
  | _ + 1 => "run_meta.txt"

theorem blank_not_mem_of_isOption {w : Bytes} (h : isOption w = true) : ' '.toUInt8 ∉ w := by
  have hplain := isOption_plain h
  cases w with
  | nil => simp
  | cons c w =>
    simp only [isPlainWord, Bool.and_eq_true] at hplain
    intro hmem
    exact absurd (List.all_eq_true.mp hplain.2 _ hmem) (by decide)

/-- Words behind blanks are found again between the blanks. -/
theorem splitOn_spaced {ws : List Bytes} (h : ∀ w ∈ ws, ' '.toUInt8 ∉ w) (rest : Bytes) :
    (spaced ws ++ ' '.toUInt8 :: rest).splitOn ' '.toUInt8 =
      [] :: (ws ++ rest.splitOn ' '.toUInt8) := by
  induction ws with
  | nil => exact List.splitOn_append_cons_self [] rest
  | cons w ws ih =>
    obtain ⟨hw, hws⟩ := List.forall_mem_cons.mp h
    have hblank : ∃ tail, spaced ws ++ ' '.toUInt8 :: rest = ' '.toUInt8 :: tail := by
      cases ws with
      | nil => exact ⟨rest, rfl⟩
      | cons w' ws => exact ⟨_, rfl⟩
    obtain ⟨tail, htail⟩ := hblank
    have hrest : tail.splitOn ' '.toUInt8 = ws ++ rest.splitOn ' '.toUInt8 := by
      have hsplit := ih hws
      rw [htail] at hsplit
      exact (List.cons.inj ((List.splitOn_append_cons_self [] tail).symm.trans hsplit)).2
    have hline : spaced (w :: ws) ++ ' '.toUInt8 :: rest =
        ' '.toUInt8 :: (w ++ ' '.toUInt8 :: tail) := by
      rw [← htail, spaced_cons]
      simp only [List.cons_append, List.append_assoc]
    have hfirst : (' '.toUInt8 :: (w ++ ' '.toUInt8 :: tail)).splitOn ' '.toUInt8 =
        [] :: (w ++ ' '.toUInt8 :: tail).splitOn ' '.toUInt8 :=
      List.splitOn_append_cons_self [] _
    rw [hline, hfirst, List.splitOn_append_cons_self_of_not_mem hw, hrest]
    rfl

/-- The meta file of a command line is the one that `execute` has put there. -/
theorem metaFile_commandLine (sb : Sandbox) {options : List Bytes}
    (hoptions : options.all isOption = true)
    (hother : ∀ w ∈ options, ("--meta=" : Bytes).isPrefixOf w = false) {filename : Bytes}
    (hfile : ' '.toUInt8 ∉ sb.path filename) (program : List Bytes) :
    Observed.metaFile sb.isolateBin
      (sb.commandLine (options ++ ("--run" : Bytes) :: program) filename) = sb.path filename := by
  have hwords : ∀ w ∈ options, ' '.toUInt8 ∉ w := fun w hw =>
    blank_not_mem_of_isOption (List.all_eq_true.mp hoptions w hw)
  have hmeta : ' '.toUInt8 ∉ "--meta=" ++ sb.path filename := by
    rw [List.mem_append]
    rintro (hmem | hmem)
    · exact absurd hmem (by decide +kernel)
    · exact hfile hmem
  have hline : (sb.commandLine (options ++ ("--run" : Bytes) :: program) filename).drop
      sb.isolateBin.length = spaced options ++ ' '.toUInt8 :: (("--meta=" ++ sb.path filename) ++
        ' '.toUInt8 :: ("--run" ++ spaced program)) := by
    rw [commandLine, List.drop_left, joinArgs_run _ (not_mem_of_isOption hoptions).1]
    simp only [spaced_append, spaced_cons, List.append_assoc]
  have hstart : ("--meta=" : Bytes).isPrefixOf ("--meta=" ++ sb.path filename) = true :=
    List.isPrefixOf_iff_prefix.mpr (List.prefix_append ..)
  have hnone : ∀ w ∈ ([] : Bytes) :: options, ¬ ("--meta=" : Bytes).isPrefixOf w = true := by
    intro w hw
    rcases List.mem_cons.mp hw with rfl | hw
    · decide
    · simp [hother w hw]
  have hfind : (([] : Bytes) :: options ++ ("--meta=" ++ sb.path filename) ::
      ("--run" ++ spaced program).splitOn ' '.toUInt8).find?
        (fun w => ("--meta=" : Bytes).isPrefixOf w) = some ("--meta=" ++ sb.path filename) := by
    rw [List.find?_append, List.find?_eq_none.mpr hnone, List.find?_cons_of_pos hstart]
    rfl
  have hsplit := splitOn_spaced hwords
    (("--meta=" ++ sb.path filename) ++ ' '.toUInt8 :: ("--run" ++ spaced program))
  rw [List.splitOn_append_cons_self_of_not_mem hmeta] at hsplit
  rw [Observed.metaFile, hline, hsplit, ← List.cons_append, hfind]
  exact List.drop_left

theorem path_no_blank (sb : Sandbox) {filename : Bytes} (h : ' '.toUInt8 ∉ filename) :
    ' '.toUInt8 ∉ sb.path filename := by
  simp only [path, boxPath, List.mem_append, not_or]
  refine ⟨⟨⟨by decide +kernel, ?_⟩, by decide +kernel⟩, h⟩
  intro hmem
  exact absurd (List.all_eq_true.mp (ofInt_ordinary sb.boxId) _ hmem) (by decide)

theorem boxOption_other (boxId : Int) :
    ("--meta=" : Bytes).isPrefixOf (boxOption boxId) = false := rfl

/-- Each call opens the meta file that `execute` reads behind it. -/
theorem IsCommand.metaFile {isolateBin : Bytes} {boxId : Int} {k : Nat} {cmd : Bytes}
    (h : IsCommand isolateBin boxId k cmd) :
    Observed.metaFile isolateBin cmd = boxPath boxId ++ metaName k := by
  cases h with
  | @compile sb hbox hbin file lang =>
    have hfile : ' '.toUInt8 ∉ sb.path "compile_meta.txt" := path_no_blank sb (by decide +kernel)
    have hother : ∀ w ∈ boxOption sb.boxId :: compileOptions lang,
        ("--meta=" : Bytes).isPrefixOf w = false := by
      refine List.forall_mem_cons.mpr ⟨boxOption_other sb.boxId, ?_⟩
      cases lang <;> decide +kernel
    have hmeta := metaFile_commandLine sb (compileOptions_isOption sb.boxId lang) hother hfile
      (("--" : Bytes) :: compileCommand file lang)
    rw [compileArgs_eq, ← hbin, ← hbox]
    change _ = sb.path "compile_meta.txt"
    simpa only [List.append_assoc, List.cons_append, List.nil_append] using hmeta
  | @run sb hbox hbin timeLimitMs memoryLimitKb lang k =>
    have hfile : ' '.toUInt8 ∉ sb.path "run_meta.txt" := path_no_blank sb (by decide +kernel)
    have hother : ∀ w ∈ boxOption sb.boxId :: (runOptions lang ++
        ("--mem=" ++ Bytes.ofInt (isolateMemoryKb memoryLimitKb lang)) ::
        wallTimeOption timeLimitMs :: redirections),
        ("--meta=" : Bytes).isPrefixOf w = false := by
      have hmem : ("--meta=" : Bytes).isPrefixOf
          ("--mem=" ++ Bytes.ofInt (isolateMemoryKb memoryLimitKb lang)) = false := rfl
      have hwall : ("--meta=" : Bytes).isPrefixOf (wallTimeOption timeLimitMs) = false := rfl
      have hfixed : ∀ w ∈ runOptions lang, ("--meta=" : Bytes).isPrefixOf w = false := by
        cases lang <;> decide +kernel
      have hredirections : ∀ w ∈ redirections, ("--meta=" : Bytes).isPrefixOf w = false := by
        decide +kernel
      refine List.forall_mem_cons.mpr ⟨boxOption_other sb.boxId, ?_⟩
      refine List.forall_mem_append.mpr ⟨hfixed, ?_⟩
      exact List.forall_mem_cons.mpr ⟨hmem, List.forall_mem_cons.mpr ⟨hwall, hredirections⟩⟩
    have hmeta := metaFile_commandLine sb
      (runOptions_isOption sb.boxId timeLimitMs memoryLimitKb lang) hother hfile
      (("--" : Bytes) :: runCommand sb.javaMainClass lang)
    rw [runArgs_eq, ← hbin, ← hbox]
    change _ = sb.path "run_meta.txt"
    simpa only [List.append_assoc, List.cons_append, List.nil_append] using hmeta

end Sandbox

namespace Observed

open Box (requiredFiles requiredNames)
open Sandbox (metaName)

variable {io : Answers} {isolateBin : Bytes} {boxId : Int} {shown : Nat → Shown}
  {first k : Nat} {m m₁ m₂ : Observed}

/-! ## The files behind a call -/

/-- Records that cover what the file has held are all it holds. -/
theorem overwrite_eq {d : BoxFiles} {file : Nat} {records : Bytes}
    (h : (d.contents file).length ≤ records.length) :
    d.overwrite file records = d.fill file records := by
  rw [Inodes.overwrite, List.drop_eq_nil_of_le h, List.append_nil]

/-- The worker reads what isolate has written. -/
theorem read_metaPath {metaPath : Bytes} (h : (m.invocation boxId metaPath).spared = true) :
    (m.afterCall metaPath).read metaPath = some (m.behaviours m.calls.length).records := by
  simp only [invocation, Bool.and_eq_true, decide_eq_true_eq] at h
  have hfill := overwrite_eq h.2
  rw [afterCall, hfill]
  exact Inodes.read_fill h.1 _

/-- What the worker reads behind a call, in terms of what the call has shown. -/
def shownFile (boxId : Int) (s : Shown) (path : Bytes) : Option Bytes :=
  if path = boxPath boxId ++ "output.txt" then s.output
  else if path = boxPath boxId ++ "error.txt" then s.error
  else some s.records

theorem mem_requiredFiles {path : Bytes} (h : path ∈ requiredFiles boxId k) :
    path = boxPath boxId ++ "output.txt" ∨ path = boxPath boxId ++ "error.txt" ∨
      path = boxPath boxId ++ metaName k := by
  cases k with
  | zero =>
    simp only [requiredFiles, requiredNames, List.map_cons, List.map_nil, List.mem_cons,
      List.not_mem_nil, or_false] at h
    rcases h with h | h
    · exact .inr (.inr h)
    · exact .inr (.inl h)
  | succ k =>
    simp only [requiredFiles, requiredNames, List.map_cons, List.map_nil, List.mem_cons,
      List.not_mem_nil, or_false] at h
    rcases h with h | h | h
    · exact .inr (.inr h)
    · exact .inl h
    · exact .inr (.inl h)

theorem read_requiredFile {path : Bytes}
    (hspared : (m.invocation boxId (boxPath boxId ++ metaName k)).spared = true)
    (hpath : path ∈ requiredFiles boxId k) :
    (m.afterCall (boxPath boxId ++ metaName k)).read path =
      shownFile boxId (m.invocation boxId (boxPath boxId ++ metaName k)).shown path := by
  unfold shownFile
  by_cases houtput : path = boxPath boxId ++ "output.txt"
  · rw [if_pos houtput, houtput]
    rfl
  · rw [if_neg houtput]
    by_cases herror : path = boxPath boxId ++ "error.txt"
    · rw [if_pos herror, herror]
      rfl
    · rw [if_neg herror]
      have hmeta : path = boxPath boxId ++ metaName k :=
        ((mem_requiredFiles hpath).resolve_left houtput).resolve_left herror
      rw [hmeta]
      exact read_metaPath hspared

/-! ## Two boxes side by side -/

/-- Calls are added, and never taken back. -/
theorem kept_of_host (op : Op) (m : Observed)
    (h : Kept first shown (host io isolateBin boxId op m).2) : Kept first shown m := by
  have hstart : m.calls <+: (host io isolateBin boxId op m).2.calls := by
    cases op with
    | system cmd => exact List.prefix_append ..
    | ofstream path content =>
      unfold host
      cases hwrite : io.ofstream path content <;> simp [hwrite]
    | acquire | ifstream | release | mkdir | mysqlInit | mysqlRealConnect | mysqlPing | basicAck
      | basicNack | mysqlQuery => exact List.prefix_rfl
  obtain ⟨rest, hrest⟩ := hstart
  have hlater : ∀ {k : Nat} {call : Invocation}, m.calls[k]? = some call →
      (host io isolateBin boxId op m).2.calls[k]? = some call := by
    intro k call hk
    rw [← hrest, List.getElem?_append_left (List.getElem?_eq_some_iff.mp hk).1]
    exact hk
  exact ⟨fun k call hfirst hk => h.shows k call hfirst (hlater hk),
    fun k call hfirst hk => h.spared k call hfirst (hlater hk)⟩

/-- Both boxes are right before call number `k`, which is one of those that count. -/
structure Before (first k : Nat) (m₁ m₂ : Observed) : Prop where
  counts : first ≤ k
  calls₁ : m₁.calls.length = k
  calls₂ : m₂.calls.length = k

/-- Both boxes are right behind call number `k`, and its files read the same. -/
structure Behind (boxId : Int) (first k : Nat) (m₁ m₂ : Observed) : Prop extends
    Before first (k + 1) m₁ m₂ where
  same : ∀ path ∈ requiredFiles boxId k, m₁.files.read path = m₂.files.read path

/-- A call that is kept has shown what it should, and its files read accordingly. -/
theorem Kept.invoke {metaPath : Bytes} (hmeta : metaPath = boxPath boxId ++ metaName k)
    (hfirst : first ≤ k) (hk : m.calls.length = k)
    (h : Kept first shown (m.invoke boxId metaPath)) :
    (m.behaviours m.calls.length).ret = (shown k).ret ∧
      ∀ path ∈ requiredFiles boxId k,
        (m.invoke boxId metaPath).files.read path = shownFile boxId (shown k) path := by
  subst hmeta
  have hcall : (m.invoke boxId (boxPath boxId ++ metaName k)).calls[k]? =
      some (m.invocation boxId (boxPath boxId ++ metaName k)) := by
    subst hk
    exact List.getElem?_concat_length ..
  have hshown := h.shows k _ hfirst hcall
  have hspared := h.spared k _ hfirst hcall
  refine ⟨congrArg Shown.ret hshown, fun path hpath => ?_⟩
  exact (read_requiredFile hspared hpath).trans (congrArg (shownFile boxId · path) hshown)

/-- A call of isolate leaves two boxes alike that are kept. -/
theorem host_system (io : Answers) (hbefore : Before first k m₁ m₂) {cmd : Bytes}
    (hcmd : Sandbox.IsCommand isolateBin boxId k cmd)
    (hkept₁ : Kept first shown (host io isolateBin boxId (.system cmd) m₁).2)
    (hkept₂ : Kept first shown (host io isolateBin boxId (.system cmd) m₂).2) :
    (host io isolateBin boxId (.system cmd) m₁).1 = (host io isolateBin boxId (.system cmd) m₂).1 ∧
      Behind boxId first k (host io isolateBin boxId (.system cmd) m₁).2
        (host io isolateBin boxId (.system cmd) m₂).2 := by
  have hmeta := hcmd.metaFile
  obtain ⟨hret₁, hread₁⟩ := Kept.invoke hmeta hbefore.counts hbefore.calls₁ hkept₁
  obtain ⟨hret₂, hread₂⟩ := Kept.invoke hmeta hbefore.counts hbefore.calls₂ hkept₂
  refine ⟨hret₁.trans hret₂.symm, ⟨hbefore.counts.trans (Nat.le_succ k), ?_, ?_⟩, ?_⟩
  · simp [host, Observed.invoke, hbefore.calls₁]
  · simp [host, Observed.invoke, hbefore.calls₂]
  · exact fun path hpath => (hread₁ path hpath).trans (hread₂ path hpath).symm

theorem host_ofstream (io : Answers) (isolateBin : Bytes) (boxId : Int)
    (hbefore : Before first k m₁ m₂) (path content : Bytes) :
    (host io isolateBin boxId (.ofstream path content) m₁).1 =
        (host io isolateBin boxId (.ofstream path content) m₂).1 ∧
      Before first k (host io isolateBin boxId (.ofstream path content) m₁).2
        (host io isolateBin boxId (.ofstream path content) m₂).2 := by
  unfold host
  cases hwrite : io.ofstream path content <;> simp only [hwrite] <;>
    exact ⟨trivial, hbefore.counts, hbefore.calls₁, hbefore.calls₂⟩

/-- Two boxes are compared by the calls that were made in them, from `first` on. -/
def views (io : Answers) (isolateBin : Bytes) (boxId : Int) (first : Nat) (shown : Nat → Shown) :
    Views Observed where
  host := host io isolateBin boxId
  ok := Kept first shown
  isolateBin := isolateBin
  boxId := boxId
  before := Before first
  behind := Behind boxId first

theorem views_lawful (io : Answers) (isolateBin : Bytes) (boxId : Int) (first : Nat)
    (shown : Nat → Shown) (submission : SubmissionMessage) :
    (views io isolateBin boxId first shown).Lawful submission where
  ok_of_step := kept_of_host
  acquire := Prog.Related.perform fun _ _ hbefore _ _ => ⟨⟨rfl, rfl⟩, hbefore⟩
  dirs _ lang _ _ := Sandbox.makeDirs_sideBySide kept_of_host
    (fun _ => Prog.Related.perform fun _ _ hbefore _ _ => ⟨rfl, hbefore⟩) lang
  source _ _ := Prog.Related.perform fun _ _ hbefore _ _ =>
    host_ofstream io isolateBin boxId hbefore _ _
  input _ _ := Prog.Related.perform fun _ _ hbefore _ _ =>
    host_ofstream io isolateBin boxId hbefore _ _
  system _ _ hcmd := Prog.Related.perform fun _ _ hbefore hkept₁ hkept₂ =>
    host_system io hbefore hcmd hkept₁ hkept₂
  ifstream _ path _ :=
    Prog.Related.perform fun _ _ hbehind _ _ => ⟨hbehind.same path, hbehind⟩
  next _ _ _ hbehind := hbehind.toBefore

end Observed

namespace JudgeEngine

open Observed

/-- Programs that spare their meta files can do to the box what they like: the run of a
    test case and the whole judgement come out the same. -/
theorem measurements_kept (io : Answers) (cfg : IsolateConfig) (boxId : Int)
    (shown : Nat → Shown) :
    (∀ (sb : Sandbox) (language : Bytes) (timeLimitMs memoryLimitKb : Int) (stdinInput : Bytes)
      (k : Nat) (m₁ m₂ : Observed), sb.boxId = boxId → sb.isolateBin = cfg.binaryPath →
      m₁.calls.length = k + 1 → m₂.calls.length = k + 1 →
      Kept (k + 1) shown ((sb.run language timeLimitMs memoryLimitKb stdinInput).eval
        (host io cfg.binaryPath boxId) m₁).2 →
      Kept (k + 1) shown ((sb.run language timeLimitMs memoryLimitKb stdinInput).eval
        (host io cfg.binaryPath boxId) m₂).2 →
      ((sb.run language timeLimitMs memoryLimitKb stdinInput).eval
        (host io cfg.binaryPath boxId) m₁).1 =
      ((sb.run language timeLimitMs memoryLimitKb stdinInput).eval
        (host io cfg.binaryPath boxId) m₂).1) ∧
    (∀ (submission : SubmissionMessage) (m₁ m₂ : Observed), m₁.calls = [] → m₂.calls = [] →
      Kept 0 shown ((judge cfg submission).eval (host io cfg.binaryPath boxId) m₁).2 →
      Kept 0 shown ((judge cfg submission).eval (host io cfg.binaryPath boxId) m₂).2 →
      ((judge cfg submission).eval (host io cfg.binaryPath boxId) m₁).1 =
        ((judge cfg submission).eval (host io cfg.binaryPath boxId) m₂).1) := by
  constructor
  · intro sb language timeLimitMs memoryLimitKb stdinInput k m₁ m₂ hbox hbin hcalls₁ hcalls₂
      hkept₁ hkept₂
    have hviews := views_lawful io cfg.binaryPath boxId (k + 1) shown
      { language, code := [], testcases := [] }
    have hrun := @Sandbox.run_sideBySide _ _ _ sb k hviews hbox hbin language timeLimitMs
      memoryLimitKb stdinInput
    have hsame := hrun.mono (fun _ _ hbefore => hbefore) fun _ _ _ _ h => h.1
    have hbefore : Before (k + 1) (k + 1) m₁ m₂ := ⟨Nat.le_refl _, hcalls₁, hcalls₂⟩
    exact (hsame m₁ m₂ hbefore hkept₁ hkept₂).eq_outcome
  · intro submission m₁ m₂ hcalls₁ hcalls₂ hkept₁ hkept₂
    have hviews := views_lawful io cfg.binaryPath boxId 0 shown submission
    have hbefore : Before 0 0 m₁ m₂ :=
      ⟨Nat.le_refl _, congrArg List.length hcalls₁, congrArg List.length hcalls₂⟩
    exact (judge_sideBySide hviews rfl m₁ m₂ hbefore hkept₁ hkept₂).eq_outcome

/-! ## Two programs -/

/-- All writes succeed. -/
def allWritten : Answers where
  ofstream _ _ := .complete
  part _ _ := []
  mkdir _ := .exists

/-- The compiler succeeds; the program prints 5, isolate writes `records`, and `acts` is
    what the program does besides. -/
def boxWith (records : Bytes) (acts : List (Inodes.Act Bytes Bytes)) : Observed where
  files := Inodes.empty []
  behaviours
    | 0 =>
      { ret := 0
        records := "exitcode:0\n"
        acts := [.write (boxPath 1 ++ "error.txt") []] }
    | _ + 1 =>
      { ret := 0
        records
        acts := (Inodes.Act.write (boxPath 1 ++ "output.txt") "5") ::
          .write (boxPath 1 ++ "error.txt") [] :: acts }
  calls := []

def printSubmission : SubmissionMessage :=
  { problemId := 3, language := "python", code := "print(5)"
    testcases := [{ caseIndex := 1, input := [], expectedOutput := "5" }] }

/-- The state after judging `printSubmission` in a box. -/
def judged (m : Observed) : Except Abort JudgeResultInternal × Observed :=
  (judge {} printSubmission).eval (host allWritten ({} : IsolateConfig).binaryPath 1) m

/-- What a program shows that prints 5 and does nothing wrong. -/
def plainShown : Nat → Shown
  | 0 => { ret := 0, records := "exitcode:0\n", output := none, error := some [] }
  | _ + 1 =>
    { ret := 0, records := "time:0.010\nexitcode:0\n", output := some "5", error := some [] }

/-- The same for a program that fails. -/
def failedShown : Nat → Shown
  | 0 => plainShown 0
  | k + 1 => { plainShown (k + 1) with records := "exitcode:1\n" }

/-- What a program does that keeps its own notes and replaces its source file. -/
def scribbles : List (Inodes.Act Bytes Bytes) :=
  [.write (boxPath 1 ++ "notes.txt") "time:9.999\n", .unlink (boxPath 1 ++ "solution.py"),
    .rename (boxPath 1 ++ "notes.txt") (boxPath 1 ++ "compile_meta.txt")]

theorem kept_boxWith {acts : List (Inodes.Act Bytes Bytes)} (hacts : acts = [] ∨ acts = scribbles) :
    Kept 0 plainShown (judged (boxWith "time:0.010\nexitcode:0\n" acts)).2 := by
  have hcalls : ∀ acts ∈ [[], scribbles],
      ∀ call ∈ (judged (boxWith "time:0.010\nexitcode:0\n" acts)).2.calls.zipIdx,
        call.1.shown = plainShown call.2 ∧ call.1.spared = true := by
    decide +kernel
  have hcalls := hcalls acts (by simpa using hacts)
  refine ⟨fun k call _ hk => ?_, fun k call _ hk => ?_⟩
  · exact (hcalls (call, k) (List.mk_mem_zipIdx_iff_getElem?.mpr hk)).1
  · exact (hcalls (call, k) (List.mk_mem_zipIdx_iff_getElem?.mpr hk)).2

theorem measurements_kept_scribbles :
    (judged (boxWith "time:0.010\nexitcode:0\n" [])).1 =
      (judged (boxWith "time:0.010\nexitcode:0\n" scribbles)).1 :=
  (measurements_kept allWritten {} 1 plainShown).2 printSubmission _ _ rfl rfl
    (kept_boxWith (.inl rfl)) (kept_boxWith (.inr rfl))

/-- A program that fails, and leaves a meta file of its own in place of isolate's. -/
def forgery : List (Inodes.Act Bytes Bytes) :=
  [.unlink (boxPath 1 ++ "run_meta.txt"), .write (boxPath 1 ++ "run_meta.txt") "exitcode:0\n"]

/-- Two programs with the same records and the same outputs: one fails and the other is
    accepted, because it has replaced the meta file. -/
theorem not_always_measured :
    ¬ ∀ (io : Answers) (cfg : IsolateConfig) (boxId : Int) (shown : Nat → Shown)
      (submission : SubmissionMessage) (m₁ m₂ : Observed), m₁.calls = [] → m₂.calls = [] →
      (∀ k call, ((judge cfg submission).eval (host io cfg.binaryPath boxId) m₁).2.calls[k]? =
        some call → call.shown = shown k) →
      (∀ k call, ((judge cfg submission).eval (host io cfg.binaryPath boxId) m₂).2.calls[k]? =
        some call → call.shown = shown k) →
      ((judge cfg submission).eval (host io cfg.binaryPath boxId) m₁).1 =
        ((judge cfg submission).eval (host io cfg.binaryPath boxId) m₂).1 := by
  intro h
  have hshown : ∀ acts ∈ [[], forgery], ∀ k call,
      (judged (boxWith "exitcode:1\n" acts)).2.calls[k]? = some call →
      call.shown = failedShown k := by
    intro acts hacts k call hk
    have hcalls : ∀ acts ∈ [[], forgery],
        ∀ call ∈ (judged (boxWith "exitcode:1\n" acts)).2.calls.zipIdx,
          call.1.shown = failedShown call.2 := by
      decide +kernel
    exact hcalls acts hacts (call, k) (List.mk_mem_zipIdx_iff_getElem?.mpr hk)
  have hsame := h allWritten {} 1 failedShown printSubmission (boxWith "exitcode:1\n" [])
    (boxWith "exitcode:1\n" forgery) rfl rfl (hshown _ (by simp)) (hshown _ (by simp))
  have hfailed : ((judged (boxWith "exitcode:1\n" [])).1.toOption.map (·.status)) =
      some .runtimeError := by
    decide +kernel
  have haccepted : ((judged (boxWith "exitcode:1\n" forgery)).1.toOption.map (·.status)) =
      some .accepted := by
    decide +kernel
  change (judged (boxWith "exitcode:1\n" [])).1 = (judged (boxWith "exitcode:1\n" forgery)).1
    at hsame
  rw [hsame, haccepted] at hfailed
  cases hfailed

end JudgeEngine
