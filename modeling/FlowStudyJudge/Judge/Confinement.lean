-- SUMMARY: The files that the worker touches when programs may leave symbolic links in a box.
import FlowStudyJudge.Judge.HostFs

/-! # Files inside and outside of a box

`write_file`, `read_file` and `parse_meta` open paths of the host with the rights of the
worker, and opening a path follows links. Between two operations the programs of the
boxes may have rearranged the boxes in any way; the rest of the host is out of their
reach. -/

open FileSystem (IsDirectory)

namespace HostFs

/-- Inside of the directory of a box. -/
def InBox (boxId : Int) (loc : Location Bytes) : Prop :=
  ∃ rest, rest ≠ [] ∧ loc = boxDir boxId ++ rest

/-- Outside of all boxes. -/
def Outside (loc : Location Bytes) : Prop :=
  ∀ boxId, ¬ InBox boxId loc

/-! ## The host as a world -/

/-- The programs have rearranged the boxes. -/
def Rearranged (fs fs' : HostFs) : Prop :=
  ∀ loc, Outside loc → fs' loc = fs loc

/-- The operations on a path of the host. -/
def isPathOp : Op → Bool
  | .ofstream _ _ | .ifstream _ _ | .mkdir _ => true
  | _ => false

/-- The answers of a file system to one operation. Opening may fail for other reasons
    than the lookup. -/
inductive Serves : HostFs → Event Op.Res → HostFs → Prop where
  | refused {fs : HostFs} {path content : Bytes} : Serves fs ⟨.ofstream path content, .refused⟩ fs
  | truncated {fs : HostFs} {path content part : Bytes} {loc : Location Bytes}
      (hloc : fs.locate path = some loc) (hdir : fs loc ≠ some .directory)
      (hpart : part <+: content) :
      Serves fs ⟨.ofstream path content, .truncated⟩ (fs.put loc (.file part))
  | complete {fs : HostFs} {path content : Bytes} {loc : Location Bytes}
      (hloc : fs.locate path = some loc) (hdir : fs loc ≠ some .directory) :
      Serves fs ⟨.ofstream path content, .complete⟩ (fs.put loc (.file content))
  | unread {fs : HostFs} {path : Bytes} {mode : OpenMode} :
      Serves fs ⟨.ifstream path mode, (none : Option Bytes)⟩ fs
  | read {fs : HostFs} {path content : Bytes} {mode : OpenMode} {loc : Location Bytes}
      (hloc : fs.locate path = some loc) (hfile : fs loc = some (.file content)) :
      Serves fs ⟨.ifstream path mode, some content⟩ fs
  /-- A directory can be opened, but not read from. -/
  | readDirectory {fs : HostFs} {path : Bytes} {mode : OpenMode} {loc : Location Bytes}
      (hloc : fs.locate path = some loc) (hdir : fs loc = some .directory) :
      Serves fs ⟨.ifstream path mode, some ([] : Bytes)⟩ fs
  | created {fs : HostFs} {path : Bytes} {loc : Location Bytes}
      (hloc : fs.entryOf path = some loc) (hnone : fs loc = none) :
      Serves fs ⟨.mkdir path, .created⟩ (fs.put loc .directory)
  | notCreated {fs : HostFs} {path : Bytes} {r : MkdirResult} (hr : r ≠ .created) :
      Serves fs ⟨.mkdir path, r⟩ fs
  /-- What the programs behind a call of isolate do is a rearrangement. -/
  | other {fs : HostFs} {e : Event Op.Res} (hop : isPathOp e.op = false) : Serves fs e fs

/-- A run, each event with the file system that it meets. -/
inductive Happens : HostFs → List (HostFs × Event Op.Res) → HostFs → Prop where
  | nil {fs : HostFs} : Happens fs [] fs
  | cons {fs fs₁ fs₂ fs₃ : HostFs} {e : Event Op.Res} {steps : List (HostFs × Event Op.Res)}
      (hprograms : Rearranged fs fs₁) (hserves : Serves fs₁ e fs₂)
      (hrest : Happens fs₂ steps fs₃) :
      Happens fs ((fs₁, e) :: steps) fs₃

/-- The path that an operation has opened. -/
def opened : Event Op.Res → Option Bytes
  | ⟨.ofstream path _, w⟩ => if w = .refused then none else some path
  | ⟨.ifstream path _, (some _ : Option Bytes)⟩ => some path
  | _ => none

/-- The operation creates, overwrites or reads the file at this location. -/
def Touches (fs : HostFs) (e : Event Op.Res) (loc : Location Bytes) : Prop :=
  ∃ path, opened e = some path ∧ fs.locate path = some loc ∧ fs loc ≠ some .directory

/-- A link of this name in the box leads to a file outside of it. -/
def LeadsOut (fs : HostFs) (boxId : Int) (name : Bytes) : Prop :=
  ∃ absolute target loc, fs (boxDir boxId ++ [name]) = some (.link absolute target) ∧
    fs.follow (maxLinks - 1) (boxDir boxId) absolute target = some loc ∧
    ¬ InBox boxId loc ∧ fs loc ≠ some .directory

/-! ## The names of a box -/

theorem inBox_name (boxId : Int) (name : Bytes) : InBox boxId (boxDir boxId ++ [name]) :=
  ⟨[name], by simp, rfl⟩

/-- A file outside of the box is touched just where a link leads out of it. -/
theorem touches_outside_iff {fs : HostFs} {boxId : Int} (hbox : IsDirectory fs (boxDir boxId))
    {e : Event Op.Res} {name : Bytes} (hname : isPlainName name = true)
    (hopened : opened e = some (Sandbox.boxPath boxId ++ name)) :
    (∃ loc, Touches fs e loc ∧ ¬ InBox boxId loc) ↔ LeadsOut fs boxId name := by
  have hlocate := locate_box hbox hname
  unfold FileSystem.arrive at hlocate
  constructor
  · rintro ⟨loc, ⟨path, hpath, hloc, hdir⟩, hout⟩
    cases hopened.symm.trans hpath
    rw [hlocate] at hloc
    split at hloc
    · next absolute target hlink => exact ⟨absolute, target, loc, hlink, hloc, hout, hdir⟩
    · cases hloc
      exact absurd (inBox_name boxId name) hout
  · rintro ⟨absolute, target, loc, hlink, hfollow, hout, hdir⟩
    rw [hlink] at hlocate
    exact ⟨loc, ⟨_, hopened, hlocate.trans hfollow, hdir⟩, hout⟩

/-! ## What a run keeps -/

/-- A box does not reach up to the directories above a box. -/
theorem outside_of_length {loc : Location Bytes} (h : loc.length ≤ 6) : Outside loc := by
  rintro boxId ⟨rest, hne, rfl⟩
  have hrest : 0 < rest.length := List.length_pos_iff.mpr hne
  simp only [boxDir, List.length_append, List.length_cons, List.length_nil] at h
  omega

variable {fs fs' fs₁ : HostFs} {e : Event Op.Res}

theorem Rearranged.isDirectory (h : Rearranged fs fs') {boxId : Int}
    (hbox : IsDirectory fs (boxDir boxId)) : IsDirectory fs' (boxDir boxId) := by
  intro d hd hne
  have hlength : d.length ≤ 6 := hd.length_le
  rw [h d (outside_of_length hlength)]
  exact hbox d hd hne

theorem Serves.isDirectory (h : Serves fs e fs') {boxId : Int}
    (hbox : IsDirectory fs (boxDir boxId)) : IsDirectory fs' (boxDir boxId) := by
  cases h with
  | truncated hloc hdir hpart => exact hbox.put hdir
  | complete hloc hdir => exact hbox.put hdir
  | created hloc hnone => exact hbox.put (by simp [hnone])
  | _ => exact hbox

/-- A file outside of the boxes changes only where an operation touches it. -/
theorem Serves.file_iff (h : Serves fs e fs') {loc : Location Bytes}
    (htouch : ¬ Touches fs e loc) (content : Bytes) :
    fs' loc = some (.file content) ↔ fs loc = some (.file content) := by
  cases h with
  | truncated hloc hdir hpart =>
    have hne : loc ≠ _ := fun heq => htouch (heq ▸ ⟨_, rfl, hloc, hdir⟩)
    rw [FileSystem.put_of_ne hne]
  | complete hloc hdir =>
    have hne : loc ≠ _ := fun heq => htouch (heq ▸ ⟨_, rfl, hloc, hdir⟩)
    rw [FileSystem.put_of_ne hne]
  | @created _ dir hloc hnone =>
    by_cases heq : loc = dir
    · subst heq
      simp [FileSystem.put, hnone]
    · rw [FileSystem.put_of_ne heq]
  | _ => exact Iff.rfl

/-- What is read is the content of the file that is touched. -/
theorem Serves.read_touches {path content : Bytes} {mode : OpenMode}
    (h : Serves fs ⟨.ifstream path mode, some content⟩ fs') (hne : content ≠ []) :
    ∃ loc, Touches fs ⟨.ifstream path mode, some content⟩ loc ∧
      fs loc = some (.file content) := by
  generalize he : (⟨.ifstream path mode, some content⟩ : Event Op.Res) = e at h
  cases h with
  | read hloc hfile =>
    cases he
    exact ⟨_, ⟨path, rfl, hloc, by simp [hfile]⟩, hfile⟩
  | readDirectory hloc hdir =>
    cases he
    exact absurd rfl hne
  | other hop =>
    subst he
    cases hop
  | _ => cases he

theorem Happens.isDirectory {steps : List (HostFs × Event Op.Res)} (h : Happens fs steps fs')
    {boxId : Int} (hbox : IsDirectory fs (boxDir boxId)) :
    (∀ step ∈ steps, IsDirectory step.1 (boxDir boxId)) ∧ IsDirectory fs' (boxDir boxId) := by
  induction h with
  | nil => exact ⟨by simp, hbox⟩
  | cons hprograms hserves hrest ih =>
    have hbox₁ := hprograms.isDirectory hbox
    obtain ⟨hsteps, hlast⟩ := ih (hserves.isDirectory hbox₁)
    exact ⟨List.forall_mem_cons.mpr ⟨hbox₁, hsteps⟩, hlast⟩

/-- A run that touches nothing outside of the boxes keeps the files there. -/
theorem Happens.file_iff {steps : List (HostFs × Event Op.Res)} (h : Happens fs steps fs')
    {loc : Location Bytes} (hout : Outside loc)
    (htouch : ∀ step ∈ steps, ¬ Touches step.1 step.2 loc) (content : Bytes) :
    fs' loc = some (.file content) ↔ fs loc = some (.file content) := by
  induction h with
  | nil => exact Iff.rfl
  | cons hprograms hserves hrest ih =>
    obtain ⟨hfirst, hothers⟩ := List.forall_mem_cons.mp htouch
    have hstep := hserves.file_iff hfirst content
    rw [ih hothers, hstep, hprograms loc hout]

theorem Happens.serves {steps : List (HostFs × Event Op.Res)} (h : Happens fs steps fs')
    {step : HostFs × Event Op.Res} (hmem : step ∈ steps) :
    ∃ fs₂, Serves step.1 step.2 fs₂ := by
  induction h with
  | nil => cases hmem
  | cons hprograms hserves hrest ih =>
    rcases List.mem_cons.mp hmem with rfl | hmem
    · exact ⟨_, hserves⟩
    · exact ih hmem

/-- All that a run opens has a plain name in the box. -/
def Local (boxId : Int) (tr : Trace Op.Res) : Prop :=
  ∀ e ∈ tr, ∀ path, opened e = some path →
    ∃ name, isPlainName name = true ∧ path = Sandbox.boxPath boxId ++ name

section

variable {boxId : Int} {tr tr' : Trace Op.Res}

@[simp] theorem local_nil : Local boxId [] := by
  simp [Local]

@[simp] theorem local_cons : Local boxId (e :: tr) ↔
    (∀ path, opened e = some path →
      ∃ name, isPlainName name = true ∧ path = Sandbox.boxPath boxId ++ name) ∧
    Local boxId tr := by
  simp [Local]

@[simp] theorem local_append : Local boxId (tr ++ tr') ↔ Local boxId tr ∧ Local boxId tr' := by
  simp [Local, or_imp, forall_and]

theorem opened_ofstream {name content : Bytes} {w : Written} (h : isPlainName name = true)
    (path : Bytes)
    (hpath : opened ⟨.ofstream (Sandbox.boxPath boxId ++ name) content, w⟩ = some path) :
    ∃ name, isPlainName name = true ∧ path = Sandbox.boxPath boxId ++ name := by
  simp only [opened] at hpath
  split at hpath
  · cases hpath
  · cases hpath
    exact ⟨name, h, rfl⟩

theorem opened_ifstream {name : Bytes} {mode : OpenMode} {content : Option Bytes}
    (h : isPlainName name = true) (path : Bytes)
    (hpath : opened ⟨.ifstream (Sandbox.boxPath boxId ++ name) mode, content⟩ = some path) :
    ∃ name, isPlainName name = true ∧ path = Sandbox.boxPath boxId ++ name := by
  cases content with
  | none => cases hpath
  | some content =>
    cases hpath
    exact ⟨name, h, rfl⟩

end

end HostFs

/-! ## The names that the judge opens -/

namespace Sandbox

open HostFs

variable {sb : Sandbox} {tr : Trace Op.Res}

theorem Executed.isLocal {args : List Bytes} {f : Bytes} {out : Except Abort SandboxResult}
    (h : Executed sb args f tr out) (hf : isPlainName f = true) : Local sb.boxId tr := by
  cases h with
  | notStarted => simp [opened]
  | thrown hret hparse =>
    refine local_cons.mpr ⟨by simp [opened], ?_⟩
    exact local_cons.mpr ⟨opened_ifstream hf, local_nil⟩
  | finished hret hparse =>
    refine local_cons.mpr ⟨by simp [opened], ?_⟩
    refine local_cons.mpr ⟨opened_ifstream hf, ?_⟩
    refine local_cons.mpr ⟨opened_ifstream output_plainName, ?_⟩
    exact local_cons.mpr ⟨opened_ifstream error_plainName, local_nil⟩

theorem Ran.isLocal {language : Bytes} {timeLimitMs memoryLimitKb : Int} {stdinInput : Bytes}
    {out : Except Abort SandboxResult}
    (h : Ran sb language timeLimitMs memoryLimitKb stdinInput tr out) : Local sb.boxId tr := by
  cases h with
  | notWritten => exact local_cons.mpr ⟨opened_ofstream input_plainName, local_nil⟩
  | unsupported hw hlang => exact local_cons.mpr ⟨opened_ofstream input_plainName, local_nil⟩
  | executed hw hlang hexec =>
    exact local_cons.mpr ⟨opened_ofstream input_plainName, hexec.isLocal runMeta_plainName⟩

theorem DirsMade.isLocal {lang : Language} {message : Option Bytes}
    (h : DirsMade sb lang tr message) : Local sb.boxId tr := by
  cases h <;> simp [opened]

theorem StderrRead.isLocal {result result' : SandboxResult}
    (h : StderrRead sb result tr result') : Local sb.boxId tr := by
  cases h with
  | filled h => exact local_nil
  | empty h => exact local_cons.mpr ⟨opened_ifstream error_plainName, local_nil⟩

theorem Compiled.isLocal {language sourceCode : Bytes}
    {out : Except Abort (Sandbox × SandboxResult)}
    (h : Compiled sb language sourceCode tr out) : Local sb.boxId tr := by
  cases h with
  | unsupported hlang => exact local_nil
  | noDirs hlang hdirs => exact hdirs.isLocal
  | notWritten hlang hdirs =>
    refine local_append.mpr ⟨hdirs.isLocal, ?_⟩
    exact local_cons.mpr ⟨opened_ofstream (sourceFile_plainName sourceCode _), local_nil⟩
  | thrown hlang hdirs hw hexec =>
    refine local_append.mpr ⟨hdirs.isLocal, ?_⟩
    refine local_cons.mpr ⟨opened_ofstream (sourceFile_plainName sourceCode _), ?_⟩
    exact hexec.isLocal compileMeta_plainName
  | executed hlang hdirs hw hexec htail =>
    refine local_append.mpr ⟨hdirs.isLocal, ?_⟩
    refine local_cons.mpr ⟨opened_ofstream (sourceFile_plainName sourceCode _), ?_⟩
    exact local_append.mpr ⟨hexec.isLocal compileMeta_plainName, htail.isLocal⟩

end Sandbox

namespace JudgeEngine

open HostFs

theorem Looped.isLocal {sandbox : Sandbox} {submission : SubmissionMessage} {i : Nat}
    {p : Progress} {testcases : List TestCase} {tr : Trace Op.Res}
    {out : Except Abort JudgeResultInternal}
    (h : Looped sandbox submission i p testcases tr out) : Local sandbox.boxId tr := by
  induction h with
  | finished => simp [opened]
  | thrown hrun => exact hrun.isLocal
  | stopped hrun hverdict hstop => exact local_append.mpr ⟨hrun.isLocal, by simp [opened]⟩
  | next hrun hverdict haccepted hrest ih => exact local_append.mpr ⟨hrun.isLocal, ih⟩

/-- `judge` opens plain names in the box that it has acquired. -/
theorem Judged.isLocal {cfg : IsolateConfig} {submission : SubmissionMessage} {tr : Trace Op.Res}
    {out : Except Abort JudgeResultInternal} (h : Judged cfg submission tr out) {boxId : Int}
    (hbox : tr.head? = some ⟨.acquire, boxId⟩) : Local boxId tr := by
  cases h with
  | compileThrown hcompile =>
    cases hbox
    exact local_cons.mpr ⟨by simp [opened], hcompile.isLocal⟩
  | compileFailed hcompile hexit =>
    cases hbox
    refine local_cons.mpr ⟨by simp [opened], ?_⟩
    exact local_append.mpr ⟨hcompile.isLocal, by simp [opened]⟩
  | looped hcompile hexit hloop =>
    cases hbox
    have hloopLocal := hloop.isLocal
    rw [hcompile.boxId] at hloopLocal
    refine local_cons.mpr ⟨by simp [opened], ?_⟩
    exact local_append.mpr ⟨hcompile.isLocal, hloopLocal⟩

end JudgeEngine

/-! ## Sessions -/

namespace JudgeEngine

open HostFs Sandbox

/-- One call of `judge` on a host. -/
structure Judging where
  submission : SubmissionMessage
  boxId : Int
  steps : List (HostFs × Event Op.Res)
  out : Except Abort JudgeResultInternal

def Judging.trace (J : Judging) : Trace Op.Res :=
  J.steps.map (·.2)

/-- A sequence of submissions, judged one after the other on one host. -/
inductive Session (cfg : IsolateConfig) : HostFs → List Judging → HostFs → Prop where
  | nil {fs : HostFs} : Session cfg fs [] fs
  | cons {fs fs₁ fs₂ : HostFs} {J : Judging} {Js : List Judging}
      (hruns : (judge cfg J.submission).Runs J.trace J.out)
      (hbox : J.trace.head? = some ⟨.acquire, J.boxId⟩) (hhappens : Happens fs J.steps fs₁)
      (hrest : Session cfg fs₁ Js fs₂) :
      Session cfg fs (J :: Js) fs₂

/-- Every file that the worker touches is in the box of the submission; the files outside
    of the boxes stay as they are, and what is read is the content of a file in the box. -/
structure Confined (fs : HostFs) (Js : List Judging) (fs' : HostFs) : Prop where
  inside : ∀ J ∈ Js, ∀ step ∈ J.steps, ∀ loc, Touches step.1 step.2 loc → InBox J.boxId loc
  overwritten : ∀ loc content, Outside loc →
    (fs' loc = some (.file content) ↔ fs loc = some (.file content))
  read : ∀ J ∈ Js, ∀ step ∈ J.steps, ∀ path mode content,
    step.2 = ⟨.ifstream path mode, some content⟩ → content ≠ [] →
    ∃ loc, InBox J.boxId loc ∧ step.1 loc = some (.file content)

/-- What holds of each step of a session. -/
theorem Session.step {cfg : IsolateConfig} {fs fs' : HostFs} {Js : List Judging}
    (h : Session cfg fs Js fs') (hbox : ∀ J ∈ Js, IsDirectory fs (boxDir J.boxId)) :
    ∀ J ∈ Js, Local J.boxId J.trace ∧ ∀ step ∈ J.steps,
      IsDirectory step.1 (boxDir J.boxId) ∧ ∃ fs₂, Serves step.1 step.2 fs₂ := by
  induction h with
  | nil => simp
  | cons hruns hacquire hhappens hrest ih =>
    obtain ⟨hfirst, hothers⟩ := List.forall_mem_cons.mp hbox
    refine List.forall_mem_cons.mpr ⟨⟨(judge_runs hruns).isLocal hacquire, ?_⟩, ?_⟩
    · intro step hstep
      exact ⟨(hhappens.isDirectory hfirst).1 step hstep, hhappens.serves hstep⟩
    · exact ih fun J hJ => (hhappens.isDirectory (hothers J hJ)).2

/-- A session that touches nothing outside of the boxes keeps the files there. -/
theorem Session.file_iff {cfg : IsolateConfig} {fs fs' : HostFs} {Js : List Judging}
    (h : Session cfg fs Js fs') {loc : Location Bytes} (hout : Outside loc)
    (htouch : ∀ J ∈ Js, ∀ step ∈ J.steps, ¬ Touches step.1 step.2 loc) (content : Bytes) :
    fs' loc = some (.file content) ↔ fs loc = some (.file content) := by
  induction h with
  | nil => exact Iff.rfl
  | cons hruns hacquire hhappens hrest ih =>
    obtain ⟨hfirst, hothers⟩ := List.forall_mem_cons.mp htouch
    exact (ih hothers).trans (hhappens.file_iff hout hfirst content)

/-- The worker's own accesses stay inside of the boxes when and only when it never opens a
    name under which a program has left a link to a file outside. -/
theorem session_confined_iff {cfg : IsolateConfig} {fs fs' : HostFs} {Js : List Judging}
    (hbox : ∀ J ∈ Js, IsDirectory fs (boxDir J.boxId)) (h : Session cfg fs Js fs') :
    Confined fs Js fs' ↔ ∀ J ∈ Js, ∀ step ∈ J.steps, ∀ name,
      opened step.2 = some (boxPath J.boxId ++ name) → ¬ LeadsOut step.1 J.boxId name := by
  have hsteps := h.step hbox
  constructor
  · intro hconfined J hJ step hstep name hopened hleads
    obtain ⟨hlocal, hstepJ⟩ := hsteps J hJ
    obtain ⟨name', hname, heq⟩ :=
      hlocal step.2 (List.mem_map_of_mem hstep) _ hopened
    have hsame : name = name' := List.append_cancel_left heq
    have htouches := touches_outside_iff (hstepJ step hstep).1 hname (hsame ▸ hopened)
    obtain ⟨loc, htouch, hout⟩ := htouches.mpr (hsame ▸ hleads)
    exact hout (hconfined.inside J hJ step hstep loc htouch)
  · intro hlinks
    have hinside : ∀ J ∈ Js, ∀ step ∈ J.steps, ∀ loc, Touches step.1 step.2 loc →
        InBox J.boxId loc := by
      intro J hJ step hstep loc htouch
      obtain ⟨hlocal, hstepJ⟩ := hsteps J hJ
      obtain ⟨path, hopened, hloc⟩ := htouch
      obtain ⟨name, hname, rfl⟩ := hlocal step.2 (List.mem_map_of_mem hstep) path hopened
      have htouches := touches_outside_iff (hstepJ step hstep).1 hname hopened
      by_contra hout
      exact hlinks J hJ step hstep name hopened (htouches.mp ⟨loc, ⟨_, hopened, hloc⟩, hout⟩)
    refine ⟨hinside, ?_, ?_⟩
    · intro loc content hout
      refine h.file_iff hout (fun J hJ step hstep htouch => ?_) content
      exact hout J.boxId (hinside J hJ step hstep loc htouch)
    · intro J hJ step hstep path mode content hread hne
      obtain ⟨fs₂, hserves⟩ := ((hsteps J hJ).2 step hstep).2
      rw [hread] at hserves
      obtain ⟨loc, htouch, hfile⟩ := hserves.read_touches hne
      exact ⟨loc, hinside J hJ step hstep loc (hread ▸ htouch), hfile⟩

/-! ## A box with one entry -/

def solutionFile : Location Bytes :=
  boxDir 1 ++ [("solution.py" : Bytes)]

def passwdFile : Location Bytes :=
  [("etc" : Bytes), "passwd"]

/-- A host with an initialised box 1 that holds one entry, `solution.py`. -/
def hostWith (entry : Entry Bytes Bytes) : HostFs := fun loc =>
  if loc = solutionFile then some entry
  else if loc = passwdFile then some (.file "root:x:0:0")
  else if loc <+: boxDir 1 ∨ loc = [("etc" : Bytes)] then some .directory
  else none

theorem hostWith_isDirectory (entry : Entry Bytes Bytes) :
    IsDirectory (hostWith entry) (boxDir 1) := by
  intro d hd hne
  have hlength : d.length ≤ 6 := hd.length_le
  have hsolution : d ≠ solutionFile := by
    rintro rfl
    simp [solutionFile, boxDir] at hlength
  have hpasswd : d ≠ passwdFile := by
    rintro rfl
    exact absurd hd (by decide)
  rw [hostWith, if_neg hsolution, if_neg hpasswd, if_pos (.inl hd)]

/-- A host whose shell cannot be started. -/
def noShell : Handler Op.Res Unit := fun op s =>
  match op with
  | .system _ => ((-1 : Int), s)
  | op => Host.fixed (fun _ => none) op s

def oneLiner : SubmissionMessage :=
  { problemId := 3, language := "python", code := "print(1)", testcases := [] }

/-- The judging of `oneLiner` without a shell: from `fs`, with its source written so that
    the host is `fs'` then. -/
def oneLinerJudging (fs fs' : HostFs) : Judging where
  submission := oneLiner
  boxId := 1
  steps :=
    [(fs, ⟨.acquire, (1 : Int)⟩),
      (fs, ⟨.ofstream (boxPath 1 ++ "solution.py") "print(1)", .complete⟩),
      (fs', ⟨.system ((make 1 {}).commandLine (compileArgs 1 "solution.py" .python)
        "compile_meta.txt"), (-1 : Int)⟩),
      (fs', ⟨.release 1, ()⟩)]
  out := ((judge {} oneLiner).eval noShell ()).1

theorem oneLiner_session {fs fs₁ fs₂ : HostFs} {Js : List Judging} {loc : Location Bytes}
    (hprograms : Rearranged fs fs₁) (hloc : fs₁.locate (boxPath 1 ++ "solution.py") = some loc)
    (hdir : fs₁ loc ≠ some .directory)
    (hrest : Session {} (fs₁.put loc (.file "print(1)")) Js fs₂) :
    Session {} fs (oneLinerJudging fs₁ (fs₁.put loc (.file "print(1)")) :: Js) fs₂ := by
  have hsame : ∀ fs : HostFs, Rearranged fs fs := fun fs loc _ => rfl
  refine .cons (Prog.runs_trace (judge {} oneLiner) noShell ()) rfl ?_ hrest
  refine .cons hprograms (.other rfl) ?_
  refine .cons (hsame _) (.complete hloc hdir) ?_
  refine .cons (hsame _) (.other rfl) ?_
  exact .cons (hsame _) (.other rfl) .nil

theorem hostWith_put (entry entry' : Entry Bytes Bytes) :
    FileSystem.put (hostWith entry) solutionFile entry' = hostWith entry' := by
  funext loc
  by_cases hloc : loc = solutionFile
  · simp [FileSystem.put, hostWith, hloc]
  · simp [FileSystem.put, hostWith, hloc]

/-- The two hosts differ inside of box 1. -/
theorem hostWith_rearranged (entry entry' : Entry Bytes Bytes) :
    Rearranged (hostWith entry) (hostWith entry') := by
  intro loc hout
  have hloc : loc ≠ solutionFile := by
    rintro rfl
    exact hout 1 (inBox_name 1 "solution.py")
  simp [hostWith, hloc]

def notesFile : Location Bytes :=
  boxDir 1 ++ [("notes.py" : Bytes)]

/-- The source file of box 1 is a link to another file of the box. -/
def linkedHost : HostFs :=
  hostWith (.link false [.name "notes.py"])

/-- Nowhere in the box stands a link but to `notes.py`. -/
def OnlyNotes (fs : HostFs) : Prop :=
  fs.follow (maxLinks - 1) (boxDir 1) false [.name "notes.py"] = some notesFile ∧
    ∀ name absolute target, fs (boxDir 1 ++ [name]) = some (.link absolute target) →
      absolute = false ∧ target = [.name "notes.py"]

theorem OnlyNotes.not_leadsOut {fs : HostFs} (h : OnlyNotes fs) (name : Bytes) :
    ¬ LeadsOut fs 1 name := by
  rintro ⟨absolute, target, loc, hlink, hfollow, hout, -⟩
  obtain ⟨rfl, rfl⟩ := h.2 name absolute target hlink
  cases h.1.symm.trans hfollow
  exact hout (inBox_name 1 "notes.py")

theorem onlyNotes_hostWith {entry : Entry Bytes Bytes}
    (hfollow : (hostWith entry).follow (maxLinks - 1) (boxDir 1) false [.name "notes.py"] =
      some notesFile)
    (hentry : ∀ absolute target, entry = .link absolute target →
      absolute = false ∧ target = [.name "notes.py"]) : OnlyNotes (hostWith entry) := by
  refine ⟨hfollow, fun name absolute target hlink => ?_⟩
  unfold hostWith at hlink
  split at hlink
  · exact hentry absolute target (Option.some.inj hlink)
  · repeat' split at hlink
    all_goals cases hlink

theorem onlyNotes_linkedHost : OnlyNotes linkedHost := by
  refine onlyNotes_hostWith (by decide +kernel) fun absolute target heq => ?_
  cases heq
  exact ⟨rfl, rfl⟩

/-- Two submissions in one box. Between them a program makes the source file a link to
    another file of the box, which the second source then overwrites. -/
theorem session_confined_iff_twoLiners :
    Confined (hostWith (.file []))
      [oneLinerJudging (hostWith (.file [])) (hostWith (.file "print(1)")),
        oneLinerJudging linkedHost (linkedHost.put notesFile (.file "print(1)"))]
      (linkedHost.put notesFile (.file "print(1)")) := by
  have hfirst : (hostWith (.file [])).locate (boxPath 1 ++ "solution.py") = some solutionFile := by
    decide +kernel
  have hsecond : linkedHost.locate (boxPath 1 ++ "solution.py") = some notesFile := by
    decide +kernel
  have hsession : Session {} (hostWith (.file []))
      [oneLinerJudging (hostWith (.file [])) (hostWith (.file "print(1)")),
        oneLinerJudging linkedHost (linkedHost.put notesFile (.file "print(1)"))]
      (linkedHost.put notesFile (.file "print(1)")) := by
    rw [← hostWith_put (.file []) (.file "print(1)")]
    refine oneLiner_session (hostWith_rearranged _ _) hfirst (by decide) ?_
    rw [hostWith_put]
    exact oneLiner_session (hostWith_rearranged _ _) hsecond (by decide) .nil
  have hplain : ∀ content : Bytes, OnlyNotes (hostWith (.file content)) := fun content =>
    onlyNotes_hostWith rfl nofun
  have hwritten : OnlyNotes (linkedHost.put notesFile (.file "print(1)")) := by
    refine ⟨by decide +kernel, fun name absolute target hlink => ?_⟩
    by_cases hname : boxDir 1 ++ [name] = notesFile
    · simp [FileSystem.put, hname] at hlink
    · rw [FileSystem.put_of_ne hname] at hlink
      exact onlyNotes_linkedHost.2 name absolute target hlink
  refine (session_confined_iff (by simp [oneLinerJudging, hostWith_isDirectory]) hsession).mpr ?_
  have hlinks : ∀ fs fs', OnlyNotes fs → OnlyNotes fs' →
      ∀ step ∈ (oneLinerJudging fs fs').steps, ∀ name,
        opened step.2 = some (boxPath 1 ++ name) → ¬ LeadsOut step.1 1 name := by
    intro fs fs' hfs hfs' step hstep name _
    simp only [oneLinerJudging, List.mem_cons, List.not_mem_nil, or_false] at hstep
    rcases hstep with rfl | rfl | rfl | rfl
    · exact hfs.not_leadsOut name
    · exact hfs.not_leadsOut name
    · exact hfs'.not_leadsOut name
    · exact hfs'.not_leadsOut name
  simp only [List.forall_mem_cons]
  exact ⟨hlinks _ _ (hplain _) (hplain _), hlinks _ _ onlyNotes_linkedHost hwritten, by simp⟩

/-- An earlier program has left a link under the name of the source file: the source
    overwrites a file of the host. -/
theorem not_always_confined :
    ¬ ∀ (cfg : IsolateConfig) (fs fs' : HostFs) (Js : List Judging),
      (∀ J ∈ Js, IsDirectory fs (boxDir J.boxId)) → Session cfg fs Js fs' → Confined fs Js fs' := by
  intro h
  let fs := hostWith (.link true [.name "etc", .name "passwd"])
  have hloc : fs.locate (boxPath 1 ++ "solution.py") = some passwdFile := by decide +kernel
  have hdir : fs passwdFile ≠ some .directory := by decide
  have hconfined := h {} fs _ _ (List.forall_mem_singleton.mpr (hostWith_isDirectory _))
    (oneLiner_session (fun _ _ => rfl) hloc hdir .nil)
  have hin : InBox 1 passwdFile :=
    hconfined.inside _ (List.mem_singleton_self _) _ (.tail _ (.head _)) _ ⟨_, rfl, hloc, hdir⟩
  obtain ⟨rest, -, heq⟩ := hin
  have hlength := congrArg List.length heq
  simp [boxDir, passwdFile] at hlength

end JudgeEngine
