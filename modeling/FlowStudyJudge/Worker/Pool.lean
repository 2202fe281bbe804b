-- SUMMARY: The pool of one process from its beginning on: the boxes that its constructor has made, and what `judge` takes and gives back.
import FlowStudyJudge.Judge.BoxPool
import FlowStudyJudge.Storage.Turns

/-! # The pool of a process -/

/-! ## What is done with it -/

namespace Host

/-- What a trace does with the pool. -/
def uses (tr : Trace Op.Res) : List (Pool.Use Int) :=
  tr.filterMap fun e =>
    match e with
    | ⟨.acquire, boxId⟩ => some (.take boxId)
    | ⟨.release boxId, _⟩ => some (.give boxId)
    | _ => none

@[simp] theorem uses_append (tr₁ tr₂ : Trace Op.Res) :
    uses (tr₁ ++ tr₂) = uses tr₁ ++ uses tr₂ := by
  simp [uses]

theorem uses_of_acquired {tr : Trace Op.Res} (h : acquired tr = []) :
    uses tr = (released tr).map .give := by
  induction tr with
  | nil => rfl
  | cons e tr ih =>
    obtain ⟨op, res⟩ := e
    cases op with
    | acquire => cases h
    | release boxId => exact congrArg (_ :: ·) (ih h)
    | _ => exact ih h

theorem Inner.uses {tr : Trace Op.Res} (h : Inner tr) : uses tr = [] := by
  rw [uses_of_acquired h.acquired, h.released, List.map_nil]

end Host

open Host

/-- The pool, as what is done with it. -/
theorem BoxPool.path_iff_serves {tr : Trace Op.Res} {available available' : List Int} :
    World.Path BoxPool.Serves available tr available' ↔
      Pool.Serves available (uses tr) available' := by
  induction tr generalizing available with
  | nil =>
    rw [World.path_nil]
    constructor
    · rintro rfl
      exact .nil
    · rintro ⟨⟩
      rfl
  | cons e tr ih =>
    rw [World.path_cons]
    constructor
    · rintro ⟨s, hserves, hpath⟩
      have hrest := ih.mp hpath
      cases hserves with
      | acquire => exact .take hrest
      | release => exact .give hrest
      | @other op res available hacquire hrelease =>
        have huses : uses (⟨op, res⟩ :: tr) = uses tr := by
          cases op with
          | acquire => exact absurd rfl hacquire
          | release boxId => exact absurd rfl (hrelease boxId)
          | _ => rfl
        rw [huses]
        exact hrest
    · intro h
      obtain ⟨op, res⟩ := e
      cases op with
      | acquire =>
        cases h with
        | take h => exact ⟨_, .acquire, ih.mpr h⟩
      | release boxId =>
        cases h with
        | give h => exact ⟨_, .release, ih.mpr h⟩
      | _ => exact ⟨_, .other nofun nofun, ih.mpr h⟩

/-- `judge` takes one box, and gives it back if it returns. -/
theorem JudgeEngine.judge_uses {cfg : IsolateConfig} {submission : SubmissionMessage}
    {tr : Trace Op.Res} {out : Except Abort JudgeResultInternal}
    (h : (judge cfg submission).Runs tr out) :
    ∃ boxId, acquired tr = [boxId] ∧
      uses tr = .take boxId :: if out.toBool then [.give boxId] else [] := by
  obtain ⟨-, boxId, hacquired, hreleased⟩ := judge_pool h
  refine ⟨boxId, hacquired, ?_⟩
  unfold judge Host.acquire at h
  obtain ⟨first, rest, rfl, -⟩ := Prog.runs_perform_bind.mp h
  obtain ⟨rfl, hnone⟩ := List.cons.inj (hacquired : first :: acquired rest = [boxId])
  change released rest = _ at hreleased
  have huses : uses (⟨.acquire, first⟩ :: rest) = .take first :: uses rest := rfl
  rw [huses, uses_of_acquired hnone, hreleased]
  split <;> rfl

/-- A call of `judge` that returns takes the first box and puts it back at the end. -/
theorem JudgeEngine.judge_serves {cfg : IsolateConfig} {submission : SubmissionMessage}
    {tr : Trace Op.Res} {result : JudgeResultInternal} {boxId : Int}
    (h : (judge cfg submission).Runs tr (.ok result)) (hbox : acquired tr = [boxId])
    (available : List Int) :
    World.Path BoxPool.Serves (boxId :: available) tr (available ++ [boxId]) := by
  obtain ⟨boxId', hacquired, huses⟩ := judge_uses h
  cases hbox.symm.trans hacquired
  rw [BoxPool.path_iff_serves, huses]
  exact .take (.give .nil)

/-- The database is nothing to the pool. -/
theorem BoxPool.serves_database {tr : Trace Op.Res} (h : Trace.Only Op.isDatabase tr)
    (available : List Int) : World.Path Serves available tr available := by
  rw [path_iff_serves, (Host.inner_database h).uses]
  exact .nil

/-! ## How it comes to be

`BoxPool.Serves` is about a pool that is there. In the beginning, when the `--init` of a box
has succeeded, `init` makes the directory of the box and returns, and the constructor puts the
box into the queue. Nothing else makes these directories. -/

/-- The directory of a box, and not one of the directories in it. -/
def Op.isBoxDir : Op → Bool
  | .mkdir path => path.getLast? = some '/'.toUInt8
  | _ => false

@[simp] theorem Op.isBoxDir_append (path suffix : Bytes) (h : suffix ≠ []) :
    Op.isBoxDir (.mkdir (path ++ suffix)) = decide (suffix.getLast? = some '/'.toUInt8) := by
  rw [Op.isBoxDir, List.getLast?_append_of_ne_nil path h]

theorem Op.isBoxDir_boxPath (boxId : Int) :
    Op.isBoxDir (.mkdir (Sandbox.boxPath boxId)) = true := by
  unfold Sandbox.boxPath
  rw [Op.isBoxDir_append _ _ (by decide)]
  decide

namespace BoxPool

/-- The pool of a process. -/
inductive Evolves : World Op.Res (List Int) where
  | made {boxId : Int} {made : MkdirResult} {available : List Int} :
      Evolves available ⟨.mkdir (Sandbox.boxPath boxId), made⟩ (available ++ [boxId])
  | serves {e : Event Op.Res} {available available' : List Int} (h : Serves available e available')
      (hdir : ∀ boxId, e.op ≠ .mkdir (Sandbox.boxPath boxId)) : Evolves available e available'

variable {available available' available'' : List Int} {e : Event Op.Res} {tr : Trace Op.Res}

theorem Serves.unique (h : Serves available e available') (h' : Serves available e available'') :
    available' = available'' := by
  cases h with
  | acquire =>
    cases h' with
    | acquire => rfl
    | other hacquire => exact absurd rfl hacquire
  | release =>
    cases h' with
    | release => rfl
    | other _ hrelease => exact absurd rfl (hrelease _)
  | other hacquire hrelease =>
    cases h' with
    | acquire => exact absurd rfl hacquire
    | release => exact absurd rfl (hrelease _)
    | other => rfl

theorem Evolves.unique (h : Evolves available e available') (h' : Evolves available e available'') :
    available' = available'' := by
  cases h with
  | @made boxId made =>
    generalize hop : (⟨.mkdir (Sandbox.boxPath boxId), made⟩ : Event Op.Res) = e at h'
    cases h' with
    | @made boxId' made' =>
      have hpath : Sandbox.boxPath boxId = Sandbox.boxPath boxId' := by
        injection hop with hop
        injection hop
      have hid := List.append_cancel_left (List.append_cancel_right hpath)
      rw [Bytes.ofInt_inj hid]
    | serves _ hdir => exact absurd (congrArg Event.op hop).symm (hdir boxId)
  | serves h hdir =>
    cases h' with
    | made => exact absurd rfl (hdir _)
    | serves h' => exact h.unique h'

theorem evolves_unique (h : World.Path Evolves available tr available')
    (h' : World.Path Evolves available tr available'') : available' = available'' := by
  induction h with
  | nil => exact (World.path_nil.mp h').symm
  | cons hstep _ ih =>
    obtain ⟨s, hstep', hrest⟩ := World.path_cons.mp h'
    obtain rfl := hstep.unique hstep'
    exact ih hrest

/-- Behind the constructor the pool is what the constructor returns. -/
theorem InitRan.evolves {cfg : IsolateConfig} {ids boxIds : List Int}
    (h : InitRan cfg ids tr boxIds) (available : List Int) :
    World.Path Evolves available tr (available ++ boxIds) := by
  induction h generalizing available with
  | nil =>
    rw [List.append_nil]
    exact .nil
  | failed hret hrest ih =>
    exact .cons (.serves (.other nofun nofun) nofun) (ih available)
  | @ready boxId made ids boxIds tr hrest ih =>
    have hpath := ih (available ++ [boxId])
    rw [List.append_assoc] at hpath
    exact .cons (.serves (.other nofun nofun) nofun) (.cons .made hpath)

theorem make_evolves {cfg : IsolateConfig} {count : Int} {boxes : List Int}
    (h : (make cfg count).Runs tr (.ok boxes)) : World.Path Evolves [] tr boxes := by
  obtain ⟨_, hout, hran⟩ := initBoxes_runs h
  cases hout
  exact hran.evolves []

/-- Elsewhere the pool serves. -/
theorem Evolves.of_noDir (h : Evolves available e available') (hdir : e.op.isBoxDir = false) :
    Serves available e available' := by
  cases h with
  | @made boxId =>
    rw [Op.isBoxDir_boxPath] at hdir
    cases hdir
  | serves h => exact h

theorem evolves_of_serves (h : World.Path Serves available tr available')
    (hdir : Trace.Only (fun op => !op.isBoxDir) tr) : World.Path Evolves available tr available' := by
  induction h with
  | nil => exact .nil
  | cons hstep _ ih =>
    obtain ⟨he, hrest⟩ := Trace.only_cons.mp hdir
    refine .cons (.serves hstep fun boxId hop => ?_) (ih hrest)
    rw [hop, Op.isBoxDir_boxPath] at he
    cases he

end BoxPool

/-! ## No other directories -/

namespace Sandbox

variable {sb : Sandbox} {tr : Trace Op.Res}

theorem Executed.noBoxDir {args : List Bytes} {f : Bytes} {out : Except Abort SandboxResult}
    (h : Executed sb args f tr out) : Trace.Only (fun op => !op.isBoxDir) tr := by
  cases h <;> simp [Op.isBoxDir]

theorem Ran.noBoxDir {language : Bytes} {timeLimitMs memoryLimitKb : Int} {stdinInput : Bytes}
    {out : Except Abort SandboxResult}
    (h : Ran sb language timeLimitMs memoryLimitKb stdinInput tr out) :
    Trace.Only (fun op => !op.isBoxDir) tr := by
  cases h with
  | notWritten | unsupported => simp [Op.isBoxDir]
  | executed hw hlang hexec => exact Trace.only_cons.mpr ⟨rfl, hexec.noBoxDir⟩

/-- The directories for Go lie in the box. -/
theorem DirsMade.noBoxDir {lang : Language} {message : Option Bytes}
    (h : DirsMade sb lang tr message) : Trace.Only (fun op => !op.isBoxDir) tr := by
  have htmp : Op.isBoxDir (.mkdir (sb.path "tmp")) = false := by
    rw [path, Op.isBoxDir_append _ _ (by decide)]
    decide
  have hcache : Op.isBoxDir (.mkdir (sb.path "tmp" ++ "/go-cache")) = false := by
    rw [Op.isBoxDir_append _ _ (by decide)]
    decide
  cases h <;> simp [htmp, hcache]

theorem StderrRead.noBoxDir {result result' : SandboxResult}
    (h : StderrRead sb result tr result') : Trace.Only (fun op => !op.isBoxDir) tr := by
  cases h <;> simp [Op.isBoxDir]

theorem Compiled.noBoxDir {language sourceCode : Bytes}
    {out : Except Abort (Sandbox × SandboxResult)}
    (h : Compiled sb language sourceCode tr out) : Trace.Only (fun op => !op.isBoxDir) tr := by
  cases h with
  | unsupported hlang => simp
  | noDirs hlang hdirs => exact hdirs.noBoxDir
  | notWritten hlang hdirs =>
    exact Trace.only_append.mpr ⟨hdirs.noBoxDir, by simp [Op.isBoxDir]⟩
  | thrown hlang hdirs hw hexec =>
    exact Trace.only_append.mpr ⟨hdirs.noBoxDir, Trace.only_cons.mpr ⟨rfl, hexec.noBoxDir⟩⟩
  | executed hlang hdirs hw hexec htail =>
    exact Trace.only_append.mpr ⟨hdirs.noBoxDir, Trace.only_cons.mpr
      ⟨rfl, Trace.only_append.mpr ⟨hexec.noBoxDir, htail.noBoxDir⟩⟩⟩

end Sandbox

namespace JudgeEngine

theorem Looped.noBoxDir {sandbox : Sandbox} {submission : SubmissionMessage} {i : Nat}
    {p : Progress} {testcases : List TestCase} {tr : Trace Op.Res}
    {out : Except Abort JudgeResultInternal}
    (h : Looped sandbox submission i p testcases tr out) :
    Trace.Only (fun op => !op.isBoxDir) tr := by
  induction h with
  | finished => simp [Op.isBoxDir]
  | thrown hrun => exact hrun.noBoxDir
  | stopped hrun hverdict hstop =>
    exact Trace.only_append.mpr ⟨hrun.noBoxDir, by simp [Op.isBoxDir]⟩
  | next hrun hverdict haccepted hrest ih => exact Trace.only_append.mpr ⟨hrun.noBoxDir, ih⟩

theorem judge_noBoxDir {cfg : IsolateConfig} {submission : SubmissionMessage}
    {tr : Trace Op.Res} {out : Except Abort JudgeResultInternal}
    (h : (judge cfg submission).Runs tr out) : Trace.Only (fun op => !op.isBoxDir) tr := by
  cases judge_runs h with
  | compileThrown hcompile => exact Trace.only_cons.mpr ⟨rfl, hcompile.noBoxDir⟩
  | compileFailed hcompile hexit =>
    exact Trace.only_cons.mpr
      ⟨rfl, Trace.only_append.mpr ⟨hcompile.noBoxDir, by simp [Op.isBoxDir]⟩⟩
  | looped hcompile hexit hloop =>
    exact Trace.only_cons.mpr ⟨rfl, Trace.only_append.mpr ⟨hcompile.noBoxDir, hloop.noBoxDir⟩⟩

end JudgeEngine

namespace Worker

theorem noBoxDir_database {tr : Trace Op.Res} (h : Trace.Only Op.isDatabase tr) :
    Trace.Only (fun op => !op.isBoxDir) tr :=
  h.mono fun op hop => by cases op <;> first | rfl | cases hop

theorem onMessage_noBoxDir {parse : Bytes → Option Json} {w : Worker} {tag : UInt64}
    {body : Bytes} {tr : Trace Op.Res} {out : Except Abort Worker}
    (hmq : w.mq.connected = true) (h : (w.onMessage parse tag body).Runs tr out) :
    Trace.Only (fun op => !op.isBoxDir) tr := by
  cases hparse : JudgeEngine.parseMessage parse body with
  | none =>
    obtain ⟨b, rfl, -⟩ := onMessage_rejected_runs hmq hparse h
    simp [Op.isBoxDir]
  | some submission =>
    cases onMessage_accepted_runs hmq hparse h with
    | thrown hjudge => exact JudgeEngine.judge_noBoxDir hjudge
    | acked hjudge hping hupdate | nacked hjudge hping hupdate =>
      exact Trace.only_append.mpr ⟨JudgeEngine.judge_noBoxDir hjudge,
        Trace.only_append.mpr ⟨noBoxDir_database hping.only,
          Trace.only_append.mpr ⟨noBoxDir_database hupdate.only, by simp [Op.isBoxDir]⟩⟩⟩
    | crashed hjudge hping hupdate =>
      exact Trace.only_append.mpr ⟨JudgeEngine.judge_noBoxDir hjudge,
        Trace.only_append.mpr ⟨noBoxDir_database hping.only, noBoxDir_database hupdate.only⟩⟩

end Worker
