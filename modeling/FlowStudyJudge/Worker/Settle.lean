-- SUMMARY: What a delivery does besides judging: its settlements, and the boxes that it takes and gives back.
import FlowStudyJudge.Worker.Behaviour
import FlowStudyJudge.Judge.Exceptions

/-! # Settling a delivery -/

namespace Host

/-- The settlements that a run issues. -/
def settlements (tr : Trace Op.Res) : List Op :=
  (tr.map (·.op)).filter fun op =>
    match op with
    | .basicAck _ | .basicNack _ => true
    | _ => false

/-- The boxes that a run takes from the pool. -/
def acquired (tr : Trace Op.Res) : List Int :=
  tr.filterMap fun e =>
    match e with
    | ⟨.acquire, boxId⟩ => some boxId
    | _ => none

/-- The boxes that a run gives back. -/
def released (tr : Trace Op.Res) : List Int :=
  tr.filterMap fun e =>
    match e with
    | ⟨.release boxId, _⟩ => some boxId
    | _ => none

/-- The operations of the judge that touch neither the delivery nor the pool. -/
def Inner (tr : Trace Op.Res) : Prop :=
  Trace.Only (fun op => op.isSandbox || op.isDatabase) tr

theorem inner_sandbox {tr : Trace Op.Res} (h : Trace.Only Op.isSandbox tr) : Inner tr :=
  h.mono fun op hop => by simp [hop]

theorem inner_database {tr : Trace Op.Res} (h : Trace.Only Op.isDatabase tr) : Inner tr :=
  h.mono fun op hop => by simp [hop]

@[simp] theorem settlements_append (tr₁ tr₂ : Trace Op.Res) :
    settlements (tr₁ ++ tr₂) = settlements tr₁ ++ settlements tr₂ := by
  simp [settlements]

@[simp] theorem acquired_append (tr₁ tr₂ : Trace Op.Res) :
    acquired (tr₁ ++ tr₂) = acquired tr₁ ++ acquired tr₂ := by
  simp [acquired]

@[simp] theorem released_append (tr₁ tr₂ : Trace Op.Res) :
    released (tr₁ ++ tr₂) = released tr₁ ++ released tr₂ := by
  simp [released]

theorem Inner.settlements {tr : Trace Op.Res} (h : Inner tr) : settlements tr = [] := by
  unfold Host.settlements
  rw [List.filter_eq_nil_iff]
  intro op hop
  obtain ⟨e, he, rfl⟩ := List.mem_map.mp hop
  have hinner := h e he
  revert hinner
  cases e.op <;> simp [Op.isSandbox, Op.isDatabase]

theorem noSettlement_of_settlements {tr : Trace Op.Res} (h : settlements tr = []) :
    Trace.Only (fun op => !op.isSettlement) tr := by
  intro e he
  have hnot := List.filter_eq_nil_iff.mp h e.op (List.mem_map.mpr ⟨e, he, rfl⟩)
  revert hnot
  cases e.op <;> simp [Op.isSettlement]

theorem Inner.acquired {tr : Trace Op.Res} (h : Inner tr) : acquired tr = [] := by
  unfold Host.acquired
  rw [List.filterMap_eq_nil_iff]
  rintro ⟨op, res⟩ he
  have hinner := h _ he
  cases op <;> simp [Op.isSandbox, Op.isDatabase] at hinner ⊢

theorem Inner.released {tr : Trace Op.Res} (h : Inner tr) : released tr = [] := by
  unfold Host.released
  rw [List.filterMap_eq_nil_iff]
  rintro ⟨op, res⟩ he
  have hinner := h _ he
  cases op <;> simp [Op.isSandbox, Op.isDatabase] at hinner ⊢

end Host

open Host

/-! ## The parts of `on_message` -/

namespace JudgeEngine

/-- The loop settles nothing and takes no box; where it returns it has given its
    box back. -/
theorem Looped.pool {sandbox : Sandbox} {submission : SubmissionMessage} {i : Nat}
    {p : Progress} {testcases : List TestCase} {tr : Trace Op.Res}
    {out : Except Abort JudgeResultInternal}
    (h : Looped sandbox submission i p testcases tr out) :
    settlements tr = [] ∧ acquired tr = [] ∧
      released tr = if out.toBool then [sandbox.boxId] else [] := by
  induction h with
  | finished => exact ⟨rfl, rfl, rfl⟩
  | thrown hrun =>
    have hinner := inner_sandbox hrun.only
    exact ⟨hinner.settlements, hinner.acquired, hinner.released⟩
  | stopped hrun hverdict hstop =>
    have hinner := inner_sandbox hrun.only
    rw [settlements_append, acquired_append, released_append, hinner.settlements,
      hinner.acquired, hinner.released]
    exact ⟨rfl, rfl, rfl⟩
  | next hrun hverdict haccepted hrest ih =>
    have hinner := inner_sandbox hrun.only
    rw [settlements_append, acquired_append, released_append, hinner.settlements,
      hinner.acquired, hinner.released]
    exact ih

/-- `judge` settles nothing; where it returns it has given back the one box it
    took, and where it throws it has not. -/
theorem judge_pool {cfg : IsolateConfig} {submission : SubmissionMessage}
    {tr : Trace Op.Res} {out : Except Abort JudgeResultInternal}
    (h : (judge cfg submission).Runs tr out) :
    settlements tr = [] ∧ ∃ boxId, acquired tr = [boxId] ∧
      released tr = if out.toBool then [boxId] else [] := by
  cases judge_runs h with
  | @compileThrown boxId tr x hcompile =>
    have hinner := inner_sandbox hcompile.only
    refine ⟨hinner.settlements, boxId, ?_, hinner.released⟩
    exact congrArg (boxId :: ·) hinner.acquired
  | @compileFailed boxId tr sandbox compileResult hcompile hexit =>
    have hinner := inner_sandbox hcompile.only
    refine ⟨?_, boxId, ?_, ?_⟩
    · change settlements (tr ++ _) = []
      rw [settlements_append, hinner.settlements]
      rfl
    · change boxId :: acquired (tr ++ _) = [boxId]
      rw [acquired_append, hinner.acquired]
      rfl
    · change released (tr ++ _) = [boxId]
      rw [released_append, hinner.released]
      rfl
  | @looped boxId tr tr' sandbox compileResult out hcompile hexit hloop =>
    have hinner := inner_sandbox hcompile.only
    obtain ⟨hsettled, hacquired, hreleased⟩ := hloop.pool
    have hbox : sandbox.boxId = boxId := hcompile.boxId
    refine ⟨?_, boxId, ?_, ?_⟩
    · change settlements (tr ++ tr') = []
      rw [settlements_append, hinner.settlements, hsettled]
      rfl
    · change boxId :: acquired (tr ++ tr') = [boxId]
      rw [acquired_append, hinner.acquired, hacquired]
      rfl
    · change released (tr ++ tr') = _
      rw [released_append, hinner.released, hreleased, hbox]
      rfl

end JudgeEngine

namespace Host

/-- The database operations read no meta file. -/
theorem allConvertible_database {tr : Trace Op.Res} (h : Trace.Only Op.isDatabase tr) :
    allConvertible tr = true := by
  have hnone : metaContents tr = [] := by
    unfold metaContents
    rw [List.filterMap_eq_nil_iff]
    intro e he
    have hop := h e he
    revert hop
    obtain ⟨op, res⟩ := e
    cases op <;> simp [Op.isDatabase, metaContent]
  rw [allConvertible, hnone]
  rfl

end Host

/-! ## The whole delivery -/

namespace Worker

/-- A worker whose connections to the broker and to the database are up. -/
def connectedWorker : Worker :=
  { mq := { connected := true }, db := { conn := some 0, connected := true } }

theorem onMessage_sample (w : Worker) (tag : UInt64) :
    w.onMessage JudgeEngine.sampleParse tag JudgeEngine.sampleBody =
      w.handle tag JudgeEngine.sampleMessage :=
  onMessage_of_some JudgeEngine.parseMessage_sample

end Worker
