-- SUMMARY: `BoxPool`: its constructor, its queue under concurrent calls of `judge`, and the conservation of the boxes.
import FlowStudyJudge.Effects.Threads
import FlowStudyJudge.Storage.Pool
import FlowStudyJudge.Text.Decimal
import FlowStudyJudge.Worker.Settle

/-! # The box pool

Calls of `judge` share the pool. `acquire` and `release` hold its mutex, so each of them
is one step; everything else a call does leaves the pool alone. -/

def Sandbox.initCommand (sb : Sandbox) : Bytes :=
  sb.isolateBin ++ " --init --box-id=" ++ Bytes.ofInt sb.boxId

/-- `init`. That the box directory could not be made is only logged. -/
def Sandbox.init (sb : Sandbox) : Comp Bool := do
  let ret ← Host.system sb.initCommand
  if ret ≠ 0 then
    return false
  let _ ← Host.mkdir (boxPath sb.boxId)
  return true

namespace BoxPool

/-- The loop of the constructor over the box ids: `available_` as it is filled. -/
def initBoxes (cfg : IsolateConfig) : List Int → Comp (List Int)
  | [] => return []
  | boxId :: rest => do
    if ← (Sandbox.make boxId cfg).init then
      return boxId :: (← initBoxes cfg rest)
    else
      initBoxes cfg rest

/-- The ids that the constructor goes through. -/
def candidates (cfg : IsolateConfig) (count : Int) : List Int :=
  (List.range count.toNat).map fun (i : Nat) => cfg.boxIdStart + i

/-- The constructor. -/
def make (cfg : IsolateConfig) (count : Int) : Comp (List Int) :=
  initBoxes cfg (candidates cfg count)

/-- isolate has answered 0 to the `--init` of a box. -/
def initSucceeded (cfg : IsolateConfig) (tr : Trace Op.Res) (boxId : Int) : Bool :=
  tr.any fun e =>
    match e with
    | ⟨.system cmd, ret⟩ => cmd == (Sandbox.make boxId cfg).initCommand && ret == (0 : Int)
    | _ => false

/-- The ids of the boxes that the constructor has successfully initialised, in their order. -/
def initialised (cfg : IsolateConfig) (count : Int) (tr : Trace Op.Res) : List Int :=
  (candidates cfg count).filter (initSucceeded cfg tr)

/-- The pool as the calls see it. `acquire` waits while the queue is empty. -/
inductive Serves : World Op.Res (List Int) where
  | acquire {boxId : Int} {available : List Int} :
      Serves (boxId :: available) ⟨.acquire, boxId⟩ available
  | release {boxId : Int} {available : List Int} :
      Serves available ⟨.release boxId, ()⟩ (available ++ [boxId])
  | other {op : Op} {res : op.Res} {available : List Int}
      (hacquire : op ≠ .acquire) (hrelease : ∀ boxId, op ≠ .release boxId) :
      Serves available ⟨op, res⟩ available

/-- The judge with the calls that its threads are in. -/
abbrev Calls (ι : Type) := Threads Op.Res Abort JudgeResultInternal (List Int) ι

variable {ι : Type} [DecidableEq ι]

/-- What threads that call `judge` can lead to, from a pool with the given boxes. -/
def Reachable (cfg : IsolateConfig) (boxIds : List Int) (c : Calls ι) : Prop :=
  Threads.Reachable Serves (fun p => ∃ submission, p = JudgeEngine.judge cfg submission) boxIds c

/-- The boxes that a call has acquired and not released. -/
def held (t : Option (Thread Op.Res Abort JudgeResultInternal)) : List Int :=
  match t with
  | none => []
  | some t => (Host.acquired t.issued).diff (Host.released t.issued)

/-! ## The constructor -/

/-- The ways the loop of the constructor can go: the ids it is given, and those it puts into
    the queue. -/
inductive InitRan (cfg : IsolateConfig) : List Int → Trace Op.Res → List Int → Prop where
  | nil : InitRan cfg [] [] []
  | failed {boxId ret : Int} {ids boxIds : List Int} {tr : Trace Op.Res} (hret : ret ≠ 0)
      (hrest : InitRan cfg ids tr boxIds) :
      InitRan cfg (boxId :: ids) (⟨.system (Sandbox.make boxId cfg).initCommand, ret⟩ :: tr) boxIds
  | ready {boxId : Int} {made : MkdirResult} {ids boxIds : List Int} {tr : Trace Op.Res}
      (hrest : InitRan cfg ids tr boxIds) :
      InitRan cfg (boxId :: ids)
        (⟨.system (Sandbox.make boxId cfg).initCommand, (0 : Int)⟩ ::
          ⟨.mkdir (Sandbox.boxPath boxId), made⟩ :: tr)
        (boxId :: boxIds)

theorem init_runs {sb : Sandbox} {tr : Trace Op.Res} {out : Except Abort Bool}
    (h : sb.init.Runs tr out) :
    (∃ ret : Int, ret ≠ 0 ∧ tr = [⟨.system sb.initCommand, ret⟩] ∧ out = .ok false) ∨
      ∃ made : MkdirResult, tr = [⟨.system sb.initCommand, (0 : Int)⟩,
        ⟨.mkdir (Sandbox.boxPath sb.boxId), made⟩] ∧ out = .ok true := by
  obtain ⟨ret, tr₁, rfl, h₁⟩ := Prog.runs_perform_bind.mp h
  by_cases hret : ret = (0 : Int)
  · subst hret
    obtain ⟨made, tr₂, rfl, h₂⟩ := Prog.runs_perform_bind.mp h₁
    obtain ⟨rfl, rfl⟩ := Prog.runs_done.mp h₂
    exact .inr ⟨made, rfl, rfl⟩
  · rw [if_pos hret] at h₁
    obtain ⟨rfl, rfl⟩ := Prog.runs_done.mp h₁
    exact .inl ⟨ret, hret, rfl, rfl⟩

theorem initBoxes_runs {cfg : IsolateConfig} {ids : List Int} {tr : Trace Op.Res}
    {out : Except Abort (List Int)} (h : (initBoxes cfg ids).Runs tr out) :
    ∃ boxIds, out = .ok boxIds ∧ InitRan cfg ids tr boxIds := by
  induction ids generalizing tr out with
  | nil =>
    obtain ⟨rfl, rfl⟩ := Prog.runs_done.mp h
    exact ⟨[], rfl, .nil⟩
  | cons boxId ids ih =>
    rcases Prog.runs_bind.mp h with ⟨ok, first, rest, hinit, h₁, rfl⟩ | ⟨x, hinit, -⟩
    · rcases init_runs hinit with ⟨ret, hret, rfl, hok⟩ | ⟨made, rfl, hok⟩
      · cases hok
        obtain ⟨boxIds, hout, hran⟩ := ih h₁
        exact ⟨boxIds, hout, .failed hret hran⟩
      · cases hok
        rcases Prog.runs_bind.mp h₁ with ⟨_, tr₁, tr₂, h₂, h₃, rfl⟩ | ⟨x, h₂, -⟩
        · obtain ⟨boxIds, hids, hran⟩ := ih h₂
          cases hids
          obtain ⟨rfl, rfl⟩ := Prog.runs_done.mp h₃
          rw [List.append_nil]
          exact ⟨_, rfl, .ready hran⟩
        · obtain ⟨_, hids, -⟩ := ih h₂
          cases hids
    · rcases init_runs hinit with ⟨_, -, -, hok⟩ | ⟨_, -, hok⟩
      · cases hok
      · cases hok

/-- Commands for different boxes are different. -/
theorem initCommand_inj {cfg : IsolateConfig} {i j : Int}
    (h : (Sandbox.make i cfg).initCommand = (Sandbox.make j cfg).initCommand) : i = j :=
  Bytes.ofInt_inj (List.append_cancel_left h)

section Constructor

variable {cfg : IsolateConfig} {ids boxIds : List Int} {tr : Trace Op.Res}

theorem InitRan.only (h : InitRan cfg ids tr boxIds) : Trace.Only Op.isSandbox tr := by
  induction h with
  | nil => exact Trace.only_nil
  | failed hret hrest ih => exact Trace.only_cons.mpr ⟨rfl, ih⟩
  | ready hrest ih => exact Trace.only_cons.mpr ⟨rfl, Trace.only_cons.mpr ⟨rfl, ih⟩⟩

/-- `--init` is only called for the ids that the loop goes through. -/
theorem InitRan.succeeded_mem (h : InitRan cfg ids tr boxIds) {boxId : Int}
    (hsucceeded : initSucceeded cfg tr boxId = true) : boxId ∈ ids := by
  induction h with
  | nil => cases hsucceeded
  | failed hret hrest ih =>
    rcases Bool.or_eq_true_iff.mp hsucceeded with hfirst | hlater
    · simp only [Bool.and_eq_true, beq_iff_eq] at hfirst
      exact absurd hfirst.2 hret
    · exact List.mem_cons_of_mem _ (ih hlater)
  | ready hrest ih =>
    rcases Bool.or_eq_true_iff.mp hsucceeded with hfirst | hlater
    · simp only [Bool.and_eq_true, beq_iff_eq] at hfirst
      exact initCommand_inj hfirst.1 ▸ List.mem_cons_self ..
    · exact List.mem_cons_of_mem _ (ih hlater)

/-- The queue is filled with the boxes whose `--init` succeeded, in their order. -/
theorem InitRan.eq_filter (h : InitRan cfg ids tr boxIds) (hnodup : ids.Nodup) :
    boxIds = ids.filter (initSucceeded cfg tr) := by
  -- an event about another box can be left out
  have hother : ∀ {boxId : Int} {ret : Int} {ids : List Int} {tr : Trace Op.Res}, boxId ∉ ids →
      ids.filter (initSucceeded cfg
        (⟨.system (Sandbox.make boxId cfg).initCommand, ret⟩ :: tr)) =
      ids.filter (initSucceeded cfg tr) := by
    intro boxId ret ids tr hnot
    refine List.filter_congr fun j hj => ?_
    have hcommand : ((Sandbox.make boxId cfg).initCommand == (Sandbox.make j cfg).initCommand) =
        false := beq_eq_false_iff_ne.mpr fun heq => hnot (initCommand_inj heq ▸ hj)
    simp only [initSucceeded, List.any_cons, hcommand, Bool.false_and, Bool.false_or]
  induction h with
  | nil => rfl
  | @failed boxId ret ids boxIds tr hret hrest ih =>
    obtain ⟨hnot, hnodup⟩ := List.nodup_cons.mp hnodup
    have hfirst : initSucceeded cfg
        (⟨.system (Sandbox.make boxId cfg).initCommand, ret⟩ :: tr) boxId = false := by
      rw [Bool.eq_false_iff]
      intro hsucceeded
      rcases Bool.or_eq_true_iff.mp hsucceeded with hhere | hlater
      · simp only [Bool.and_eq_true, beq_iff_eq] at hhere
        exact hret hhere.2
      · exact hnot (hrest.succeeded_mem hlater)
    rw [List.filter_cons_of_neg (by simp [hfirst]), hother hnot]
    exact ih hnodup
  | @ready boxId made ids boxIds tr hrest ih =>
    obtain ⟨hnot, hnodup⟩ := List.nodup_cons.mp hnodup
    have hfirst : initSucceeded cfg (⟨.system (Sandbox.make boxId cfg).initCommand, (0 : Int)⟩ ::
        ⟨.mkdir (Sandbox.boxPath boxId), made⟩ :: tr) boxId = true := by
      simp [initSucceeded]
    rw [List.filter_cons_of_pos hfirst, hother hnot]
    exact congrArg (boxId :: ·) (ih hnodup)

theorem candidates_nodup (cfg : IsolateConfig) (count : Int) : (candidates cfg count).Nodup := by
  refine List.nodup_range.map ?_
  intro i j hij
  simpa using hij

/-- What the constructor makes: the boxes that it has successfully initialised. -/
theorem make_runs {count : Int} {out : Except Abort (List Int)}
    (h : (make cfg count).Runs tr out) : out = .ok (initialised cfg count tr) := by
  obtain ⟨boxIds, rfl, hran⟩ := initBoxes_runs h
  exact congrArg _ (hran.eq_filter (candidates_nodup cfg count))

theorem make_only {count : Int} {out : Except Abort (List Int)}
    (h : (make cfg count).Runs tr out) : Trace.Only Op.isSandbox tr := by
  obtain ⟨_, -, hran⟩ := initBoxes_runs h
  exact hran.only

theorem mem_initialised {count : Int} {out : Except Abort (List Int)} {boxId : Int}
    (h : (make cfg count).Runs tr out) :
    boxId ∈ initialised cfg count tr ↔ initSucceeded cfg tr boxId = true := by
  obtain ⟨_, -, hran⟩ := initBoxes_runs h
  rw [initialised, List.mem_filter]
  exact ⟨And.right, fun hsucceeded => ⟨hran.succeeded_mem hsucceeded, hsucceeded⟩⟩

/-- The constructor puts no box into the queue twice. -/
theorem initialised_nodup (cfg : IsolateConfig) (count : Int) (tr : Trace Op.Res) :
    (initialised cfg count tr).Nodup :=
  (candidates_nodup cfg count).filter _

end Constructor

/-! ## One call -/

section Call

open Host JudgeEngine

variable {cfg : IsolateConfig} {submission : SubmissionMessage} {tr : Trace Op.Res}

/-- The first thing a call does is to acquire a box. -/
theorem judge_reaches_acquired {q : Comp JudgeResultInternal}
    (h : (judge cfg submission).Reaches tr q) :
    (tr = [] ∧ q = judge cfg submission) ∨ acquired tr ≠ [] := by
  unfold judge Host.acquire at h
  cases h with
  | here => exact .inl ⟨rfl, rfl⟩
  | exec => exact .inr (List.cons_ne_nil _ _)

/-- Any unfinished call can be finished, and is then a whole run of `judge`. -/
theorem judge_completes {q : Comp JudgeResultInternal}
    (h : (judge cfg submission).Reaches tr q) :
    ∃ rest boxId, acquired tr ++ acquired rest = [boxId] ∧
      (released tr ++ released rest = [boxId] ∨ released tr ++ released rest = []) := by
  obtain ⟨rest, out, hruns⟩ := h.completes (Host.fixed fun _ => none) ()
  obtain ⟨-, boxId, hacquired, hreleased⟩ := judge_pool hruns
  rw [acquired_append] at hacquired
  rw [released_append] at hreleased
  refine ⟨rest, boxId, hacquired, ?_⟩
  rw [hreleased]
  split
  · exact .inl rfl
  · exact .inr rfl

/-- A call that is about to acquire a box has taken none. -/
theorem judge_acquires {k : Int → Comp JudgeResultInternal}
    (h : (judge cfg submission).Reaches tr (.exec .acquire k)) : tr = [] := by
  rcases judge_reaches_acquired h with ⟨htr, -⟩ | hne
  · exact htr
  · obtain ⟨rest, b, hacquired, -⟩ := judge_completes (h.snoc (0 : Int))
    have hlength := congrArg List.length hacquired
    have hpos : 0 < (acquired tr).length := List.length_pos_of_ne_nil hne
    have hone : (acquired [(⟨.acquire, (0 : Int)⟩ : Event Op.Res)]).length = 1 := rfl
    simp only [acquired_append, List.length_append, List.length_singleton] at hlength
    omega

/-- A call that is about to release a box holds this box and no other. -/
theorem judge_releases {k : Unit → Comp JudgeResultInternal} {boxId : Int}
    (h : (judge cfg submission).Reaches tr (.exec (.release boxId) k)) :
    acquired tr = [boxId] ∧ released tr = [] := by
  rcases judge_reaches_acquired h with ⟨-, hjudge⟩ | hne
  · unfold judge Host.acquire at hjudge
    cases hjudge
  · obtain ⟨rest, b, hacquired, hreleased⟩ := judge_completes (h.snoc ())
    have hsnoc : released (tr ++ [⟨.release boxId, ()⟩]) = released tr ++ [boxId] := by
      rw [released_append]
      rfl
    have hsnoc' : acquired (tr ++ [⟨.release boxId, ()⟩]) = acquired tr := by
      rw [acquired_append]
      exact List.append_nil _
    rw [hsnoc'] at hacquired
    rw [hsnoc, List.append_assoc] at hreleased
    have hrel : released tr = [] ∧ b = boxId := by
      rcases hreleased with hreleased | hreleased
      · rcases List.append_eq_singleton_iff.mp hreleased with ⟨hnil, hbox⟩ | ⟨-, hbox⟩
        · exact ⟨hnil, (List.cons.inj hbox).1.symm⟩
        · simp at hbox
      · simp at hreleased
    rcases List.append_eq_singleton_iff.mp hacquired with ⟨hnil, -⟩ | ⟨hbox, -⟩
    · exact absurd hnil hne
    · exact ⟨hrel.2 ▸ hbox, hrel.1⟩

/-- A call that returns has released the box it acquired, once. -/
theorem judge_returns {result : JudgeResultInternal}
    (h : (judge cfg submission).Reaches tr (.done result)) :
    ∃ boxId, acquired tr = [boxId] ∧ released tr = [boxId] := by
  obtain ⟨-, boxId, hacquired, hreleased⟩ := judge_pool h.runs_done
  exact ⟨boxId, hacquired, hreleased⟩

theorem acquired_snoc {op : Op} {res : op.Res} (h : op ≠ .acquire) :
    acquired (tr ++ [⟨op, res⟩]) = acquired tr := by
  rw [acquired_append]
  cases op with
  | acquire => exact absurd rfl h
  | _ => exact List.append_nil _

theorem released_snoc {op : Op} {res : op.Res} (h : ∀ boxId, op ≠ .release boxId) :
    released (tr ++ [⟨op, res⟩]) = released tr := by
  rw [released_append]
  cases op with
  | release boxId => exact absurd rfl (h boxId)
  | _ => exact List.append_nil _

end Call

/-! ## All calls -/

/-- What the calls hold, thread by thread. -/
def heldBy (c : Calls ι) (i : ι) : List Int :=
  held (c.thread i)

theorem heldBy_set (c : Calls ι) (i : ι)
    (t : Option (Thread Op.Res Abort JudgeResultInternal)) :
    heldBy (c.set i t) = Function.update (heldBy c) i (held t) := by
  funext j
  rcases eq_or_ne j i with rfl | hne
  · simp [heldBy]
  · simp [heldBy, Threads.set_ne c t hne, hne]

/-- A step that changes nothing about what thread `i` holds. -/
theorem heldBy_set_of_eq {c : Calls ι} {i : ι}
    {t : Option (Thread Op.Res Abort JudgeResultInternal)} (h : held t = heldBy c i) :
    heldBy (c.set i t) = heldBy c := by
  rw [heldBy_set, h, Function.update_eq_self]

variable {cfg : IsolateConfig} {boxIds : List Int} {c c' : Calls ι}

theorem Step.conserved
    (hstep : Threads.Step Serves (fun p => ∃ submission, p = JudgeEngine.judge cfg submission) c c')
    (hsound : Threads.Sound (fun p => ∃ submission, p = JudgeEngine.judge cfg submission) c)
    (h : Pool.Conserved boxIds c.world (heldBy c)) :
    Pool.Conserved boxIds c'.world (heldBy c') := by
  cases hstep with
  | @call i p hidle hp =>
    have hheld : held (some ⟨[], p⟩) = heldBy c i := by simp [heldBy, hidle, held, Host.acquired]
    rw [heldBy_set_of_eq hheld]
    exact h
  | @exec i issued op k r s hthread hworld =>
    obtain ⟨-, ⟨submission, rfl⟩, hreaches⟩ := hsound i _ hthread
    have hhas : heldBy c i = (Host.acquired issued).diff (Host.released issued) := by
      simp [heldBy, hthread, held]
    have hset := heldBy_set { c with world := s } i (some ⟨issued ++ [⟨op, r⟩], k r⟩)
    have hsame : heldBy { c with world := s } = heldBy c := rfl
    generalize hw : c.world = available at h hworld
    cases hworld with
    | acquire =>
      have hnil : issued = [] := judge_acquires hreaches
      subst hnil
      rw [hset, hsame]
      exact h.take hhas
    | @release boxId =>
      obtain ⟨hacquired, hreleased⟩ := judge_releases hreaches
      have hone : heldBy c i = [boxId] := by rw [hhas, hacquired, hreleased]; rfl
      have hnone : held (some ⟨issued ++ [⟨.release boxId, ()⟩], k ()⟩) = [] := by
        have hacquired' : Host.acquired (issued ++ [⟨.release boxId, ()⟩]) = [boxId] :=
          (acquired_snoc (by simp)).trans hacquired
        have hreleased' : Host.released (issued ++ [⟨.release boxId, ()⟩]) = [boxId] := by
          rw [Host.released_append, hreleased]
          rfl
        simp [held, hacquired', hreleased']
      rw [hset, hsame, hnone]
      exact h.give hone
    | other hacquire hrelease =>
      have hheld : held (some ⟨issued ++ [⟨op, r⟩], k r⟩) = heldBy c i := by
        rw [hhas, held, acquired_snoc hacquire, released_snoc hrelease]
      rw [hset, hsame, hheld, Function.update_eq_self]
      exact h
  | @«return» i issued result hthread =>
    obtain ⟨-, ⟨submission, rfl⟩, hreaches⟩ := hsound i _ hthread
    obtain ⟨boxId, hacquired, hreleased⟩ := judge_returns hreaches
    have hheld : held none = heldBy c i := by
      simp [heldBy, hthread, held, hacquired, hreleased]
    rw [heldBy_set_of_eq hheld]
    exact h

theorem Reachable.conserved (hnodup : boxIds.Nodup) (h : Reachable cfg boxIds c) :
    Pool.Conserved boxIds c.world (heldBy c) := by
  induction h with
  | start => exact Pool.Conserved.start hnodup
  | step hreach hstep ih => exact Step.conserved hstep hreach.sound ih

/-- Boxes are never shared and never lost, whatever the threads do in whatever order: those
    that are available and those that calls hold are the ones that were successfully
    initialised; a call that returns has released the one box it acquired, and when no call
    is running the whole pool is available. -/
theorem boxes_conserved {count : Int} {tr : Trace Op.Res}
    (hmake : (make cfg count).Runs tr (.ok boxIds)) (h : Reachable cfg boxIds c) :
    Pool.Conserved (initialised cfg count tr) c.world (heldBy c) ∧
    (∀ i issued result, c.thread i = some ⟨issued, .done result⟩ →
      ∃ boxId, Host.acquired issued = [boxId] ∧ Host.released issued = [boxId]) ∧
    ((∀ i, c.thread i = none) → c.world.Perm (initialised cfg count tr)) := by
  obtain rfl : boxIds = initialised cfg count tr := Except.ok.inj (make_runs hmake)
  have hnodup := initialised_nodup cfg count tr
  have hconserved := h.conserved hnodup
  refine ⟨hconserved, ?_, ?_⟩
  · intro i issued result hthread
    obtain ⟨-, ⟨submission, rfl⟩, hreaches⟩ := h.sound i _ hthread
    exact judge_returns hreaches
  · intro hidle
    apply hconserved.all_available hnodup
    intro i
    simp [heldBy, hidle i, held]

/-- isolate answers 1 to the `--init` of box 2. -/
def brokenTwo : Handler Op.Res Unit := fun op u =>
  match op with
  | .system cmd => (if cmd = (Sandbox.make 2 {}).initCommand then (1 : Int) else 0, u)
  | op => Host.fixed (fun _ => none) op u

/-- A constructor that gets the boxes 1 and 3 out of three. -/
def makeThree : Trace Op.Res :=
  (make {} 3).trace brokenTwo ()

theorem make_three : (make {} 3).Runs makeThree (.ok [1, 3]) :=
  Prog.runs_trace_of_eval (by decide +kernel)

/-- What is left of a call when it has acquired its box. -/
def judgeIn (cfg : IsolateConfig) (submission : SubmissionMessage) (boxId : Int) :
    Comp JudgeResultInternal :=
  match JudgeEngine.judge cfg submission with
  | .exec .acquire k => k boxId
  | p => p

/-- An idle thread can enter a call and acquire the first box of the queue. -/
theorem Reachable.enter (h : Reachable cfg boxIds c) (submission : SubmissionMessage) (i : ι)
    {boxId : Int} {available : List Int} (hidle : c.thread i = none)
    (hworld : c.world = boxId :: available) :
    Reachable cfg boxIds (Threads.set { c with world := available } i
      (some ⟨[⟨.acquire, boxId⟩], judgeIn cfg submission boxId⟩)) := by
  have hcalled := h.step (.call hidle ⟨submission, rfl⟩)
  have hserves : Serves (c.set i (some ⟨[], JudgeEngine.judge cfg submission⟩)).world
      ⟨.acquire, boxId⟩ available := by
    rw [Threads.set_world, hworld]
    exact .acquire
  have hentered := hcalled.step (.exec (Threads.set_same ..) hserves)
  simp only [Threads.set, Function.update_idem, List.nil_append] at hentered
  exact hentered

/-- The threads 0 and 1 have acquired a box each. -/
def bothAcquired : Calls Nat :=
  Threads.set (Threads.set { world := [], thread := fun _ => none } 0
    (some ⟨[⟨.acquire, (1 : Int)⟩], judgeIn {} JudgeEngine.sampleMessage 1⟩)) 1
    (some ⟨[⟨.acquire, (3 : Int)⟩], judgeIn {} JudgeEngine.sampleMessage 3⟩)

theorem bothAcquired_reachable : Reachable {} [1, 3] bothAcquired := by
  have hstart : Reachable {} [1, 3] (Threads.start [1, 3] : Calls Nat) := .start
  have hfirst := hstart.enter JudgeEngine.sampleMessage 0 rfl rfl
  exact hfirst.enter JudgeEngine.sampleMessage 1 rfl rfl

theorem boxes_conserved_bothAcquired :
    Pool.Conserved [1, 3] bothAcquired.world (heldBy bothAcquired) ∧
    (∀ i issued result, bothAcquired.thread i = some ⟨issued, .done result⟩ →
      ∃ boxId, Host.acquired issued = [boxId] ∧ Host.released issued = [boxId]) ∧
    ((∀ i, bothAcquired.thread i = none) → bothAcquired.world.Perm [1, 3]) := by
  have hinitialised : initialised {} 3 makeThree = [1, 3] := by decide +kernel
  have h := boxes_conserved make_three bothAcquired_reachable
  rw [hinitialised] at h
  exact h

end BoxPool
