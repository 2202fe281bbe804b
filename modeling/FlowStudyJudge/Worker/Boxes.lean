-- SUMMARY: The process judges in its boxes in turn, and waits for a box only if it could make none.
import FlowStudyJudge.Worker.Life
import FlowStudyJudge.Worker.Pool

/-! # The boxes of the process

A process judges one message after the other, so it uses the pool as one user does that
holds at most one box. -/

open Host

/-! ## One message -/

theorem Worker.onMessage_uses {parse : Bytes → Option Json} {w : Worker} {tag : UInt64}
    {body : Bytes} {tr : Trace Op.Res} {out : Except Abort Worker}
    (hmq : w.mq.connected = true) (h : (w.onMessage parse tag body).Runs tr out) :
    ∃ held, Pool.OneByOne none (uses tr) held ∧ (∀ w', out = .ok w' → held = none) := by
  cases hparse : JudgeEngine.parseMessage parse body with
  | none =>
    obtain ⟨b, rfl, rfl⟩ := onMessage_rejected_runs hmq hparse h
    exact ⟨none, .nil, fun _ _ => rfl⟩
  | some submission =>
    cases onMessage_accepted_runs hmq hparse h with
    | thrown hjudge =>
      obtain ⟨boxId, -, huses⟩ := JudgeEngine.judge_uses hjudge
      rw [huses]
      exact ⟨some boxId, .take .nil, nofun⟩
    | acked hjudge hping hupdate | nacked hjudge hping hupdate | crashed hjudge hping hupdate =>
      obtain ⟨boxId, -, huses⟩ := JudgeEngine.judge_uses hjudge
      simp only [uses_append, (inner_database hping.only).uses,
        (inner_database hupdate.only).uses, huses]
      exact ⟨none, .take (.give .nil), fun _ _ => rfl⟩

namespace WorkerProcess

variable {parse : Bytes → Option Json} {n : Nat} {argv : List Bytes} {p : WorkerProcess}
  {tr : Trace WorkerOp.Res}

/-- The operations of the judge and the database client in a run of the process. -/
def hostEvents (tr : Trace WorkerOp.Res) : Trace Op.Res :=
  tr.filterMap fun e =>
    match e with
    | ⟨.host op, r⟩ => some ⟨op, r⟩
    | _ => none

def boxUses (tr : Trace WorkerOp.Res) : List (Pool.Use Int) :=
  uses (hostEvents tr)

@[simp] theorem boxUses_append (tr₁ tr₂ : Trace WorkerOp.Res) :
    boxUses (tr₁ ++ tr₂) = boxUses tr₁ ++ boxUses tr₂ := by
  simp [boxUses, hostEvents]

@[simp] theorem boxUses_host (p : WorkerProcess) (inner : Trace Op.Res) :
    boxUses (inner.map p.hostEvent) = uses inner := by
  induction inner with
  | nil => rfl
  | cons e inner ih =>
    obtain ⟨op, r⟩ := e
    cases op with
    | acquire | release boxId => exact congrArg (_ :: ·) ih
    | _ => exact ih

@[simp] theorem boxUses_amqp (mq : Trace AmqpOp.Res) : boxUses (mq.map amqpEvent) = [] := by
  induction mq with
  | nil => rfl
  | cons e mq ih => exact ih

/-! ## One round -/

theorem Attempted.boxUses {c : Worker.Connection} {p' : WorkerProcess} {ok : Bool}
    (h : p.Attempted c tr p' ok) : boxUses tr = [] := by
  cases h with
  | mysql hconnect =>
    rw [boxUses_host]
    exact (inner_database hconnect.only).uses
  | rabbitmq => exact boxUses_amqp _

/-- Between two rounds the process holds no box. -/
theorem Rounded.boxUses {s : Point × WorkerProcess}
    {out : Except Abort ((Point × WorkerProcess) ⊕ (WorkerProcess × Int))}
    (h : Rounded parse s tr out) :
    ∃ held, Pool.OneByOne none (boxUses tr) held ∧ (∀ r, out = .ok r → held = none) := by
  cases h with
  | stopped | notConnected | timeout | error => exact ⟨none, .nil, fun _ _ => rfl⟩
  | connected hattempt | refused hattempt =>
    refine ⟨none, ?_, fun _ _ => rfl⟩
    change Pool.OneByOne none (WorkerProcess.boxUses (_ ++ _)) none
    rw [boxUses_append, hattempt.boxUses]
    exact .nil
  | handled hconnected hmessage =>
    obtain ⟨held, huses, hheld⟩ := Worker.onMessage_uses hconnected hmessage
    refine ⟨held, ?_, fun _ _ => hheld _ rfl⟩
    change Pool.OneByOne none (WorkerProcess.boxUses (_ ++ _)) held
    rw [boxUses_append, boxUses_host]
    exact huses.append .nil
  | thrown hconnected hmessage =>
    obtain ⟨held, huses, -⟩ := Worker.onMessage_uses hconnected hmessage
    refine ⟨held, ?_, by simp⟩
    change Pool.OneByOne none (WorkerProcess.boxUses (List.map _ _)) held
    rw [boxUses_host]
    exact huses

/-! ## The whole process -/

theorem run_boxUses {boxes : List Int} {cfg : AppConfig}
    {out : Except Abort ((Point × WorkerProcess) ⊕ (WorkerProcess × Int))}
    (h : ((fresh cfg boxes).run parse n).Runs tr out) :
    ∃ held, Pool.OneByOne none (boxUses tr) held := by
  let I (tr : Trace WorkerOp.Res) (_ : Point × WorkerProcess) : Prop :=
    Pool.OneByOne none (boxUses tr) none
  have hstart : I [] (.connect .mysql 0, fresh cfg boxes) := Pool.OneByOne.nil
  have hround : ∀ before sp first sp', I before sp →
      (round parse sp).Runs first (.ok (.inl sp')) → I (before ++ first) sp' := by
    intro before sp first sp' hbefore hruns
    obtain ⟨held, hfirst, hheld⟩ := (round_runs hruns).boxUses
    obtain rfl := hheld _ rfl
    change Pool.OneByOne none (boxUses (before ++ first)) none
    rw [boxUses_append]
    exact hbefore.append hfirst
  rcases Prog.rounds_runs hround hstart h with
    ⟨sp, rfl, hkept⟩ | ⟨sp, before, last, rfl, hkept, hlast, -⟩
  · exact ⟨none, hkept⟩
  · obtain ⟨held, hpart, -⟩ := (round_runs hlast).boxUses
    rw [boxUses_append]
    exact ⟨held, hkept.append hpart⟩

theorem Destroyed.boxUses (h : p.Destroyed tr) : boxUses tr = [] := by
  cases h with
  | intro hboxes hmq =>
    simp only [boxUses_append, boxUses_host, boxUses_amqp,
      (inner_sandbox (cleanupAll_only hboxes)).uses, List.nil_append, List.append_nil]
    simp [closed, WorkerProcess.boxUses, hostEvents, uses]

/-- What the constructor issues is found again in every run that begins with it. -/
theorem make_unique {cfg : AppConfig} {boxes : List Int} {init init' rest rest' : Trace WorkerOp.Res}
    (h : (make cfg).Runs init (.ok p)) (h' : (make cfg).Runs init' (.ok (fresh cfg boxes)))
    (heq : init' ++ rest' = init ++ rest) : p = fresh cfg boxes ∧ rest' = rest := by
  obtain ⟨rfl, hp⟩ := h.prefix_unique h' (List.prefix_append init rest) (heq ▸ List.prefix_append ..)
  cases hp
  exact ⟨rfl, List.append_cancel_left heq⟩

/-- Behind the constructor the process uses its boxes one by one, to its end. -/
theorem Main.boxUses {file : Option Bytes} {cfg : AppConfig} {init full : Trace WorkerOp.Res}
    {out : Except Abort (Option Int)} (h : Main parse n argv full out)
    (hfull : full = ⟨.readConfig (configPath argv), file⟩ :: (init ++ tr))
    (hload : AppConfig.load parse file = some cfg) (hmake : (make cfg).Runs init (.ok p)) :
    ∃ held, Pool.OneByOne none (boxUses tr) held := by
  cases h with
  | notLoaded hnot =>
    obtain ⟨hfile, -⟩ := List.cons.inj hfull
    cases hfile
    rw [hload] at hnot
    cases hnot
  | running hload' hmake' hrun | thrown hload' hmake' hrun =>
    obtain ⟨hfile, hrest⟩ := List.cons.inj hfull
    cases hfile
    cases hload.symm.trans hload'
    obtain ⟨rfl, rfl⟩ := make_unique hmake hmake' hrest
    exact run_boxUses hrun
  | returned hload' hmake' hrun hlast =>
    obtain ⟨hfile, hrest⟩ := List.cons.inj hfull
    cases hfile
    cases hload.symm.trans hload'
    obtain ⟨rfl, rfl⟩ := make_unique hmake hmake' hrest
    rw [boxUses_append, hlast.boxUses, List.append_nil]
    exact run_boxUses hrun

theorem reaches_boxUses {file : Option Bytes} {cfg : AppConfig} {init : Trace WorkerOp.Res}
    {q : WorkerComp (Option Int)}
    (h : (main parse n argv).Reaches (⟨.readConfig (configPath argv), file⟩ :: (init ++ tr)) q)
    (hload : AppConfig.load parse file = some cfg) (hmake : (make cfg).Runs init (.ok p)) :
    ∃ held, Pool.OneByOne none (boxUses tr) held := by
  obtain ⟨tr', out, hruns⟩ := h.completes answers ()
  rw [List.cons_append, List.append_assoc] at hruns
  obtain ⟨held', hall⟩ := (main_runs hruns).boxUses rfl hload hmake
  rw [boxUses_append] at hall
  obtain ⟨held, huses, -⟩ := hall.split
  exact ⟨held, huses⟩

theorem hostEvents_sandbox (p : WorkerProcess) {inner : Trace Op.Res}
    (h : Trace.Only Op.isSandbox inner) : hostEvents (inner.map p.hostEvent) = inner := by
  induction inner with
  | nil => rfl
  | cons e inner ih =>
    obtain ⟨hop, hrest⟩ := Trace.only_cons.mp h
    obtain ⟨op, r⟩ := e
    cases op with
    | ofstream path content | ifstream path mode | mkdir path | system cmd =>
      exact congrArg (_ :: ·) (ih hrest)
    | _ => cases hop

/-- A process without a box has had no success with an `--init`. -/
theorem make_nothing {cfg : AppConfig} {init : Trace WorkerOp.Res}
    (hmake : (make cfg).Runs init (.ok p)) (hnone : p.boxes = []) (boxId : Int) :
    BoxPool.initSucceeded cfg.isolate (hostEvents init) boxId = false := by
  obtain ⟨inner, boxes, rfl, hp, hruns⟩ := make_runs hmake
  cases hp
  obtain rfl : boxes = [] := hnone
  rw [hostEvents_sandbox _ (BoxPool.make_only hruns), Bool.eq_false_iff]
  intro hsucceeded
  have hmem := (BoxPool.mem_initialised hruns).mpr hsucceeded
  rw [← Except.ok.inj (BoxPool.make_runs hruns)] at hmem
  cases hmem

/-- The process goes round its boxes: the `i`-th message is judged in the box at `i`, modulo
    their number, and this box goes back before the next is taken. A message waits for a box
    only if no `--init` of the constructor succeeded. -/
theorem main_boxes {file : Option Bytes} {cfg : AppConfig} {init : Trace WorkerOp.Res}
    {q : WorkerComp (Option Int)} {available : List Int}
    (h : (main parse n argv).Reaches (⟨.readConfig (configPath argv), file⟩ :: (init ++ tr)) q)
    (hload : AppConfig.load parse file = some cfg) (hmake : (make cfg).Runs init (.ok p))
    (hpool : World.Path BoxPool.Serves p.boxes (hostEvents tr) available) :
    ∃ held, Pool.OneByOne none (boxUses tr) held ∧
      Pool.Turns p.boxes (boxUses tr) held available ∧
      ∀ k, q = .exec (.host .acquire) k → available = [] →
        p.boxes = [] ∧
          ∀ boxId, BoxPool.initSucceeded cfg.isolate (hostEvents init) boxId = false := by
  have hserves : Pool.Serves p.boxes (boxUses tr) available := BoxPool.path_iff_serves.mp hpool
  obtain ⟨held, huses⟩ := reaches_boxUses h hload hmake
  refine ⟨held, huses, huses.turns hserves, ?_⟩
  rintro k rfl rfl
  have hnext := h.snoc (0 : Int)
  rw [List.cons_append, List.append_assoc] at hnext
  obtain ⟨held', hafter⟩ := reaches_boxUses hnext hload hmake
  rw [boxUses_append] at hafter
  obtain ⟨o, hbefore, htake⟩ := hafter.split
  cases htake with
  | take =>
    have hnone := (hbefore.turns hserves).eq_nil
    exact ⟨hnone, make_nothing hmake hnone⟩

/-- A parser that reads a configuration and a submission. -/
def parseTwo (body : Bytes) : Option Json :=
  if body = JudgeEngine.sampleBody then some JudgeEngine.sampleJson
  else some (.object [("judge", .object [("concurrency", .integer 2)])])

/-- Answers like `willing`, with a pool of boxes. -/
def pooled : Handler WorkerOp.Res (List Int × List Consumed) := fun op s =>
  match op with
  | .host .acquire => (s.1.headD 0, (s.1.tail, s.2))
  | .host (.release boxId) => ((), (s.1 ++ [boxId], s.2))
  | op => ((willing "{}" op s.2).1, (s.1, (willing "{}" op s.2).2))

def twoBoxes : AppConfig := { judge := { concurrency := 2 } }

def initTwo : Trace WorkerOp.Res :=
  (make twoBoxes).trace pooled ([1, 2], [])

/-- What a process with two boxes does that gets three messages. -/
def threeJudged : Trace WorkerOp.Res :=
  (main parseTwo 5 []).trace pooled ([1, 2], List.replicate 3 (.message 1 JudgeEngine.sampleBody))

set_option maxRecDepth 20000 in
theorem main_boxes_threeJudged :
    ∃ held, Pool.OneByOne none (boxUses (threeJudged.drop 5)) held ∧
      Pool.Turns [1, 2] (boxUses (threeJudged.drop 5)) held [2, 1] ∧
      ∀ k, (.done none : WorkerComp (Option Int)) = .exec (.host .acquire) k →
        ([2, 1] : List Int) = [] → ([1, 2] : List Int) = [] ∧
          ∀ boxId, BoxPool.initSucceeded twoBoxes.isolate (hostEvents initTwo) boxId = false := by
  have hload : AppConfig.load parseTwo (some "{}") = some twoBoxes := rfl
  have hmake : (make twoBoxes).Runs initTwo (.ok (fresh twoBoxes [1, 2])) :=
    Prog.runs_trace_of_eval rfl
  have hruns : (main parseTwo 5 []).Runs threeJudged (.ok none) := Prog.runs_trace_of_eval rfl
  have hsplit : threeJudged = ⟨.readConfig (configPath []), some "{}"⟩ ::
      (initTwo ++ threeJudged.drop 5) := rfl
  have huses : boxUses (threeJudged.drop 5) =
      [.take 1, .give 1, .take 2, .give 2, .take 1, .give 1] := by decide +kernel
  have hserves : Pool.Serves [1, 2] (boxUses (threeJudged.drop 5)) [2, 1] := by
    rw [huses]
    exact .take (.give (.take (.give (.take (.give .nil)))))
  rw [hsplit] at hruns
  exact main_boxes hruns.reaches hload hmake (BoxPool.path_iff_serves.mpr hserves)

end WorkerProcess
