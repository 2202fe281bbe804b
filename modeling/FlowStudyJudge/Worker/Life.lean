-- SUMMARY: The life of the process: at every moment its calls follow the AMQP protocol, and it handles its deliveries in turn.
import FlowStudyJudge.Worker.Delays
import FlowStudyJudge.Worker.Session

/-! # The life of the process -/

namespace WorkerProcess

variable {parse : Bytes → Option Json} {n : Nat} {argv : List Bytes} {tr : Trace WorkerOp.Res}

/-- Some answer to every operation. -/
def answers : Handler WorkerOp.Res Unit := fun op s =>
  match op with
  | .host op => ((Host.fixed (fun _ => none) op ()).1, s)
  | .amqp .newConnection => ((none : Conn), s)
  | .amqp (.consumeMessage _ _) => (Consumed.error, s)
  | .amqp (.tcpSocketNew _) | .amqp (.socketOpen _ _ _) | .amqp (.login _ _ _ _)
  | .amqp (.channelOpen _ _) | .amqp (.queueDeclare _ _ _) | .amqp (.basicQos _ _ _)
  | .amqp (.basicConsume _ _ _) | .amqp (.basicAck _ _ _) | .amqp (.basicNack _ _ _) => (false, s)
  | .amqp .destroyEnvelope | .amqp (.channelClose _ _) | .amqp (.connectionClose _)
  | .amqp (.destroyConnection _) => ((), s)
  | .readConfig _ => ((none : Option Bytes), s)
  | .loadRunning => (false, s)
  | .sleepFor _ | .mysqlClose _ => ((), s)

/-! ## The protocol -/

/-- The calls of the AMQP library are in order, for the broker and the queue of the
    configuration that was read before them. -/
inductive InOrder (parse : Bytes → Option Json) (argv : List Bytes) : Trace WorkerOp.Res → Prop where
  | nothing : InOrder parse argv []
  | notLoaded {file : Option Bytes} (hload : AppConfig.load parse file = none) :
      InOrder parse argv [⟨.readConfig (configPath argv), file⟩]
  | loaded {file : Option Bytes} {cfg : AppConfig} {tr : Trace WorkerOp.Res} {s : Amqp.Session}
      (hload : AppConfig.load parse file = some cfg)
      (hfollows : Amqp.Follows cfg.rabbitmq 1 (amqpEvents tr) s) :
      InOrder parse argv (⟨.readConfig (configPath argv), file⟩ :: tr)

theorem InOrder.of_append {before after : Trace WorkerOp.Res}
    (h : InOrder parse argv (before ++ after)) : InOrder parse argv before := by
  generalize hfull : before ++ after = full at h
  cases before with
  | nil => exact .nothing
  | cons e before =>
    cases h with
    | nothing => cases hfull
    | notLoaded hload =>
      obtain ⟨rfl, hrest⟩ := List.cons.inj hfull
      obtain ⟨rfl, -⟩ := List.append_eq_nil_iff.mp hrest
      exact .notLoaded hload
    | loaded hload hfollows =>
      obtain ⟨rfl, rfl⟩ := List.cons.inj hfull
      change Amqp.Follows _ 1 (amqpEvents (before ++ after)) _ at hfollows
      rw [amqpEvents_append] at hfollows
      obtain ⟨s, hbefore, -⟩ := World.path_append.mp hfollows
      exact .loaded hload hbefore

theorem cleanupAll_only {cfg : IsolateConfig} {boxes : List Int} {inner : Trace Op.Res}
    (h : (BoxPool.cleanupAll cfg boxes).Runs inner (.ok ())) : Trace.Only Op.isSandbox inner := by
  induction boxes generalizing inner with
  | nil =>
    obtain ⟨rfl, -⟩ := Prog.runs_done.mp h
    exact Trace.only_nil
  | cons boxId rest ih =>
    rcases Prog.runs_bind.mp h with ⟨_, tr₁, tr₂, hfirst, hrest, rfl⟩ | ⟨x, -, hx⟩
    · obtain ⟨ret, tr₃, rfl, h₃⟩ := Prog.runs_perform_bind.mp hfirst
      obtain ⟨rfl, -⟩ := Prog.runs_done.mp h₃
      exact Trace.only_append.mpr ⟨by simp [Op.isSandbox], ih hrest⟩
    · cases hx

/-- The constructor makes no call of the AMQP library. -/
theorem amqpEvents_make {cfg : AppConfig} {p : WorkerProcess}
    (h : (make cfg).Runs tr (.ok p)) : amqpEvents tr = [] := by
  obtain ⟨inner, boxes, rfl, -, hinner⟩ := make_runs h
  exact amqpEvents_host _ (Host.inner_sandbox (BoxPool.make_only hinner)).settlements

theorem amqpEvents_closed (db : MySQLClient) : amqpEvents (closed db) = [] := by
  simp [amqpEvents, closed]

theorem Main.inOrder {out : Except Abort (Option Int)} (h : Main parse n argv tr out) :
    InOrder parse argv tr := by
  cases h with
  | notLoaded hload => exact .notLoaded hload
  | running hload hmake hrun | thrown hload hmake hrun =>
    obtain ⟨s, hfollows, -⟩ := run_follows hrun
    refine .loaded hload (s := s) ?_
    rw [amqpEvents_append, amqpEvents_make hmake]
    exact hfollows
  | returned hload hmake hrun hlast =>
    obtain ⟨s, hfollows, hended⟩ := run_follows hrun
    cases hlast with
    | intro hboxes hmq =>
      obtain ⟨s', hpath⟩ := Ended.destroy hended hmq
      refine .loaded hload (s := s') ?_
      simp only [amqpEvents_append, amqpEvents_make hmake, amqpEvents_closed, amqpEvents_amqp,
        amqpEvents_host _ (Host.inner_sandbox (cleanupAll_only hboxes)).settlements,
        List.nil_append]
      exact World.path_append.mpr ⟨s, hfollows, hpath⟩

/-- A host, a database server and a broker that answer every call with success. The broker
    sends the messages of a script. -/
def willing (file : Bytes) : Handler WorkerOp.Res (List Consumed) := fun op script =>
  match op with
  | .host (.acquire) => ((1 : Int), script)
  | .host (.release _) => ((), script)
  | .host (.ofstream _ _) => (Written.complete, script)
  | .host (.ifstream _ _) => ((none : Option Bytes), script)
  | .host (.mkdir _) => (MkdirResult.created, script)
  | .host (.system _) => ((0 : Int), script)
  | .host .mysqlInit => (some (1 : Handle), script)
  | .host (.mysqlRealConnect _) | .host (.mysqlPing _) | .host (.mysqlQuery _ _)
  | .host (.basicAck _) | .host (.basicNack _) => (true, script)
  | .amqp .newConnection => (some 1, script)
  | .amqp (.consumeMessage _ _) => (script.headD .error, script.tail)
  | .amqp (.tcpSocketNew _) | .amqp (.socketOpen _ _ _) | .amqp (.login _ _ _ _)
  | .amqp (.channelOpen _ _) | .amqp (.queueDeclare _ _ _) | .amqp (.basicQos _ _ _)
  | .amqp (.basicConsume _ _ _) | .amqp (.basicAck _ _ _) | .amqp (.basicNack _ _ _) =>
    (true, script)
  | .amqp .destroyEnvelope | .amqp (.channelClose _ _) | .amqp (.connectionClose _)
  | .amqp (.destroyConnection _) => ((), script)
  | .readConfig _ => (some file, script)
  | .loadRunning => (true, script)
  | .sleepFor _ | .mysqlClose _ => ((), script)

/-- A parser that reads the empty object only. -/
def parseEmpty (body : Bytes) : Option Json :=
  if body = ("\x7b\x7d" : Bytes) then some (.object []) else none

/-- The whole life of a process that gets one message, which no parser accepts, and then
    loses the broker. -/
def shortLife : Trace WorkerOp.Res :=
  (main parseEmpty 5 []).trace (willing "\x7b\x7d") [.message 1 "?", .timeout]

theorem shortLife_runs : (main parseEmpty 5 []).Runs shortLife (.ok (some 1)) :=
  Prog.runs_trace_of_eval rfl

/-- At every moment the calls of the process are in order. -/
theorem main_inOrder {q : WorkerComp (Option Int)} (h : (main parse n argv).Reaches tr q) :
    InOrder parse argv tr := by
  obtain ⟨tr', out, hruns⟩ := h.completes answers ()
  exact (main_runs hruns).inOrder.of_append

theorem main_inOrder_shortLife : InOrder parseEmpty [] shortLife :=
  main_inOrder shortLife_runs.reaches

/-! ## Deliveries -/

theorem InOrder.inTurn (h : InOrder parse argv tr) : Amqp.InTurn (amqpEvents tr) := by
  cases h with
  | nothing | notLoaded =>
    have hnothing : Amqp.Follows {} 1 [] {} := .nil
    exact hnothing.inTurn
  | loaded _ hfollows => exact hfollows.inTurn

/-- The process handles its deliveries in turn. -/
theorem main_inTurn {q : WorkerComp (Option Int)} (h : (main parse n argv).Reaches tr q) :
    Amqp.InTurn (amqpEvents tr) := by
  obtain ⟨tr', out, hruns⟩ := h.completes answers ()
  have horder : InOrder parse argv tr := (main_runs hruns).inOrder.of_append
  exact horder.inTurn

theorem main_inTurn_shortLife : Amqp.InTurn (amqpEvents shortLife) :=
  main_inTurn shortLife_runs.reaches

/-- It reads and settles messages only where the whole handshake has been made, with the
    broker and the queue of its configuration. -/
theorem main_onReady {q : WorkerComp (Option Int)} {file : Option Bytes} {cfg : AppConfig}
    (h : (main parse n argv).Reaches (⟨.readConfig (configPath argv), file⟩ :: tr) q)
    (hload : AppConfig.load parse file = some cfg) :
    Amqp.OnReady cfg.rabbitmq 1 (amqpEvents tr) := by
  obtain ⟨tr', out, hruns⟩ := h.completes answers ()
  have horder : InOrder parse argv (⟨.readConfig (configPath argv), file⟩ :: tr) :=
    (main_runs hruns).inOrder.of_append
  cases horder with
  | notLoaded hnot =>
    rw [hload] at hnot
    cases hnot
  | loaded hload' hfollows =>
    rw [hload] at hload'
    cases hload'
    exact hfollows.onReady

theorem main_onReady_shortLife : Amqp.OnReady {} 1 (amqpEvents shortLife.tail) := by
  have h : (main parseEmpty 5 []).Reaches
      (⟨.readConfig (configPath []), some "\x7b\x7d"⟩ :: shortLife.tail) (.done (some 1)) :=
    shortLife_runs.reaches
  have hload : AppConfig.load parseEmpty (some "\x7b\x7d") = some {} := rfl
  exact main_onReady h hload

/-! ## The machine -/

open Worker (Control Falls Returns)
open Worker.Control (slept backoff)

/-- The program of `run` shows nothing that the machine cannot show, if nothing but
    `shutdown()` writes the flag. -/
theorem run_refines {cfg : AppConfig} {boxes : List Int}
    {out : Except Abort ((Point × WorkerProcess) ⊕ (WorkerProcess × Int))}
    (h : ((fresh cfg boxes).run parse n).Runs tr out) (hfalls : Falls (observed tr)) :
    ∃ as s, ({} : Control).after as = some s ∧ s.phase = reached out ∧
      ({} : Control).observed as = observed tr := by
  obtain ⟨running, as, hafter, hobserved, -⟩ := (run_reports h hfalls).tracks
  exact ⟨as, _, hafter, rfl, hobserved⟩

theorem run_refines_twoMessages :
    ∃ as s, ({} : Control).after as = some s ∧ s.phase = .round ∧
      ({} : Control).observed as =
        [.flag true, .flag true, .flag true, .flag true, .delivery, .handled, .timeout, .delivery,
          .handled] :=
  run_refines
    (Prog.runs_trace ((fresh {} []).run parseEmpty 5) (willing "\x7b\x7d")
      [.message 1 "?", .timeout, .message 2 "?"])
    (by unfold Falls; decide)

/-! ## The end -/

theorem observed_make {cfg : AppConfig} {p : WorkerProcess} (h : (make cfg).Runs tr (.ok p)) :
    observed tr = [] := by
  obtain ⟨inner, boxes, rfl, -, -⟩ := make_runs h
  exact observed_host _ inner

theorem Destroyed.observed {p : WorkerProcess} (h : p.Destroyed tr) : observed tr = [] := by
  cases h with
  | intro hboxes hmq =>
    simp only [observed_append, observed_host, List.nil_append, List.append_eq_nil_iff]
    constructor
    · simp [WorkerProcess.observed, closed, observe]
    · cases hmq <;> rfl

/-- What the process shows is what `run` shows. -/
theorem Main.observed_run {out : Except Abort (Option Int)} (h : Main parse n argv tr out) :
    (∃ file, AppConfig.load parse file = none ∧ tr = [⟨.readConfig (configPath argv), file⟩] ∧
      out = .ok (some 1)) ∨
    ∃ cfg boxes run out', ((fresh cfg boxes).run parse n).Runs run out' ∧
      observed tr = observed run ∧ ∀ ret, out = .ok (some ret) → ∃ p, out' = .ok (.inr (p, ret)) := by
  cases h with
  | notLoaded hload => exact .inl ⟨_, hload, rfl, rfl⟩
  | running hload hmake hrun | thrown hload hmake hrun =>
    refine .inr ⟨_, _, _, _, hrun, ?_, nofun⟩
    change observed (_ ++ _) = _
    rw [observed_append, observed_make hmake, List.nil_append]
  | returned hload hmake hrun hlast =>
    refine .inr ⟨_, _, _, _, hrun, ?_, ?_⟩
    · change observed (_ ++ _) = _
      rw [observed_append, observed_append, observed_make hmake, hlast.observed, List.nil_append,
        List.append_nil]
    · rintro ret ⟨⟩
      exact ⟨_, rfl⟩

/-- Around `run` the process does not sleep. -/
theorem run_delays {cfg : AppConfig} {boxes : List Int} {start run : Trace WorkerOp.Res}
    (last : Trace WorkerOp.Res)
    {out : Except Abort ((Point × WorkerProcess) ⊕ (WorkerProcess × Int))}
    (h : ((fresh cfg boxes).run parse n).Runs run out) (hstart : observed start = [])
    (hlast : observed last = []) (hfalls : Falls (observed (start ++ (run ++ last)))) :
    ∃ j k, (fresh cfg boxes).Delayed (run ++ last) j k ∧
      slept (observed (start ++ (run ++ last))) = backoff j ++ backoff k := by
  have hobserved : observed (start ++ (run ++ last)) = observed run := by
    rw [observed_append, observed_append, hstart, hlast, List.nil_append, List.append_nil]
  rw [hobserved] at hfalls ⊢
  obtain ⟨j, k, hdelayed⟩ := (run_ran h hfalls).delayed
  have hquiet : slept (observed last) = [] := by
    rw [hlast]
    rfl
  exact ⟨j, k, hdelayed.append hquiet, hdelayed.delays⟩

/-- A host like `willing`, but the attempts to log in to a server go by a script. -/
def reluctant (file : Bytes) : Handler WorkerOp.Res (List Bool) := fun op script =>
  match op with
  | .host (.mysqlRealConnect _) | .amqp (.login _ _ _ _) => (script.headD true, script.tail)
  | op => ((willing file op []).1, script)

/-- MySQL refuses two attempts, and RabbitMQ one. -/
def lateStart : Trace WorkerOp.Res :=
  (main parseEmpty 6 []).trace (reluctant "\x7b\x7d") [false, false, true, false]

/-- The ways the process can exit. -/
inductive Exits (parse : Bytes → Option Json) (argv : List Bytes) :
    Trace WorkerOp.Res → Int → Prop where
  | notLoaded {file : Option Bytes} (hload : AppConfig.load parse file = none) :
      Exits parse argv [⟨.readConfig (configPath argv), file⟩] 1
  | returned {tr : Trace WorkerOp.Res} {ret : Int} (hreturns : Returns (observed tr) ret) :
      Exits parse argv tr ret

/-- The exit code is 0 only if the process was asked to stop before it began to consume; it
    is 1 if the configuration could not be loaded, and when `consume` has failed. -/
theorem main_exits {ret : Int} (h : (main parse n argv).Runs tr (.ok (some ret)))
    (hfalls : Falls (observed tr)) : Exits parse argv tr ret := by
  rcases (main_runs h).observed_run with
    ⟨file, hload, rfl, hout⟩ | ⟨cfg, boxes, run, out', hrun, hobs, hret⟩
  · cases hout
    exact .notLoaded hload
  · obtain ⟨p, rfl⟩ := hret ret rfl
    refine .returned ?_
    rw [hobs] at hfalls ⊢
    obtain ⟨running, as, hafter, hshown, -⟩ := (run_reports hrun hfalls).tracks
    rw [← hshown]
    exact Worker.Control.after_shown hafter

theorem main_exits_shortLife : Exits parseEmpty [] shortLife 1 :=
  main_exits shortLife_runs (by unfold Falls; decide)

end WorkerProcess
