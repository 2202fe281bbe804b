-- SUMMARY: The program of `run` refines the state machine of `run`: what can be seen of its runs, the machine can do.
import FlowStudyJudge.Worker.Rounds

/-! # The process and its control

`Worker.Control` keeps of `run` where it is and the flag. A run of the program shows the
values of the flag that it reads, how long it sleeps, and what `consume` gets to see. -/

namespace Worker

/-- What can be seen of `run` from outside. -/
inductive Observation where
  /-- A read of `running_`. -/
  | flag (running : Bool)
  | slept (seconds : Nat)
  | timeout
  | delivery
  | handled
  | error
  deriving DecidableEq, Repr

/-- `shutdown()` is the only writer of the flag. -/
def Falls (os : List Observation) : Prop :=
  os.Pairwise fun o o' => o = .flag false → o' ≠ .flag true

theorem Falls.left {os os' : List Observation} (h : Falls (os ++ os')) : Falls os :=
  (List.pairwise_append.mp h).1

/-- The two conditions read the flag, the other actions do not. -/
def Action.observed (running : Bool) : Action → List Observation
  | .begin (.connect _) | .test _ => [.flag running]
  | .slept seconds => [.slept seconds]
  | .timeout => [.timeout]
  | .delivery => [.delivery]
  | .handled => [.handled]
  | .error => [.error]
  | .shutdown | .begin .consume | .connect _ _ => []

/-- Nothing has been asked of the broker. -/
def Observation.beforeConsume : Observation → Bool
  | .flag _ | .slept _ => true
  | _ => false

/-- The ways `run` can return, by what it shows last: `running_` is down behind a connect
    loop, or `consume` has failed. -/
inductive Returns : List Observation → Int → Prop where
  | stopped {os : List Observation} (h : os.all Observation.beforeConsume = true) :
      Returns (os ++ [.flag false]) 0
  | failed {os : List Observation} (h : .error ∉ os) : Returns (os ++ [.error]) 1

namespace Control

def observed (s : Control) : List Action → List Observation
  | [] => []
  | a :: as => a.observed s.running ++ (s.step a).elim [] fun s' => s'.observed as

variable {s s' : Control} {a : Action} {as as' : List Action}

theorem observed_append (h : s.after as = some s') :
    s.observed (as ++ as') = s.observed as ++ s'.observed as' := by
  induction as generalizing s with
  | nil =>
    cases h
    rfl
  | cons a as ih =>
    rw [after_cons] at h
    obtain ⟨s₁, hstep, hafter⟩ := Option.bind_eq_some_iff.mp h
    simp only [List.cons_append, observed, hstep, Option.elim_some, ih hafter, List.append_assoc]

/-- What every action keeps holds behind every sequence of actions. -/
theorem after_keeps {P : List Observation → Control → Prop}
    (hstep : ∀ os s a s', P os s → s.step a = some s' → P (os ++ a.observed s.running) s')
    {os : List Observation} (hs : P os s) (h : s.after as = some s') :
    P (os ++ s.observed as) s' := by
  induction as generalizing s os with
  | nil =>
    cases h
    rw [observed, List.append_nil]
    exact hs
  | cons a as ih =>
    rw [after_cons] at h
    obtain ⟨s₁, hfirst, hrest⟩ := Option.bind_eq_some_iff.mp h
    have hkept := ih (hstep _ _ _ _ hs hfirst) hrest
    rw [List.append_assoc] at hkept
    rw [observed, hfirst]
    exact hkept

/-- The steps of the machine, one by one. -/
inductive Stepped (running : Bool) : Phase → Action → Bool → Phase → Prop where
  | shutdown {phase : Phase} : Stepped running phase .shutdown false phase
  | check {c : Connection} {retries : Nat} :
      Stepped running (.check c retries) (.begin (.connect c)) running
        (if running then .attempt c retries else .test c)
  | attempt {c : Connection} {retries : Nat} {ok : Bool} :
      Stepped running (.attempt c retries) (.connect c ok) running
        (if ok then .test c else .sleep c (retries + 1))
  | sleep {c : Connection} {retries : Nat} :
      Stepped running (.sleep c retries) (.slept (retryDelay retries)) running (.check c retries)
  | test {c : Connection} :
      Stepped running (.test c) (.test c) running (if running then c.next else .returned 0)
  | round : Stepped running .round (.begin .consume) running .receive
  | timeout : Stepped running .receive .timeout running .round
  | delivery : Stepped running .receive .delivery running .handle
  | handled : Stepped running .handle .handled running .round
  | error : Stepped running .receive .error running (.returned 1)

theorem step_cases (h : s.step a = some s') :
    Stepped s.running s.phase a s'.running s'.phase := by
  obtain ⟨running, phase⟩ := s
  unfold step at h
  split at h <;> try split at h
  all_goals cases h
  all_goals try subst_vars
  · exact .shutdown
  · exact .check
  · exact .attempt
  · exact .sleep
  · exact .test
  · exact .round
  · exact .timeout
  · exact .delivery
  · exact .handled
  · exact .error

/-! ## What the machine shows -/

/-- The delays of a loop behind its first `retries` failures. -/
def backoff (retries : Nat) : List Nat :=
  (List.range retries).map fun i => retryDelay (i + 1)

theorem backoff_succ (retries : Nat) :
    backoff (retries + 1) = backoff retries ++ [retryDelay (retries + 1)] := by
  simp [backoff, List.range_succ]

/-- The delays of a run. -/
def slept (os : List Observation) : List Nat :=
  os.filterMap fun o =>
    match o with
    | .slept seconds => some seconds
    | _ => none

@[simp] theorem slept_append (os os' : List Observation) :
    slept (os ++ os') = slept os ++ slept os' := by
  simp [slept]

variable {running running' : Bool} {phase phase' : Phase} {os : List Observation}

/-- What a run shows on its way to a phase. -/
def Shown (os : List Observation) : Phase → Prop
  | .check _ _ | .attempt _ _ | .sleep _ _ | .test _ => os.all Observation.beforeConsume = true
  | .round | .receive | .handle => .error ∉ os
  | .returned code => Returns os code

theorem Stepped.shown (h : Stepped running phase a running' phase') (hs : Shown os phase) :
    Shown (os ++ a.observed running) phase' := by
  cases h with
  | shutdown =>
    change Shown (os ++ []) _
    rw [List.append_nil]
    exact hs
  | @check c retries =>
    have hshown : (os ++ [Observation.flag running]).all Observation.beforeConsume = true := by
      rw [List.all_append, hs]
      rfl
    cases running <;> exact hshown
  | @attempt c retries ok =>
    change Shown (os ++ []) _
    rw [List.append_nil]
    cases ok <;> exact hs
  | @sleep c retries =>
    change (os ++ [Observation.slept (retryDelay retries)]).all Observation.beforeConsume = true
    rw [List.all_append, hs]
    rfl
  | @test c =>
    cases running with
    | false => exact .stopped hs
    | true =>
      have hshown : (os ++ [Observation.flag true]).all Observation.beforeConsume = true := by
        rw [List.all_append, hs]
        rfl
      cases c with
      | mysql => exact hshown
      | rabbitmq =>
        intro herror
        have hnot := List.all_eq_true.mp hshown _ herror
        cases hnot
  | round =>
    change .error ∉ os ++ []
    rw [List.append_nil]
    exact hs
  | timeout | delivery | handled =>
    intro herror
    rcases List.mem_append.mp herror with hold | hnew
    · exact hs hold
    · cases List.mem_singleton.mp hnew
  | error => exact .failed hs

theorem after_shown (h : ({} : Control).after as = some s) :
    Shown (({} : Control).observed as) s.phase := by
  have hstart : Shown [] ({} : Control).phase := rfl
  exact after_keeps (P := fun os s => Shown os s.phase)
    (fun _ _ _ _ hs hstep => (step_cases hstep).shown hs) hstart h

end Control

end Worker

namespace WorkerProcess

open Worker (Connection Control Action Observation Falls Phase)

/-- What an operation of the process shows. -/
def observe : Event WorkerOp.Res → Option Observation
  | ⟨.loadRunning, running⟩ => some (.flag running)
  | ⟨.sleepFor seconds, _⟩ => some (.slept seconds)
  | ⟨.amqp (.consumeMessage _ _), .message _ _⟩ => some .delivery
  | ⟨.amqp (.consumeMessage _ _), .timeout⟩ => some .timeout
  | ⟨.amqp (.consumeMessage _ _), .error⟩ => some .error
  | ⟨.amqp .destroyEnvelope, _⟩ => some .handled
  | _ => none

def observed (tr : Trace WorkerOp.Res) : List Observation :=
  tr.filterMap observe

@[simp] theorem observed_append (tr₁ tr₂ : Trace WorkerOp.Res) :
    observed (tr₁ ++ tr₂) = observed tr₁ ++ observed tr₂ := by
  simp [observed]

variable {parse : Bytes → Option Json} {p p' : WorkerProcess} {tr : Trace WorkerOp.Res}

/-- The judge and the database client show nothing. -/
@[simp] theorem observed_host (p : WorkerProcess) (inner : Trace Op.Res) :
    observed (inner.map p.hostEvent) = [] := by
  simp only [observed, List.filterMap_eq_nil_iff, List.mem_map]
  rintro _ ⟨⟨op, r⟩, -, rfl⟩
  cases op <;> rfl

/-- A message is handed to `on_message`. -/
theorem observed_delivery (p : WorkerProcess) (deliveryTag : UInt64) (body : Bytes)
    (inner : Trace Op.Res) :
    observed (⟨.amqp (.consumeMessage p.mq.conn 1), .message deliveryTag body⟩ ::
      inner.map p.hostEvent) = [.delivery] := by
  change .delivery :: observed (inner.map p.hostEvent) = _
  rw [observed_host]

theorem Attempted.observed {c : Connection} {ok : Bool} (h : p.Attempted c tr p' ok) :
    observed tr = [] := by
  cases h with
  | mysql => exact observed_host p _
  | @rabbitmq inner mq ok hconnect =>
    generalize (mq, ok) = res at hconnect
    cases hconnect <;> rfl

/-- `connect` sets the flag of the client exactly when it reports success. -/
theorem Attempted.connected {ok : Bool} (h : p.Attempted .rabbitmq tr p' ok)
    (hdown : p.mq.connected = false) : p'.mq.connected = ok := by
  cases h with
  | @rabbitmq inner mq ok hconnect =>
    generalize hres : (mq, ok) = res at hconnect
    cases hconnect with
    | @consumes conn limited consuming =>
      cases consuming with
      | false =>
        obtain ⟨rfl, rfl⟩ := Prod.mk.inj (hres.trans (if_neg (by simp)))
        exact hdown
      | true =>
        obtain ⟨rfl, rfl⟩ := Prod.mk.inj (hres.trans (if_pos rfl))
        rfl
    | _ =>
      cases hres
      exact hdown

/-- The client is connected exactly in the loop of `consume`. -/
theorem Attempted.mysql_connected {ok : Bool} (h : p.Attempted .mysql tr p' ok) :
    p'.mq = p.mq := by
  cases h
  rfl

/-! ## Simulation -/

/-- The machine can be in state `s` when `tr` has been seen. -/
def Tracks (tr : Trace WorkerOp.Res) (s : Control) : Prop :=
  ∃ as, ({} : Control).after as = some s ∧ ({} : Control).observed as = observed tr ∧
    (s.running = false → .flag false ∈ observed tr)

variable {s s' : Control} {running running' : Bool} {phase phase' : Phase}

/-- An action that shows what the process shows. -/
theorem Tracks.step (h : Tracks tr ⟨running, phase⟩) (a : Action) (phase' : Phase)
    (after : Trace WorkerOp.Res)
    (hstep : Control.step ⟨running, phase⟩ a = some ⟨running, phase'⟩)
    (hobserved : a.observed running = observed after) :
    Tracks (tr ++ after) ⟨running, phase'⟩ := by
  obtain ⟨as, hafter, hobs, hdown⟩ := h
  refine ⟨as ++ [a], ?_, ?_, ?_⟩
  · rw [Control.after_append, hafter]
    simp only [Option.bind_some, Control.after_cons, hstep]
    rfl
  · rw [Control.observed_append hafter, hobs, observed_append]
    simp only [Control.observed, hstep, hobserved, Option.elim_some, List.append_nil]
  · intro hrunning
    rw [observed_append]
    exact List.mem_append_left _ (hdown hrunning)

/-- A read of the flag. If it is down for the first time, `shutdown()` has come before. -/
theorem Tracks.read (h : Tracks tr ⟨running, phase⟩) (a : Action) (phase' : Phase)
    (hfalls : Falls (observed tr ++ [.flag running']))
    (hstep : Control.step ⟨running', phase⟩ a = some ⟨running', phase'⟩)
    (hobserved : a.observed running' = [.flag running']) :
    Tracks (tr ++ [⟨.loadRunning, running'⟩]) ⟨running', phase'⟩ := by
  obtain ⟨as, hafter, hobs, hdown⟩ := h
  have hflag : running = false → running' = false := by
    intro hrunning
    cases running' with
    | false => rfl
    | true =>
      have hnot := (List.pairwise_append.mp hfalls).2.2 _ (hdown hrunning) _
        (List.mem_singleton_self _) rfl
      exact absurd rfl hnot
  have hshutdown : ∃ quiet, ({} : Control).after (as ++ quiet) = some ⟨running', phase⟩ ∧
      ({} : Control).observed (as ++ quiet) = observed tr := by
    rcases eq_or_ne running' running with rfl | hne
    · exact ⟨[], by simpa using hafter, by simpa using hobs⟩
    · have hdown' : running' = false := by
        cases running with
        | false => exact hflag rfl
        | true => simpa using hne
      subst hdown'
      refine ⟨[.shutdown], ?_, ?_⟩
      · rw [Control.after_append, hafter]
        exact Control.step_shutdown _
      · rw [Control.observed_append hafter, hobs]
        simp [Control.observed, Control.step_shutdown, Action.observed]
  obtain ⟨quiet, hafter', hobs'⟩ := hshutdown
  refine ⟨as ++ quiet ++ [a], ?_, ?_, ?_⟩
  · rw [Control.after_append, hafter']
    simp only [Option.bind_some, Control.after_cons, hstep]
    rfl
  · rw [Control.observed_append hafter', hobs', observed_append]
    simp only [Control.observed, hstep, hobserved, Option.elim_some, List.append_nil]
    rfl
  · intro hrunning
    change running' = false at hrunning
    subst hrunning
    rw [observed_append]
    exact List.mem_append_right _ (List.mem_singleton_self _)

/-- An action that shows nothing, where the process does nothing. -/
theorem Tracks.silent (h : Tracks tr ⟨running, phase⟩) (a : Action) (phase' : Phase)
    (hstep : Control.step ⟨running, phase⟩ a = some ⟨running, phase'⟩)
    (hobserved : a.observed running = []) : Tracks tr ⟨running, phase'⟩ := by
  have hnothing := h.step a phase' [] hstep hobserved
  rw [List.append_nil] at hnothing
  exact hnothing

/-- Where the machine is when `run` is at a point. -/
def Point.control : Point → Phase
  | .connect c retries => .check c retries
  | .consume => .round

theorem behind_control (c : Connection) : (behind c).control = c.next := by
  cases c <;> rfl

/-- The machine is where `run` is between two rounds. -/
structure Simulates (tr : Trace WorkerOp.Res) (s : Point × WorkerProcess) : Prop where
  tracks : ∃ running, Tracks tr ⟨running, s.1.control⟩
  connected : s.2.mq.connected = decide (s.1 = .consume)

/-- The machine is where a number of rounds has led. An exception leaves `on_message`, for
    which the machine waits. -/
def Reports (tr : Trace WorkerOp.Res) :
    Except Abort ((Point × WorkerProcess) ⊕ (WorkerProcess × Int)) → Prop
  | .ok (.inl s) => Simulates tr s
  | .ok (.inr (_, ret)) => ∃ running, Tracks tr ⟨running, .returned ret⟩
  | .error _ => ∃ running, Tracks tr ⟨running, .handle⟩

/-- `if (!running_) return 0;` -/
theorem Tracks.leave {c : Connection} (h : Tracks tr ⟨running, .test c⟩)
    (hfalls : Falls (observed tr ++ [.flag running']))
    (hconnected : p.mq.connected = decide (behind c = .consume)) :
    Reports (tr ++ [⟨.loadRunning, running'⟩]) (.ok (p.left c running')) := by
  cases running' with
  | false =>
    have hread := h.read (.test c) (.returned 0) hfalls (by simp [Control.step]) rfl
    exact ⟨false, hread⟩
  | true =>
    have hread := h.read (.test c) c.next hfalls (by simp [Control.step]) rfl
    rw [← behind_control] at hread
    exact ⟨⟨true, hread⟩, hconnected⟩

/-- A connect loop evaluates its condition. -/
theorem Tracks.check {c : Connection} {retries : Nat} (h : Tracks tr ⟨running, .check c retries⟩)
    (hfalls : Falls (observed tr ++ [.flag running'])) :
    Tracks (tr ++ [⟨.loadRunning, running'⟩])
      ⟨running', if running' then .attempt c retries else .test c⟩ := by
  refine h.read (.begin (.connect c)) _ hfalls ?_ rfl
  simp [Control.step]

/-- The attempt behind the condition. -/
theorem Tracks.attempted {c : Connection} {retries : Nat} {ok : Bool}
    {inner : Trace WorkerOp.Res} (h : Tracks tr ⟨running, .attempt c retries⟩)
    (hattempt : p.Attempted c inner p' ok) :
    Tracks (tr ++ inner) ⟨running, if ok then .test c else .sleep c (retries + 1)⟩ := by
  refine h.step (.connect c ok) _ inner ?_ hattempt.observed.symm
  simp [Control.step]

/-- The connection to the broker that an attempt of a connect loop leaves. -/
theorem Attempted.mq_connected {c : Connection} {ok : Bool} (h : p.Attempted c tr p' ok)
    (hdown : p.mq.connected = false) :
    p'.mq.connected = (ok && decide (behind c = .consume)) := by
  cases c with
  | mysql =>
    rw [h.mysql_connected, hdown]
    cases ok <;> rfl
  | rabbitmq =>
    rw [h.connected hdown]
    cases ok <;> rfl

theorem Rounded.reports {before : Trace WorkerOp.Res} {sp : Point × WorkerProcess}
    {out : Except Abort ((Point × WorkerProcess) ⊕ (WorkerProcess × Int))}
    (h : Rounded parse sp tr out) (hs : Simulates before sp)
    (hfalls : Falls (observed before ++ observed tr)) : Reports (before ++ tr) out := by
  obtain ⟨⟨running, htracks⟩, hconnected⟩ := hs
  cases h with
  | @stopped c retries p running' =>
    have hdown : running' = false := by
      cases running' with
      | false => rfl
      | true =>
        have hnot := List.rel_of_pairwise_cons (List.pairwise_append.mp hfalls).2.1
          (List.mem_singleton_self _) rfl
        exact absurd rfl hnot
    subst hdown
    change Falls (observed before ++ ([.flag false] ++ [.flag false])) at hfalls
    rw [← List.append_assoc] at hfalls
    have hchecked := htracks.check hfalls.left
    have hleft := hchecked.read (.test c) (.returned 0)
      (by rw [observed_append]; exact hfalls) (by simp [Control.step]) rfl
    rw [List.append_assoc] at hleft
    exact ⟨false, hleft⟩
  | @connected c retries p p' tr running' hattempt =>
    have hshown : observed (⟨.loadRunning, true⟩ :: (tr ++ [⟨.loadRunning, running'⟩])) =
        [.flag true] ++ [.flag running'] := by
      change .flag true :: observed (tr ++ [⟨.loadRunning, running'⟩]) = _
      rw [observed_append, hattempt.observed]
      rfl
    rw [hshown, ← List.append_assoc] at hfalls
    have hattempted := (htracks.check hfalls.left).attempted hattempt
    have hleft : Reports _ (.ok (p'.left c running')) := hattempted.leave
      (by rw [observed_append, hattempt.observed, observed_append, List.append_nil]; exact hfalls)
      (hattempt.mq_connected hconnected)
    rw [List.append_assoc, List.append_assoc] at hleft
    exact hleft
  | @refused c retries p p' tr hattempt =>
    have hshown : observed (⟨.loadRunning, true⟩ ::
        (tr ++ [⟨.sleepFor (Worker.retryDelay (retries + 1)), ()⟩])) =
          [.flag true] ++ [.slept (Worker.retryDelay (retries + 1))] := by
      change .flag true :: observed (tr ++ _) = _
      rw [observed_append, hattempt.observed]
      rfl
    rw [hshown, ← List.append_assoc] at hfalls
    have hattempted := (htracks.check hfalls.left).attempted hattempt
    have hslept := hattempted.step (.slept (Worker.retryDelay (retries + 1)))
      (.check c (retries + 1)) [⟨.sleepFor (Worker.retryDelay (retries + 1)), ()⟩]
      (by simp [Control.step]) rfl
    rw [List.append_assoc, List.append_assoc] at hslept
    exact ⟨⟨true, hslept⟩, hattempt.mq_connected hconnected⟩
  | notConnected hdown =>
    rw [hdown] at hconnected
    cases hconnected
  | timeout hup =>
    have hreceive := htracks.silent (.begin .consume) .receive rfl rfl
    exact ⟨⟨running, hreceive.step .timeout .round _ rfl rfl⟩, hup⟩
  | error hup =>
    have hreceive := htracks.silent (.begin .consume) .receive rfl rfl
    exact ⟨running, hreceive.step .error (.returned 1) _ rfl rfl⟩
  | @handled p deliveryTag body inner w hup hmessage =>
    have hreceive := htracks.silent (.begin .consume) .receive rfl rfl
    have hhandle := hreceive.step .delivery .handle _
      rfl (observed_delivery p deliveryTag body inner).symm
    have hhandled := hhandle.step .handled .round [⟨.amqp .destroyEnvelope, ()⟩] rfl rfl
    rw [List.append_assoc] at hhandled
    exact ⟨⟨running, hhandled⟩, hup⟩
  | @thrown p deliveryTag body inner x hup hmessage =>
    have hreceive := htracks.silent (.begin .consume) .receive rfl rfl
    exact ⟨running, hreceive.step .delivery .handle _ rfl
      (observed_delivery p deliveryTag body inner).symm⟩

theorem run_reports {cfg : AppConfig} {boxes : List Int} {n : Nat}
    {out : Except Abort ((Point × WorkerProcess) ⊕ (WorkerProcess × Int))}
    (h : ((fresh cfg boxes).run parse n).Runs tr out) (hfalls : Falls (observed tr)) :
    Reports tr out := by
  let I (tr : Trace WorkerOp.Res) (sp : Point × WorkerProcess) : Prop :=
    Falls (observed tr) → Simulates tr sp
  have hstart : I [] (.connect .mysql 0, fresh cfg boxes) :=
    fun _ => ⟨⟨true, [], rfl, rfl, nofun⟩, rfl⟩
  have hround : ∀ before sp first sp', I before sp →
      (round parse sp).Runs first (.ok (.inl sp')) → I (before ++ first) sp' := by
    intro before sp first sp' hs hruns hfalls
    rw [observed_append] at hfalls
    exact (round_runs hruns).reports (hs hfalls.left) hfalls
  rcases Prog.rounds_runs hround hstart h with
    ⟨sp, rfl, hkept⟩ | ⟨sp, before, last, rfl, hkept, hlast, -⟩
  · exact hkept hfalls
  · rw [observed_append] at hfalls
    exact (round_runs hlast).reports (hkept hfalls.left) hfalls

/-- Where the machine is behind a number of rounds. -/
def reached : Except Abort ((Point × WorkerProcess) ⊕ (WorkerProcess × Int)) → Phase
  | .ok (.inl (point, _)) => point.control
  | .ok (.inr (_, ret)) => .returned ret
  | .error _ => .handle

theorem Reports.tracks {out : Except Abort ((Point × WorkerProcess) ⊕ (WorkerProcess × Int))}
    (h : Reports tr out) : ∃ running, Tracks tr ⟨running, reached out⟩ := by
  match out, h with
  | .ok (.inl _), h => exact Simulates.tracks h
  | .ok (.inr _), h => exact h
  | .error _, h => exact h

end WorkerProcess
