-- SUMMARY: `Worker::run` and the loop of `consume` as a state machine, and what a request to shut down does to them.
import Mathlib.Data.List.Basic

/-! # Shutdown

`run` connects to MySQL and to RabbitMQ, each in a loop of its own, and then stays in
the loop of `RabbitMQClient::consume`. The flag `running_` belongs to `Worker`: the two
connect loops read it, and `consume` has no access to it. -/

namespace Worker

/-- The two connect loops of `run`. -/
inductive Connection where
  | mysql
  | rabbitmq
  deriving DecidableEq, Repr

inductive Loop where
  | connect (c : Connection)
  | consume
  deriving DecidableEq, Repr

/-- The next thing that `run` does. -/
inductive Phase where
  /-- Evaluate the condition of a connect loop. -/
  | check (c : Connection) (retries : Nat)
  /-- Call `connect`, the second half of the condition. -/
  | attempt (c : Connection) (retries : Nat)
  | sleep (c : Connection) (retries : Nat)
  /-- `if (!running_) return 0;` behind a connect loop. -/
  | test (c : Connection)
  /-- Begin a round of the loop in `consume`. -/
  | round
  /-- Wait in `amqp_consume_message`. -/
  | receive
  /-- Wait for `on_message` to return. -/
  | handle
  | returned (code : Int)
  deriving DecidableEq, Repr

inductive Action where
  /-- `shutdown()`, by a signal handler. -/
  | shutdown
  /-- An iteration of a loop begins. In a connect loop this reads `running_`. -/
  | begin (l : Loop)
  | connect (c : Connection) (ok : Bool)
  | slept (seconds : Nat)
  | test (c : Connection)
  | timeout
  /-- A message is handed to `on_message`. -/
  | delivery
  | handled
  /-- `amqp_consume_message` reports anything but a message or a timeout. -/
  | error
  deriving DecidableEq, Repr

/-- `std::min(retries * 2, 30)` -/
def retryDelay (retries : Nat) : Nat :=
  min (retries * 2) 30

/-- What `run` goes on with behind a connect loop. `consume` finds the client
    connected, as `connect` has just succeeded. -/
def Connection.next : Connection → Phase
  | .mysql => .check .rabbitmq 0
  | .rabbitmq => .round

/-- The flag, and where `run` is. -/
structure Control where
  running : Bool := true
  phase : Phase := .check .mysql 0
  deriving DecidableEq, Repr

namespace Control

def step (s : Control) (a : Action) : Option Control :=
  match s.phase, a with
  | _, .shutdown => some { s with running := false }
  | .check c retries, .begin (.connect c') =>
    if c' = c then
      some { s with phase := if s.running then .attempt c retries else .test c }
    else none
  | .attempt c retries, .connect c' ok =>
    if c' = c then
      some { s with phase := if ok then .test c else .sleep c (retries + 1) }
    else none
  | .sleep c retries, .slept seconds =>
    if seconds = retryDelay retries then some { s with phase := .check c retries } else none
  | .test c, .test c' =>
    if c' = c then
      some { s with phase := if s.running then c.next else .returned 0 }
    else none
  | .round, .begin .consume => some { s with phase := .receive }
  | .receive, .timeout => some { s with phase := .round }
  | .receive, .delivery => some { s with phase := .handle }
  | .handle, .handled => some { s with phase := .round }
  | .receive, .error => some { s with phase := .returned 1 }
  | _, _ => none

/-- The state behind a sequence of actions, from the start of `run`. -/
def after (s : Control) (as : List Action) : Option Control :=
  as.foldlM step s

end Control

/-- What a worker may still do once it has begun an iteration after `shutdown()`: leave
    the loop and `run`. -/
def Action.leaves : Action → Bool
  | .shutdown | .test _ | .error => true
  | _ => false

/-- No iteration that begins after `shutdown()` tries to connect, hands a message to
    `on_message`, or lets another one begin; with its next action `run` returns. -/
def Stops (as : List Action) (s : Control) : Prop :=
  ∀ before l rest, as = before ++ .begin l :: rest → .shutdown ∈ before →
    (∀ a ∈ rest, a.leaves = true) ∧
    ((∃ a ∈ rest, a ≠ .shutdown) → ∃ code, s.phase = .returned code)

/-- No timeout and no message ends a wait of `consume` that began after `shutdown()`. -/
def Spared (as : List Action) : Prop :=
  ∀ before rest, as = before ++ .begin .consume :: rest → .shutdown ∈ before →
    .timeout ∉ rest ∧ .delivery ∉ rest

/-! ## Steps behind the request -/

namespace Control

variable {s s' : Control} {a : Action} {as : List Action}

theorem after_cons (s : Control) (a : Action) (as : List Action) :
    s.after (a :: as) = (s.step a).bind fun s' => s'.after as := rfl

theorem after_append (s : Control) (as as' : List Action) :
    s.after (as ++ as') = (s.after as).bind fun s' => s'.after as' :=
  List.foldlM_append

/-- Nothing raises the flag again. -/
theorem step_running (h : s.step a = some s') (hstopped : s.running = false) :
    s'.running = false := by
  unfold step at h
  split at h <;> try split at h
  all_goals cases h
  all_goals first | rfl | exact hstopped

theorem after_running (h : s.after as = some s') (hstopped : s.running = false) :
    s'.running = false := by
  induction as generalizing s with
  | nil =>
    cases h
    exact hstopped
  | cons a as ih =>
    rw [after_cons] at h
    obtain ⟨s₁, hstep, hafter⟩ := Option.bind_eq_some_iff.mp h
    exact ih hafter (step_running hstep hstopped)

theorem step_shutdown (s : Control) : s.step .shutdown = some { s with running := false } := by
  obtain ⟨running, phase⟩ := s
  cases phase <;> rfl

/-- The flag is down behind `shutdown()`. -/
theorem after_shutdown (h : s.after as = some s') (hmem : .shutdown ∈ as) :
    s'.running = false := by
  obtain ⟨before, rest, rfl⟩ := List.append_of_mem hmem
  rw [after_append] at h
  obtain ⟨s₁, -, hrest⟩ := Option.bind_eq_some_iff.mp h
  rw [after_cons, step_shutdown] at hrest
  exact after_running hrest rfl

/-- `run` has returned. -/
def Returned (s : Control) : Prop :=
  ∃ code, s.phase = .returned code

/-- Only the signal handler acts when `run` has returned. -/
theorem Returned.step (hs : s.Returned) (h : s.step a = some s') :
    a = .shutdown ∧ s'.Returned := by
  obtain ⟨running, phase⟩ := s
  obtain ⟨code, rfl⟩ := hs
  cases a with
  | shutdown =>
    cases h
    exact ⟨rfl, code, rfl⟩
  | «begin» l => cases l <;> cases h
  | _ => cases h

theorem Returned.after (hs : s.Returned) (h : s.after as = some s') :
    (∀ a ∈ as, a = .shutdown) ∧ s'.Returned := by
  induction as generalizing s with
  | nil =>
    cases h
    exact ⟨by simp, hs⟩
  | cons a as ih =>
    rw [after_cons] at h
    obtain ⟨s₁, hstep, hafter⟩ := Option.bind_eq_some_iff.mp h
    obtain ⟨ha, hs₁⟩ := hs.step hstep
    obtain ⟨has, hs'⟩ := ih hs₁ hafter
    exact ⟨List.forall_mem_cons.mpr ⟨ha, has⟩, hs'⟩

/-- An iteration has begun with the flag down: behind the condition of a connect loop,
    or in the wait of `consume`. -/
def Late (s : Control) : Prop :=
  s.running = false ∧ ((∃ c, s.phase = .test c) ∨ s.phase = .receive)

theorem Late.begin {l : Loop} (hstopped : s.running = false) (h : s.step (.begin l) = some s') :
    s'.Late ∧ (s'.phase = .receive → l = .consume) := by
  obtain ⟨running, phase⟩ := s
  change running = false at hstopped
  subst hstopped
  cases phase with
  | check c retries =>
    cases l with
    | connect c' =>
      simp only [step, Bool.false_eq_true, if_false] at h
      split at h
      · cases h
        exact ⟨⟨rfl, .inl ⟨c, rfl⟩⟩, fun hphase => by cases hphase⟩
      · cases h
    | consume => cases h
  | round =>
    cases l with
    | connect c' => cases h
    | consume =>
      cases h
      exact ⟨⟨rfl, .inr rfl⟩, fun _ => rfl⟩
  | _ => cases l <;> cases h

/-- Late in an iteration, `run` returns with its next action, unless a timeout or a
    message comes. -/
theorem Late.step (hs : s.Late) (h : s.step a = some s') (htimeout : a ≠ .timeout)
    (hdelivery : a ≠ .delivery) :
    a.leaves = true ∧ (a = .shutdown ∧ s' = s ∨ a ≠ .shutdown ∧ s'.Returned) := by
  obtain ⟨running, phase⟩ := s
  obtain ⟨hstopped, hphase⟩ := hs
  change running = false at hstopped
  subst hstopped
  rcases hphase with ⟨c, rfl⟩ | rfl
  · cases a with
    | shutdown =>
      cases h
      exact ⟨rfl, .inl ⟨rfl, rfl⟩⟩
    | test c' =>
      simp only [Control.step, Bool.false_eq_true, if_false] at h
      split at h
      · cases h
        exact ⟨rfl, .inr ⟨by simp, 0, rfl⟩⟩
      · cases h
    | «begin» l => cases l <;> cases h
    | _ => cases h
  · cases a with
    | shutdown =>
      cases h
      exact ⟨rfl, .inl ⟨rfl, rfl⟩⟩
    | error =>
      cases h
      exact ⟨rfl, .inr ⟨by simp, 1, rfl⟩⟩
    | timeout => exact absurd rfl htimeout
    | delivery => exact absurd rfl hdelivery
    | «begin» l => cases l <;> cases h
    | _ => cases h

/-- The wait of a connect loop is over: neither a timeout nor a message can come. -/
theorem Late.waits (hs : s.Late) (h : s.step a = some s') (ha : a = .timeout ∨ a = .delivery) :
    s.phase = .receive := by
  obtain ⟨running, phase⟩ := s
  obtain ⟨-, ⟨c, rfl⟩ | rfl⟩ := hs
  · rcases ha with rfl | rfl <;> cases h
  · rfl

theorem Late.after (hs : s.Late) (h : s.after as = some s')
    (hspared : s.phase = .receive → .timeout ∉ as ∧ .delivery ∉ as) :
    (∀ a ∈ as, a.leaves = true) ∧ ((∃ a ∈ as, a ≠ .shutdown) → s'.Returned) := by
  induction as generalizing s with
  | nil => simp
  | cons a as ih =>
    rw [after_cons] at h
    obtain ⟨s₁, hstep, hafter⟩ := Option.bind_eq_some_iff.mp h
    have htimeout : a ≠ .timeout := by
      rintro rfl
      exact (hspared (hs.waits hstep (.inl rfl))).1 (List.mem_cons_self ..)
    have hdelivery : a ≠ .delivery := by
      rintro rfl
      exact (hspared (hs.waits hstep (.inr rfl))).2 (List.mem_cons_self ..)
    obtain ⟨hleaves, hnext⟩ := hs.step hstep htimeout hdelivery
    rcases hnext with ⟨rfl, rfl⟩ | ⟨-, hreturned⟩
    · have hrest := ih hs hafter fun hphase =>
        ⟨fun hin => (hspared hphase).1 (List.mem_cons_of_mem _ hin),
          fun hin => (hspared hphase).2 (List.mem_cons_of_mem _ hin)⟩
      refine ⟨List.forall_mem_cons.mpr ⟨hleaves, hrest.1⟩, ?_⟩
      rintro ⟨a, ha, hne⟩
      rcases List.mem_cons.mp ha with rfl | ha
      · exact absurd rfl hne
      · exact hrest.2 ⟨a, ha, hne⟩
    · obtain ⟨has, hs'⟩ := hreturned.after hafter
      refine ⟨List.forall_mem_cons.mpr ⟨hleaves, ?_⟩, fun _ => hs'⟩
      intro a ha
      rw [has a ha]
      rfl

end Control

/-! ## Runs -/

/-- A run stops when and only when the environment lets it: no timeout and no message
    may end a wait of `consume` that begins after `shutdown()`. -/
theorem run_stops_iff {as : List Action} {s : Control}
    (h : ({} : Control).after as = some s) : Stops as s ↔ Spared as := by
  constructor
  · intro hstops before rest heq hshutdown
    have hleaves := (hstops before .consume rest heq hshutdown).1
    have htimeout : .timeout ∉ rest := fun hin => absurd (hleaves .timeout hin) (by decide)
    have hdelivery : .delivery ∉ rest := fun hin => absurd (hleaves .delivery hin) (by decide)
    exact ⟨htimeout, hdelivery⟩
  · rintro hspared before l rest rfl hshutdown
    rw [Control.after_append] at h
    obtain ⟨s₁, hbefore, hrest⟩ := Option.bind_eq_some_iff.mp h
    rw [Control.after_cons] at hrest
    obtain ⟨s₂, hbegin, hafter⟩ := Option.bind_eq_some_iff.mp hrest
    have hstopped : s₁.running = false := Control.after_shutdown hbefore hshutdown
    obtain ⟨hlate, hwaits⟩ := Control.Late.begin hstopped hbegin
    refine hlate.after hafter ?_
    intro hphase
    have hl : l = .consume := hwaits hphase
    subst hl
    exact hspared before rest rfl hshutdown

/-- The signal comes while `run` sleeps behind a failed attempt to connect. -/
def interruptedConnect : List Action :=
  [.begin (.connect .mysql), .connect .mysql false, .shutdown, .slept 2,
    .begin (.connect .mysql), .test .mysql]

theorem run_stops_iff_interruptedConnect :
    Stops interruptedConnect { running := false, phase := .returned 0 } := by
  refine (run_stops_iff (by decide)).mpr ?_
  intro before rest heq _
  have hmem : Action.begin .consume ∈ interruptedConnect := by simp [heq]
  exact absurd hmem (by decide)

/-- The signal comes while `consume` waits: the loop goes on after the timeout, and the
    next message is judged. -/
def interruptedConsume : List Action :=
  [.begin (.connect .mysql), .connect .mysql true, .test .mysql,
    .begin (.connect .rabbitmq), .connect .rabbitmq true, .test .rabbitmq,
    .begin .consume, .shutdown, .timeout, .begin .consume, .delivery]

theorem not_always_stops :
    ¬ ∀ (as : List Action) (s : Control), ({} : Control).after as = some s → Stops as s := by
  intro h
  have hstops : Stops interruptedConsume { running := false, phase := .handle } :=
    h _ _ (by decide)
  have hleaves := (hstops (interruptedConsume.take 9) .consume [.delivery] rfl (by decide)).1
  exact absurd (hleaves .delivery (List.mem_singleton_self _)) (by decide)

end Worker
