-- SUMMARY: How long `run` waits between its attempts to connect, for MySQL first and then for RabbitMQ.
import FlowStudyJudge.Worker.Refinement

/-! # Delays

Each connect loop of `run` counts its own failures. The traces below are those of `run`;
`p` is the worker before them. -/

namespace WorkerProcess

open Worker (Connection Falls retryDelay)
open Worker.Control (slept slept_append backoff backoff_succ)

variable {parse : Bytes → Option Json} {c : Connection} {p q q' : WorkerProcess}
  {tr tr' : Trace WorkerOp.Res} {retries j k : Nat}

/-- The failures of a connect loop, from its beginning: attempts to connect, with the delay
    of its number behind each. -/
inductive Refused (c : Connection) (p : WorkerProcess) :
    Trace WorkerOp.Res → WorkerProcess → Nat → Prop where
  | nothing : Refused c p [] p 0
  | again {tr attempt : Trace WorkerOp.Res} {q q' : WorkerProcess} {retries : Nat}
      (hearlier : Refused c p tr q retries) (hattempt : q.Attempted c attempt q' false) :
      Refused c p
        (tr ++ ⟨.loadRunning, true⟩ :: (attempt ++ [⟨.sleepFor (retryDelay (retries + 1)), ()⟩]))
        q' (retries + 1)

/-- The whole connect loop of MySQL: its failures, the attempt that succeeds, and the test
    of `running_` behind the loop. -/
inductive DbConnected (p : WorkerProcess) : Trace WorkerOp.Res → WorkerProcess → Nat → Prop where
  | intro {tr attempt : Trace WorkerOp.Res} {q q' : WorkerProcess} {retries : Nat}
      (hrefused : p.Refused .mysql tr q retries) (hattempt : q.Attempted .mysql attempt q' true) :
      DbConnected p (tr ++ ⟨.loadRunning, true⟩ :: (attempt ++ [⟨.loadRunning, true⟩])) q' retries

/-- All delays are those behind the first `j` attempts to connect to MySQL and, if one has
    succeeded, behind the first `k` to connect to RabbitMQ. -/
inductive Delayed (p : WorkerProcess) : Trace WorkerOp.Res → Nat → Nat → Prop where
  | mysql {tr rest : Trace WorkerOp.Res} {q : WorkerProcess} {j : Nat}
      (hrefused : p.Refused .mysql tr q j) (hrest : slept (observed rest) = []) :
      Delayed p (tr ++ rest) j 0
  | rabbitmq {db tr rest : Trace WorkerOp.Res} {q q' : WorkerProcess} {j k : Nat}
      (hdb : p.DbConnected db q j) (hrefused : q.Refused .rabbitmq tr q' k)
      (hrest : slept (observed rest) = []) :
      Delayed p (db ++ (tr ++ rest)) j k

theorem Refused.delays (h : p.Refused c tr q retries) : slept (observed tr) = backoff retries := by
  induction h with
  | nothing => rfl
  | @again tr attempt q q' retries hearlier hattempt ih =>
    change slept (observed (tr ++ ([⟨.loadRunning, true⟩] ++ (attempt ++ _)))) = _
    simp only [observed_append, slept_append, hattempt.observed, ih, backoff_succ]
    rfl

theorem DbConnected.delays (h : p.DbConnected tr q retries) :
    slept (observed tr) = backoff retries := by
  cases h with
  | @intro tr attempt q q' retries hrefused hattempt =>
    change slept (observed (tr ++ ([⟨.loadRunning, true⟩] ++ (attempt ++ _)))) = _
    simp only [observed_append, slept_append, hattempt.observed, hrefused.delays]
    exact List.append_nil _

/-- The delays of a run are the first ones of each server, in this order. -/
theorem Delayed.delays (h : p.Delayed tr j k) :
    slept (observed tr) = backoff j ++ backoff k := by
  cases h with
  | mysql hrefused hrest =>
    rw [observed_append, slept_append, hrefused.delays, hrest]
    rfl
  | rabbitmq hdb hrefused hrest =>
    simp only [observed_append, slept_append, hdb.delays, hrefused.delays, hrest,
      List.append_nil]

theorem Delayed.append (h : p.Delayed tr j k) (hquiet : slept (observed tr') = []) :
    p.Delayed (tr ++ tr') j k := by
  have hmore : ∀ {rest : Trace WorkerOp.Res}, slept (observed rest) = [] →
      slept (observed (rest ++ tr')) = [] := by
    intro rest hrest
    rw [observed_append, slept_append, hrest, hquiet]
    rfl
  cases h with
  | mysql hrefused hrest =>
    rw [List.append_assoc]
    exact .mysql hrefused (hmore hrest)
  | rabbitmq hdb hrefused hrest =>
    rw [List.append_assoc, List.append_assoc]
    exact .rabbitmq hdb hrefused (hmore hrest)

/-- What lies behind a point of `run`. -/
def Behind (p : WorkerProcess) (tr : Trace WorkerOp.Res) : Point × WorkerProcess → Prop
  | (.connect .mysql retries, q) => p.Refused .mysql tr q retries
  | (.connect .rabbitmq retries, q) =>
    ∃ db between j q', tr = db ++ between ∧ p.DbConnected db q' j ∧
      q'.Refused .rabbitmq between q retries
  | (.consume, _) => ∃ j k, p.Delayed tr j k

theorem Behind.delayed {s : Point × WorkerProcess} (h : p.Behind tr s) :
    ∃ j k, p.Delayed tr j k := by
  obtain ⟨point, q⟩ := s
  cases point with
  | connect c retries =>
    cases c with
    | mysql =>
      have hdelayed : p.Delayed (tr ++ []) retries 0 := .mysql h rfl
      rw [List.append_nil] at hdelayed
      exact ⟨retries, 0, hdelayed⟩
    | rabbitmq =>
      obtain ⟨db, between, j, q', rfl, hdb, hrefused⟩ := h
      have hdelayed : p.Delayed (db ++ (between ++ [])) j retries :=
        .rabbitmq hdb hrefused rfl
      rw [List.append_nil] at hdelayed
      exact ⟨j, retries, hdelayed⟩
  | consume => exact h

/-- `run` goes on, has returned or has been left by an exception. -/
def Ran (p : WorkerProcess) (tr : Trace WorkerOp.Res) :
    Except Abort ((Point × WorkerProcess) ⊕ (WorkerProcess × Int)) → Prop
  | .ok (.inl s) => p.Behind tr s
  | .ok (.inr _) | .error _ => ∃ j k, p.Delayed tr j k

theorem Behind.ends {s : Point × WorkerProcess} (h : p.Behind tr s)
    (hquiet : slept (observed tr') = []) : ∃ j k, p.Delayed (tr ++ tr') j k := by
  obtain ⟨j, k, hdelayed⟩ := h.delayed
  exact ⟨j, k, hdelayed.append hquiet⟩

/-- The attempt of a round has succeeded. -/
theorem Behind.connected {attempt : Trace WorkerOp.Res} {running : Bool}
    (h : p.Behind tr (.connect c retries, q)) (hattempt : q.Attempted c attempt q' true) :
    p.Ran (tr ++ ⟨.loadRunning, true⟩ :: (attempt ++ [⟨.loadRunning, running⟩]))
      (.ok (q'.left c running)) := by
  have hquiet : slept (observed (⟨.loadRunning, true⟩ ::
      (attempt ++ [⟨.loadRunning, running⟩]))) = [] := by
    change slept (observed ([⟨.loadRunning, true⟩] ++ (attempt ++ _))) = []
    simp only [observed_append, hattempt.observed]
    rfl
  cases running with
  | false => exact h.ends hquiet
  | true =>
    cases c with
    | mysql => exact ⟨_, [], retries, q', (List.append_nil _).symm, .intro h hattempt, .nothing⟩
    | rabbitmq => exact h.ends hquiet

/-- The attempt of a round has failed. -/
theorem Behind.refused {attempt : Trace WorkerOp.Res} (h : p.Behind tr (.connect c retries, q))
    (hattempt : q.Attempted c attempt q' false) :
    p.Behind
      (tr ++ ⟨.loadRunning, true⟩ :: (attempt ++ [⟨.sleepFor (retryDelay (retries + 1)), ()⟩]))
      (.connect c (retries + 1), q') := by
  cases c with
  | mysql => exact .again h hattempt
  | rabbitmq =>
    obtain ⟨db, between, j, q₁, rfl, hdb, hrefused⟩ := h
    exact ⟨db, _, j, q₁, List.append_assoc .., hdb, .again hrefused hattempt⟩

theorem Rounded.ran {s : Point × WorkerProcess}
    {out : Except Abort ((Point × WorkerProcess) ⊕ (WorkerProcess × Int))}
    (h : Rounded parse s tr' out) (hbehind : p.Behind tr s)
    (hfalls : Falls (observed tr')) : p.Ran (tr ++ tr') out := by
  cases h with
  | @stopped c retries q running =>
    cases running with
    | false => exact hbehind.ends rfl
    | true =>
      -- The flag has fallen for good.
      have hnot := List.rel_of_pairwise_cons hfalls (List.mem_singleton_self _) rfl
      exact absurd rfl hnot
  | connected hattempt => exact hbehind.connected hattempt
  | refused hattempt => exact hbehind.refused hattempt
  | notConnected | timeout | error => exact hbehind.ends rfl
  | @handled q deliveryTag body inner w =>
    refine hbehind.ends ?_
    change slept (.delivery :: observed (inner.map q.hostEvent ++ _)) = []
    rw [observed_append, observed_host]
    rfl
  | @thrown q deliveryTag body inner =>
    refine hbehind.ends ?_
    rw [observed_delivery]
    rfl

/-- Where `run` has come, all its delays are accounted for. -/
theorem run_ran {cfg : AppConfig} {boxes : List Int} {n : Nat}
    {out : Except Abort ((Point × WorkerProcess) ⊕ (WorkerProcess × Int))}
    (h : ((fresh cfg boxes).run parse n).Runs tr out) (hfalls : Falls (observed tr)) :
    (fresh cfg boxes).Ran tr out := by
  let I (tr : Trace WorkerOp.Res) (s : Point × WorkerProcess) : Prop :=
    Falls (observed tr) → (fresh cfg boxes).Behind tr s
  have hstart : I [] (.connect .mysql 0, fresh cfg boxes) := fun _ => .nothing
  have hright : ∀ {tr tr' : Trace WorkerOp.Res}, Falls (observed (tr ++ tr')) →
      Falls (observed tr) ∧ Falls (observed tr') := by
    intro tr tr' hfalls
    rw [observed_append] at hfalls
    exact ⟨hfalls.left, (List.pairwise_append.mp hfalls).2.1⟩
  have hround : ∀ before s first s', I before s →
      (round parse s).Runs first (.ok (.inl s')) → I (before ++ first) s' := by
    intro before s first s' hs hruns hfalls
    obtain ⟨hbefore, hfirst⟩ := hright hfalls
    exact (round_runs hruns).ran (hs hbefore) hfirst
  rcases Prog.rounds_runs hround hstart h with
    ⟨s, rfl, hkept⟩ | ⟨s, before, last, rfl, hkept, hlast, -⟩
  · exact hkept hfalls
  · obtain ⟨hbefore, hlate⟩ := hright hfalls
    exact (round_runs hlast).ran (hkept hbefore) hlate

theorem Ran.delayed {out : Except Abort ((Point × WorkerProcess) ⊕ (WorkerProcess × Int))}
    (h : p.Ran tr out) : ∃ j k, p.Delayed tr j k := by
  match out, h with
  | .ok (.inl _), h => exact Behind.delayed h
  | .ok (.inr _), h | .error _, h => exact h

end WorkerProcess
