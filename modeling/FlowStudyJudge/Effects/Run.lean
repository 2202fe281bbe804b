-- SUMMARY: Runs of programs: the traces a program generates, worlds that answer its operations, and the rules for composing them.
import FlowStudyJudge.Effects.Prog

/-! # Runs

`p.Runs tr out` says that `p` can issue exactly the operations of `tr`, receive
the answers recorded there, and end in `out`. Every answer is allowed: what a
disk, a sandbox or a database can answer is the business of a `World`, which
constrains the trace from outside. -/

/-- An operation together with the answer it received. -/
structure Event {Op : Type} (Res : Op → Type) where
  op : Op
  res : Res op

/-- The operations of a run, in order. -/
abbrev Trace {Op : Type} (Res : Op → Type) := List (Event Res)

namespace Trace

variable {Op : Type} {Res : Op → Type}

/-- Every operation of the trace satisfies `P`. -/
def Only (P : Op → Bool) (tr : Trace Res) : Prop :=
  ∀ e ∈ tr, P e.op = true

variable {P Q : Op → Bool} {tr tr₁ tr₂ : Trace Res}

@[simp] theorem only_nil : Only P ([] : Trace Res) := by
  simp [Only]

@[simp] theorem only_cons {e : Event Res} : Only P (e :: tr) ↔ P e.op = true ∧ Only P tr := by
  simp [Only]

@[simp] theorem only_append : Only P (tr₁ ++ tr₂) ↔ Only P tr₁ ∧ Only P tr₂ := by
  simp [Only, or_imp, forall_and]

theorem Only.mono (h : Only P tr) (hPQ : ∀ op, P op = true → Q op = true) : Only Q tr :=
  fun e he => hPQ _ (h e he)

end Trace

namespace Prog

variable {Op : Type} {Res : Op → Type} {X α β : Type}

/-- `p.Runs tr out`: `tr` and `out` are a possible complete execution of `p`. -/
inductive Runs : Prog Res X α → Trace Res → Except X α → Prop where
  | done {a : α} : Runs (.done a) [] (.ok a)
  | raise {x : X} : Runs (.raise x) [] (.error x)
  | exec {op : Op} {k : Res op → Prog Res X α} {r : Res op} {tr : Trace Res}
      {out : Except X α} :
      Runs (k r) tr out →
      Runs (.exec op k) (⟨op, r⟩ :: tr) out

/-! ## Inversion -/

@[simp] theorem runs_done {a : α} {tr : Trace Res} {out : Except X α} :
    (.done a : Prog Res X α).Runs tr out ↔ tr = [] ∧ out = .ok a := by
  constructor
  · rintro ⟨⟩
    exact ⟨rfl, rfl⟩
  · rintro ⟨rfl, rfl⟩
    exact .done

@[simp] theorem runs_raise {x : X} {tr : Trace Res} {out : Except X α} :
    (.raise x : Prog Res X α).Runs tr out ↔ tr = [] ∧ out = .error x := by
  constructor
  · rintro ⟨⟩
    exact ⟨rfl, rfl⟩
  · rintro ⟨rfl, rfl⟩
    exact .raise

theorem runs_exec {op : Op} {k : Res op → Prog Res X α} {tr : Trace Res}
    {out : Except X α} :
    (Prog.exec op k).Runs tr out ↔ ∃ r tr', tr = ⟨op, r⟩ :: tr' ∧ (k r).Runs tr' out := by
  constructor
  · rintro ⟨⟩
    exact ⟨_, _, rfl, ‹_›⟩
  · rintro ⟨r, tr', rfl, h⟩
    exact .exec h

@[simp] theorem runs_perform {op : Op} {tr : Trace Res} {out : Except X (Res op)} :
    (perform op : Prog Res X (Res op)).Runs tr out ↔ ∃ r, tr = [⟨op, r⟩] ∧ out = .ok r := by
  simp only [perform, runs_exec, runs_done]
  constructor
  · rintro ⟨r, tr', rfl, rfl, rfl⟩
    exact ⟨r, rfl, rfl⟩
  · rintro ⟨r, rfl, rfl⟩
    exact ⟨r, [], rfl, rfl, rfl⟩

/-- A run of a sequence is a run of its first part that returns, followed by a
    run of the second part, or a run of the first part that throws. -/
theorem runs_bind {p : Prog Res X α} {f : α → Prog Res X β} {tr : Trace Res}
    {out : Except X β} :
    (p >>= f).Runs tr out ↔
      (∃ a tr₁ tr₂, p.Runs tr₁ (.ok a) ∧ (f a).Runs tr₂ out ∧ tr = tr₁ ++ tr₂) ∨
      (∃ x, p.Runs tr (.error x) ∧ out = .error x) := by
  induction p generalizing tr with
  | done a =>
    constructor
    · intro h
      exact .inl ⟨a, [], tr, .done, h, rfl⟩
    · rintro (⟨b, tr₁, tr₂, h₁, h₂, rfl⟩ | ⟨x, h₁, rfl⟩)
      · cases h₁
        exact h₂
      · cases h₁
  | raise x =>
    constructor
    · intro h
      obtain ⟨rfl, rfl⟩ := runs_raise.mp h
      exact .inr ⟨x, .raise, rfl⟩
    · rintro (⟨b, tr₁, tr₂, h₁, h₂, rfl⟩ | ⟨x, h₁, rfl⟩)
      · cases h₁
      · cases h₁
        exact .raise
  | exec op k ih =>
    simp only [exec_bind, runs_exec]
    constructor
    · rintro ⟨r, tr', rfl, h⟩
      rcases (ih r).mp h with ⟨a, tr₁, tr₂, h₁, h₂, rfl⟩ | ⟨x, h₁, rfl⟩
      · exact .inl ⟨a, ⟨op, r⟩ :: tr₁, tr₂, ⟨r, tr₁, rfl, h₁⟩, h₂, rfl⟩
      · exact .inr ⟨x, ⟨r, tr', rfl, h₁⟩, rfl⟩
    · rintro (⟨a, _, tr₂, ⟨r, tr₁, rfl, h₁⟩, h₂, rfl⟩ | ⟨x, ⟨r, tr', rfl, h₁⟩, rfl⟩)
      · exact ⟨r, tr₁ ++ tr₂, rfl, (ih r).mpr (.inl ⟨a, tr₁, tr₂, h₁, h₂, rfl⟩)⟩
      · exact ⟨r, tr', rfl, (ih r).mpr (.inr ⟨x, h₁, rfl⟩)⟩

/-- Sequencing after a single operation. -/
theorem runs_perform_bind {op : Op} {f : Res op → Prog Res X β} {tr : Trace Res}
    {out : Except X β} :
    ((perform op : Prog Res X (Res op)) >>= f).Runs tr out ↔
      ∃ r tr', tr = ⟨op, r⟩ :: tr' ∧ (f r).Runs tr' out := by
  simp only [perform, exec_bind, done_bind, runs_exec]

/-- At most one prefix of a trace is a complete run. -/
theorem Runs.prefix_unique {p : Prog Res X α} {tr tr₁ tr₂ : Trace Res} {out₁ out₂ : Except X α}
    (h₁ : p.Runs tr₁ out₁) (h₂ : p.Runs tr₂ out₂) (hp₁ : tr₁ <+: tr) (hp₂ : tr₂ <+: tr) :
    tr₁ = tr₂ ∧ out₁ = out₂ := by
  induction h₁ generalizing tr tr₂ with
  | done =>
    obtain ⟨rfl, rfl⟩ := runs_done.mp h₂
    exact ⟨rfl, rfl⟩
  | raise =>
    obtain ⟨rfl, rfl⟩ := runs_raise.mp h₂
    exact ⟨rfl, rfl⟩
  | exec _ ih =>
    obtain ⟨r, tr₃, rfl, h₃⟩ := runs_exec.mp h₂
    obtain ⟨rest₁, rfl⟩ := hp₁
    obtain ⟨heq, hrest⟩ := List.cons_prefix_cons.mp hp₂
    cases heq
    obtain ⟨rfl, hout⟩ := ih h₃ (List.prefix_append ..) hrest
    exact ⟨rfl, hout⟩

end Prog

/-! ## Worlds -/

/-- What answers the operations of a program: `step s e s'` when operation
    `e.op`, issued in state `s`, may receive the answer `e.res` and leave `s'`. -/
abbrev World {Op : Type} (Res : Op → Type) (σ : Type) := σ → Event Res → σ → Prop

namespace World

variable {Op : Type} {Res : Op → Type} {σ : Type}

/-- `W.Path s tr s'`: the world can go through the events of `tr` from `s` to `s'`. -/
inductive Path (W : World Res σ) : σ → Trace Res → σ → Prop where
  | nil {s : σ} : Path W s [] s
  | cons {s s₁ s₂ : σ} {e : Event Res} {tr : Trace Res} :
      W s e s₁ → Path W s₁ tr s₂ → Path W s (e :: tr) s₂

variable {W : World Res σ}

@[simp] theorem path_nil {s s' : σ} : W.Path s [] s' ↔ s' = s := by
  constructor
  · rintro ⟨⟩
    rfl
  · rintro rfl
    exact .nil

theorem path_cons {s s' : σ} {e : Event Res} {tr : Trace Res} :
    W.Path s (e :: tr) s' ↔ ∃ s₁, W s e s₁ ∧ W.Path s₁ tr s' := by
  constructor
  · rintro ⟨⟩
    exact ⟨_, ‹_›, ‹_›⟩
  · rintro ⟨s₁, h, ht⟩
    exact .cons h ht

theorem path_append {s s' : σ} {tr₁ tr₂ : Trace Res} :
    W.Path s (tr₁ ++ tr₂) s' ↔ ∃ s₁, W.Path s tr₁ s₁ ∧ W.Path s₁ tr₂ s' := by
  induction tr₁ generalizing s with
  | nil => simp
  | cons e tr ih =>
    simp only [List.cons_append, path_cons, ih]
    constructor
    · rintro ⟨s₁, h, s₂, h₁, h₂⟩
      exact ⟨s₂, ⟨s₁, h, h₁⟩, h₂⟩
    · rintro ⟨s₂, ⟨s₁, h, h₁⟩, h₂⟩
      exact ⟨s₁, h, s₂, h₁, h₂⟩

end World

/-! ## Deterministic worlds -/

/-- A world that computes its answers. -/
abbrev Handler {Op : Type} (Res : Op → Type) (σ : Type) := (op : Op) → σ → Res op × σ

namespace Prog

variable {Op : Type} {Res : Op → Type} {σ X α β : Type}

/-- Run a program against a handler. -/
def eval (h : Handler Res σ) : Prog Res X α → σ → Except X α × σ
  | .done a, s => (.ok a, s)
  | .raise x, s => (.error x, s)
  | .exec op k, s => (k (h op s).1).eval h (h op s).2

/-- The trace of the run against a handler. -/
def trace (h : Handler Res σ) : Prog Res X α → σ → Trace Res
  | .done _, _ => []
  | .raise _, _ => []
  | .exec op k, s => ⟨op, (h op s).1⟩ :: (k (h op s).1).trace h (h op s).2

variable {h : Handler Res σ}

/-- Running a sequence against a handler. -/
theorem eval_bind (p : Prog Res X α) (f : α → Prog Res X β) (s : σ) :
    (p >>= f).eval h s =
      match p.eval h s with
      | (.ok a, s') => (f a).eval h s'
      | (.error x, s') => (.error x, s') := by
  induction p generalizing s with
  | done a => rfl
  | raise x => rfl
  | exec op k ih => exact ih _ _

/-- What every operation keeps is kept by a run against the handler. -/
theorem eval_keeps {P : σ → Prop} (hkeep : ∀ op s, P s → P (h op s).2) (p : Prog Res X α)
    {s : σ} (hs : P s) : P (p.eval h s).2 := by
  induction p generalizing s with
  | done a => exact hs
  | raise x => exact hs
  | exec op k ih => exact ih _ (hkeep op s hs)

/-- The first part of a sequence is traced first. -/
theorem trace_bind_prefix (p : Prog Res X α) (f : α → Prog Res X β) (s : σ) :
    p.trace h s <+: (p >>= f).trace h s := by
  induction p generalizing s with
  | done a => exact List.nil_prefix
  | raise x => exact List.nil_prefix
  | exec op k ih => exact List.cons_prefix_cons.mpr ⟨rfl, ih _ _⟩

/-- A run against a handler is one of the program's runs. -/
theorem runs_trace (p : Prog Res X α) (h : Handler Res σ) (s : σ) :
    p.Runs (p.trace h s) (p.eval h s).1 := by
  induction p generalizing s with
  | done a => exact .done
  | raise x => exact .raise
  | exec op k ih => exact .exec (ih _ _)

theorem runs_trace_of_eval {p : Prog Res X α} {s : σ} {out : Except X α}
    (heval : (p.eval h s).1 = out) : p.Runs (p.trace h s) out := by
  rw [← heval]
  exact runs_trace p h s

/-- The events of a run against a handler form a path of any world that allows
    the handler's answers. -/
theorem path_trace (p : Prog Res X α) {W : World Res σ}
    (hW : ∀ op s, W s ⟨op, (h op s).1⟩ (h op s).2) (s : σ) :
    W.Path s (p.trace h s) (p.eval h s).2 := by
  induction p generalizing s with
  | done a => exact .nil
  | raise x => exact .nil
  | exec op k ih => exact .cons (hW op s) (ih _ _)

/-- In a run against the handler, `ok` holds of every operation in the state it is issued in. -/
def meets (ok : Op → σ → Bool) (h : Handler Res σ) : Prog Res X α → σ → Bool
  | .done _, _ | .raise _, _ => true
  | .exec op k, s => ok op s && meets ok h (k (h op s).1) (h op s).2

end Prog
