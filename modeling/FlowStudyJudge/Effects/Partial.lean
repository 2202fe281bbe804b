-- SUMMARY: Runs that have not ended: what is left of a program behind a trace, and how it completes to a run.
import FlowStudyJudge.Effects.Run

/-! # Partial runs

`p.Reaches tr q` says that `p` can issue the operations of `tr`, receive the answers
recorded there, and then go on as `q`. A process that can be interrupted at any point is
in such a state between two of its operations. -/

namespace Prog

variable {Op : Type} {Res : Op → Type} {σ X α : Type}

inductive Reaches : Prog Res X α → Trace Res → Prog Res X α → Prop where
  | here {p : Prog Res X α} : Reaches p [] p
  | exec {op : Op} {k : Res op → Prog Res X α} {r : Res op} {tr : Trace Res}
      {q : Prog Res X α} :
      Reaches (k r) tr q →
      Reaches (.exec op k) (⟨op, r⟩ :: tr) q

variable {p q : Prog Res X α} {tr tr' : Trace Res}

/-- One more operation. -/
theorem Reaches.snoc {op : Op} {k : Res op → Prog Res X α} (h : p.Reaches tr (.exec op k))
    (r : Res op) : p.Reaches (tr ++ [⟨op, r⟩]) (k r) := by
  generalize hq : Prog.exec op k = q at h
  induction h with
  | here =>
    subst hq
    exact .exec .here
  | exec _ ih => exact .exec (ih hq)

/-- What is left completes the run. -/
theorem Reaches.runs {out : Except X α} (h : p.Reaches tr q) (hq : q.Runs tr' out) :
    p.Runs (tr ++ tr') out := by
  induction h with
  | here => exact hq
  | exec _ ih => exact .exec (ih hq)

theorem Reaches.runs_done {a : α} (h : p.Reaches tr (.done a)) : p.Runs tr (.ok a) := by
  have hruns := h.runs .done
  rw [List.append_nil] at hruns
  exact hruns

/-- Every partial run can be completed, as some handler answers everything. -/
theorem Reaches.completes (h : p.Reaches tr q) (handler : Handler Res σ) (s : σ) :
    ∃ tr' out, p.Runs (tr ++ tr') out :=
  ⟨_, _, h.runs (q.runs_trace handler s)⟩

/-- Where a program goes no further: it has ended, or the world has no answer to its next
    operation. -/
inductive Halted (W : World Res σ) (s : σ) : Prog Res X α → Prop where
  | done {a : α} : Halted W s (.done a)
  | raise {x : X} : Halted W s (.raise x)
  | waits {op : Op} {k : Res op → Prog Res X α} (h : ∀ r s', ¬ W s ⟨op, r⟩ s') :
      Halted W s (.exec op k)

/-- `p` runs in the world as far as it gets. -/
structure Halts (W : World Res σ) (p : Prog Res X α) (s : σ) (tr : Trace Res) (q : Prog Res X α)
    (s' : σ) : Prop where
  reaches : p.Reaches tr q
  path : W.Path s tr s'
  halted : Halted W s' q

/-- A whole run reaches its end. -/
theorem Runs.reaches_end {out : Except X α} (h : p.Runs tr out) : p.Reaches tr (ofExcept id out) := by
  induction h with
  | done | raise => exact .here
  | exec _ ih => exact .exec ih

theorem Runs.halts {W : World Res σ} {s s' : σ} {out : Except X α} (h : p.Runs tr out)
    (hpath : W.Path s tr s') : p.Halts W s tr (ofExcept id out) s' := by
  refine ⟨h.reaches_end, hpath, ?_⟩
  cases out with
  | ok a => exact .done
  | error x => exact .raise

/-- A program that has halted has run to its end, or it waits. -/
theorem Halts.cases {W : World Res σ} {s s' : σ} (h : p.Halts W s tr q s') :
    (∃ out, q = ofExcept id out ∧ p.Runs tr out) ∨
      ∃ op k, q = .exec op k ∧ ∀ r s₁, ¬ W s' ⟨op, r⟩ s₁ := by
  obtain ⟨hreaches, -, hhalted⟩ := h
  cases hhalted with
  | @done a => exact .inl ⟨.ok a, rfl, hreaches.runs_done⟩
  | @raise x =>
    have hruns := hreaches.runs (.raise (x := x))
    rw [List.append_nil] at hruns
    exact .inl ⟨.error x, rfl, hruns⟩
  | @waits op k hwaits => exact .inr ⟨op, k, rfl, hwaits⟩

end Prog

namespace Trace

variable {Op : Type} {Res : Op → Type} {P : Op → Bool}

/-- The only event with a property that ends a trace is where the trace splits at it. -/
theorem Only.split_last {tr tr₁ tr₂ : Trace Res} {e e' : Event Res}
    (h : tr ++ [e'] = tr₁ ++ e :: tr₂) (hP : Only (fun op => !P op) tr) (he : P e.op = true) :
    tr₁ = tr ∧ e = e' ∧ tr₂ = [] := by
  rcases List.eq_nil_or_concat tr₂ with rfl | ⟨rest, last, rfl⟩
  · obtain ⟨htr, hlast⟩ := List.append_inj' h rfl
    cases hlast
    exact ⟨htr.symm, rfl, rfl⟩
  · have hlast : tr ++ [e'] = (tr₁ ++ e :: rest) ++ [last] := by
      rw [h]
      simp
    obtain ⟨htr, -⟩ := List.append_inj' hlast rfl
    have hnot : (!P e.op) = true := hP e (by rw [htr]; simp)
    rw [he] at hnot
    cases hnot

end Trace
