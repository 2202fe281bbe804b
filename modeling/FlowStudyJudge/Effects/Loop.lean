-- SUMMARY: Loops over programs: any number of rounds of a body, and what holds between two rounds.
import FlowStudyJudge.Effects.Partial

/-! # Loops

The body of a loop goes on with a new state (`inl`) or leaves the loop (`inr`). Programs are
finite, so a loop that need not end is looked at up to some number of rounds, which is
arbitrary in every statement. -/

namespace Prog

variable {Op : Type} {Res : Op → Type} {σ X α β : Type}

/-- At most `n` rounds. The loop is left with `inr`; `inl` is the state in which the round
    behind these would begin. -/
def rounds (body : σ → Prog Res X (σ ⊕ β)) : Nat → σ → Prog Res X (σ ⊕ β)
  | 0, s => .done (.inl s)
  | n + 1, s => do
    match ← body s with
    | .inl s' => rounds body n s'
    | .inr b => return .inr b

variable {body : σ → Prog Res X (σ ⊕ β)} {s s' : σ} {n : Nat} {tr tr₀ : Trace Res}
  {p q : Prog Res X α}

/-! ## Whole runs -/

/-- The rounds go on behind the first, or the first was the last. -/
theorem rounds_succ_runs {out : Except X (σ ⊕ β)} (h : (rounds body (n + 1) s).Runs tr out) :
    (∃ s' first rest, (body s).Runs first (.ok (.inl s')) ∧ (rounds body n s').Runs rest out ∧
      tr = first ++ rest) ∨
    (body s).Runs tr out ∧ ∀ s', out ≠ .ok (.inl s') := by
  rcases runs_bind.mp h with ⟨r, first, rest, hfirst, hrest, rfl⟩ | ⟨x, hthrown, rfl⟩
  · cases r with
    | inl s' => exact .inl ⟨s', first, rest, hfirst, hrest, rfl⟩
    | inr b =>
      obtain ⟨rfl, rfl⟩ := runs_done.mp hrest
      rw [List.append_nil]
      exact .inr ⟨hfirst, nofun⟩
  · exact .inr ⟨hthrown, nofun⟩

/-- What every round that goes on keeps holds between any two rounds, and before the one
    that leaves the loop. -/
theorem rounds_runs {I : Trace Res → σ → Prop} {out : Except X (σ ⊕ β)}
    (hround : ∀ before s first s', I before s → (body s).Runs first (.ok (.inl s')) →
      I (before ++ first) s')
    (hstart : I tr₀ s) (h : (rounds body n s).Runs tr out) :
    (∃ s', out = .ok (.inl s') ∧ I (tr₀ ++ tr) s') ∨
    ∃ s' before last, tr = before ++ last ∧ I (tr₀ ++ before) s' ∧ (body s').Runs last out ∧
      ∀ s'', out ≠ .ok (.inl s'') := by
  induction n generalizing s tr₀ tr with
  | zero =>
    obtain ⟨rfl, rfl⟩ := runs_done.mp h
    rw [List.append_nil]
    exact .inl ⟨s, rfl, hstart⟩
  | succ n ih =>
    rcases rounds_succ_runs h with ⟨s₁, first, rest, hfirst, hrest, rfl⟩ | ⟨hlast, hleft⟩
    · rcases ih (hround _ _ _ _ hstart hfirst) hrest with
        ⟨s', rfl, hkept⟩ | ⟨s', before, last, rfl, hkept, hlast, hleft⟩
      · rw [List.append_assoc] at hkept
        exact .inl ⟨s', rfl, hkept⟩
      · rw [List.append_assoc] at hkept
        exact .inr ⟨s', first ++ before, last, (List.append_assoc ..).symm, hkept, hlast, hleft⟩
    · refine .inr ⟨s, [], tr, rfl, ?_, hlast, hleft⟩
      rw [List.append_nil]
      exact hstart

/-- An exception leaves the loop in one of its rounds. -/
theorem rounds_raised {x : X} (h : (rounds body n s).Runs tr (.error x)) :
    ∃ s' before last, tr = before ++ last ∧ (body s').Runs last (.error x) := by
  induction n generalizing s tr with
  | zero => cases (runs_done.mp h).2
  | succ n ih =>
    rcases rounds_succ_runs h with ⟨s', first, rest, -, hrest, rfl⟩ | ⟨hlast, -⟩
    · obtain ⟨s'', before, last, rfl, hlast⟩ := ih hrest
      exact ⟨s'', first ++ before, last, (List.append_assoc ..).symm, hlast⟩
    · exact ⟨s, [], tr, rfl, hlast⟩

/-! ## Partial runs -/

/-- A partial run that has returned is a whole run. -/
theorem Runs.reaches {a : α} (h : p.Runs tr (.ok a)) : p.Reaches tr (.done a) :=
  h.reaches_end

end Prog

namespace World

variable {Op : Type} {Res : Op → Type} {σ : Type} {W : World Res σ}

/-- A property of the history and the state that every step of the world keeps. -/
theorem Path.keeps {P : Trace Res → σ → Prop} {tr₀ tr : Trace Res} {s s' : σ}
    (hstep : ∀ before s e s', P before s → W s e s' → P (before ++ [e]) s')
    (hstart : P tr₀ s) (h : W.Path s tr s') : P (tr₀ ++ tr) s' := by
  induction h generalizing tr₀ with
  | nil =>
    rw [List.append_nil]
    exact hstart
  | cons hfirst _ ih =>
    have hrest := ih (hstep _ _ _ _ hstart hfirst)
    rw [List.append_assoc] at hrest
    exact hrest

/-- The step of an event inside of a history. -/
theorem Path.at_event {s s' : σ} {before after : Trace Res} {e : Event Res}
    (h : W.Path s (before ++ e :: after) s') :
    ∃ s₁ s₂, W.Path s before s₁ ∧ W s₁ e s₂ ∧ W.Path s₂ after s' := by
  obtain ⟨s₁, hbefore, hrest⟩ := path_append.mp h
  obtain ⟨s₂, hstep, hafter⟩ := path_cons.mp hrest
  exact ⟨s₁, s₂, hbefore, hstep, hafter⟩

end World
