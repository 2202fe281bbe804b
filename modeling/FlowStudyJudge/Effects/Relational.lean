-- SUMMARY: Two runs of a program side by side: relational triples over the states of a handler, and the rules for composing them.
import FlowStudyJudge.Effects.Run

/-! # Relational triples

`Related h ok P p₁ p₂ Q`: from states related by `P`, the runs of `p₁` and `p₂` against
the handler `h` both return, with results and states related by `Q`, or both raise the
same exception. Only runs that end in `ok` states count, for a property `ok` that a
run can lose but not gain. -/

namespace Prog

variable {Op : Type} {Res : Op → Type} {σ X α β : Type}

/-- The outcomes of two runs correspond. -/
def Corresponds (Q : α → α → σ → σ → Prop) : Except X α × σ → Except X α × σ → Prop
  | (.ok a₁, t₁), (.ok a₂, t₂) => Q a₁ a₂ t₁ t₂
  | (.error x₁, _), (.error x₂, _) => x₁ = x₂
  | (.ok _, _), (.error _, _) | (.error _, _), (.ok _, _) => False

def Related (h : Handler Res σ) (ok : σ → Prop) (P : σ → σ → Prop) (p₁ p₂ : Prog Res X α)
    (Q : α → α → σ → σ → Prop) : Prop :=
  ∀ s₁ s₂, P s₁ s₂ → ok (p₁.eval h s₁).2 → ok (p₂.eval h s₂).2 →
    Corresponds Q (p₁.eval h s₁) (p₂.eval h s₂)

theorem Corresponds.eq_outcome {r₁ r₂ : Except X α × σ}
    (hcorr : Corresponds (fun a₁ a₂ _ _ => a₁ = a₂) r₁ r₂) : r₁.1 = r₂.1 := by
  obtain ⟨out₁, t₁⟩ := r₁
  obtain ⟨out₂, t₂⟩ := r₂
  cases out₁ <;> cases out₂
  · exact congrArg Except.error hcorr
  · exact hcorr.elim
  · exact hcorr.elim
  · exact congrArg Except.ok hcorr

variable {h : Handler Res σ} {ok : σ → Prop} {P : σ → σ → Prop} {Q : α → α → σ → σ → Prop}

/-- A run that ends in an `ok` state began in one. -/
theorem ok_of_eval (hok : ∀ op s, ok (h op s).2 → ok s) (p : Prog Res X α) {s : σ}
    (hfinal : ok (p.eval h s).2) : ok s := by
  induction p generalizing s with
  | done a => exact hfinal
  | raise x => exact hfinal
  | exec op k ih => exact hok op s (ih _ hfinal)

namespace Related

theorem done {a₁ a₂ : α} (hpost : ∀ s₁ s₂, P s₁ s₂ → Q a₁ a₂ s₁ s₂) :
    Related h ok P (.done a₁ : Prog Res X α) (.done a₂) Q :=
  fun s₁ s₂ hP _ _ => hpost s₁ s₂ hP

theorem raise {x : X} : Related h ok P (.raise x : Prog Res X α) (.raise x) Q :=
  fun _ _ _ _ _ => rfl

/-- The same operation on both sides. -/
theorem perform {op : Op} {Q : Res op → Res op → σ → σ → Prop}
    (hop : ∀ s₁ s₂, P s₁ s₂ → ok (h op s₁).2 → ok (h op s₂).2 →
      Q (h op s₁).1 (h op s₂).1 (h op s₁).2 (h op s₂).2) :
    Related h ok P (Prog.perform op : Prog Res X (Res op)) (Prog.perform op) Q :=
  fun s₁ s₂ hP hok₁ hok₂ => hop s₁ s₂ hP hok₁ hok₂

theorem bind {p₁ p₂ : Prog Res X α} {f₁ f₂ : α → Prog Res X β} {R : β → β → σ → σ → Prop}
    (hok : ∀ op s, ok (h op s).2 → ok s) (hp : Related h ok P p₁ p₂ Q)
    (hf : ∀ a₁ a₂, Related h ok (Q a₁ a₂) (f₁ a₁) (f₂ a₂) R) :
    Related h ok P (p₁ >>= f₁) (p₂ >>= f₂) R := by
  intro s₁ s₂ hP hok₁ hok₂
  have hcorr := hp s₁ s₂ hP
  rw [eval_bind] at hok₁ ⊢
  rw [eval_bind] at hok₂ ⊢
  cases hrun₁ : p₁.eval h s₁ with
  | mk out₁ t₁ =>
    cases hrun₂ : p₂.eval h s₂ with
    | mk out₂ t₂ =>
      rw [hrun₁] at hok₁ hcorr
      rw [hrun₂] at hok₂ hcorr
      cases out₁ with
      | error x₁ =>
        cases out₂ with
        | error x₂ => exact hcorr hok₁ hok₂
        | ok a₂ => exact (hcorr hok₁ (ok_of_eval hok _ hok₂)).elim
      | ok a₁ =>
        cases out₂ with
        | error x₂ => exact (hcorr (ok_of_eval hok _ hok₁) hok₂).elim
        | ok a₂ =>
          have hQ := hcorr (ok_of_eval hok _ hok₁) (ok_of_eval hok _ hok₂)
          exact hf a₁ a₂ t₁ t₂ hQ hok₁ hok₂

theorem mono {p₁ p₂ : Prog Res X α} {P' : σ → σ → Prop} {Q' : α → α → σ → σ → Prop}
    (hp : Related h ok P p₁ p₂ Q) (hpre : ∀ s₁ s₂, P' s₁ s₂ → P s₁ s₂)
    (hpost : ∀ a₁ a₂ s₁ s₂, Q a₁ a₂ s₁ s₂ → Q' a₁ a₂ s₁ s₂) :
    Related h ok P' p₁ p₂ Q' := by
  intro s₁ s₂ hP hok₁ hok₂
  have hcorr := hp s₁ s₂ (hpre s₁ s₂ hP) hok₁ hok₂
  revert hcorr
  rcases p₁.eval h s₁ with ⟨out₁, t₁⟩
  rcases p₂.eval h s₂ with ⟨out₂, t₂⟩
  cases out₁ <;> cases out₂ <;> intro hcorr
  · exact hcorr
  · exact hcorr
  · exact hcorr
  · exact hpost _ _ _ _ hcorr

/-- A fact that holds of all related states may be assumed. -/
theorem assume {φ : Prop} {p₁ p₂ : Prog Res X α} (hφ : ∀ s₁ s₂, P s₁ s₂ → φ)
    (hp : φ → Related h ok P p₁ p₂ Q) : Related h ok P p₁ p₂ Q :=
  fun s₁ s₂ hP => hp (hφ s₁ s₂ hP) s₁ s₂ hP

theorem exists_pre {ι : Type} {P : ι → σ → σ → Prop} {p₁ p₂ : Prog Res X α}
    (hp : ∀ i, Related h ok (P i) p₁ p₂ Q) :
    Related h ok (fun s₁ s₂ => ∃ i, P i s₁ s₂) p₁ p₂ Q :=
  fun s₁ s₂ ⟨i, hP⟩ => hp i s₁ s₂ hP

/-- Sequencing when the first parts return the same result. -/
theorem bind_eq {p₁ p₂ : Prog Res X α} {f₁ f₂ : α → Prog Res X β} {S : σ → σ → Prop}
    {R : β → β → σ → σ → Prop} (hok : ∀ op s, ok (h op s).2 → ok s)
    (hp : Related h ok P p₁ p₂ fun a₁ a₂ s₁ s₂ => a₁ = a₂ ∧ S s₁ s₂)
    (hf : ∀ a, Related h ok S (f₁ a) (f₂ a) R) :
    Related h ok P (p₁ >>= f₁) (p₂ >>= f₂) R := by
  refine bind hok hp fun a₁ a₂ => ?_
  refine assume (fun s₁ s₂ hS => hS.1) fun heq => ?_
  subst heq
  exact (hf a₁).mono (fun s₁ s₂ hS => hS.2) fun _ _ _ _ hR => hR

end Related

end Prog
