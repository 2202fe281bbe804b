-- SUMMARY: Programs whose operations another system can follow one by one, and the rules for composing them.
import FlowStudyJudge.Effects.Embed
import Mathlib.Logic.Relation

/-! # Simulation

A program runs in a world whose states `S` it shares with others, with a state `L` of its own.
`p.Simulated W N Q l g` says that a process of some other system can follow the program from
its state `g` on: whenever the world does something for an operation, steps `N` of the process
do the same to the shared state. Where the program returns `a`, the process can come to a state
that fits `a` without touching what is shared. -/

namespace Prog

variable {Op : Type} {Res : Op → Type} {S L G X α β σ : Type}

def Simulated (W : World Res (S × L)) (N : S × G → S × G → Prop) (Q : α → L → G → Prop) :
    Prog Res X α → L → G → Prop
  | .done a, l, g => ∃ g', (∀ s, Relation.ReflTransGen N (s, g) (s, g')) ∧ Q a l g'
  | .raise _, _, _ => True
  | .exec op k, l, g => ∀ s r s' l', W (s, l) ⟨op, r⟩ (s', l') →
      ∃ g', Relation.ReflTransGen N (s, g) (s', g') ∧ Simulated W N Q (k r) l' g'

namespace Simulated

variable {W : World Res (S × L)} {N : S × G → S × G → Prop} {Q : α → L → G → Prop}
  {Q' : β → L → G → Prop} {p : Prog Res X α} {l : L} {g g' : G}

theorem done {a : α} (h : Q a l g) : (Prog.done a : Prog Res X α).Simulated W N Q l g :=
  ⟨g, fun _ => .refl, h⟩

/-- The process may first take steps of its own. -/
theorem before (hsteps : ∀ s, Relation.ReflTransGen N (s, g) (s, g'))
    (h : p.Simulated W N Q l g') : p.Simulated W N Q l g := by
  cases p with
  | done a =>
    obtain ⟨g₁, hrest, hq⟩ := h
    exact ⟨g₁, fun s => (hsteps s).trans (hrest s), hq⟩
  | raise x => trivial
  | exec op k =>
    intro s r s' l' hworld
    obtain ⟨g₁, hrest, hk⟩ := h s r s' l' hworld
    exact ⟨g₁, (hsteps s).trans hrest, hk⟩

theorem mono {R : α → L → G → Prop} (h : p.Simulated W N Q l g)
    (himp : ∀ a l g, Q a l g → R a l g) : p.Simulated W N R l g := by
  induction p generalizing l g with
  | done a =>
    obtain ⟨g', hsteps, hq⟩ := h
    exact ⟨g', hsteps, himp a l g' hq⟩
  | raise x => trivial
  | exec op k ih =>
    intro s r s' l' hworld
    obtain ⟨g', hsteps, hk⟩ := h s r s' l' hworld
    exact ⟨g', hsteps, ih r hk⟩

theorem bind {f : α → Prog Res X β} (h : p.Simulated W N Q l g)
    (hf : ∀ a l g, Q a l g → (f a).Simulated W N Q' l g) : (p >>= f).Simulated W N Q' l g := by
  induction p generalizing l g with
  | done a =>
    obtain ⟨g', hsteps, hq⟩ := h
    exact (hf a l g' hq).before hsteps
  | raise x => trivial
  | exec op k ih =>
    intro s r s' l' hworld
    obtain ⟨g', hsteps, hk⟩ := h s r s' l' hworld
    exact ⟨g', hsteps, ih r hk⟩

/-- One operation, and the program behind it. -/
theorem perform_bind {op : Op} {f : Res op → Prog Res X β}
    (h : ∀ s r s' l', W (s, l) ⟨op, r⟩ (s', l') →
      ∃ g', Relation.ReflTransGen N (s, g) (s', g') ∧ (f r).Simulated W N Q' l' g') :
    ((Prog.perform op : Prog Res X (Res op)) >>= f).Simulated W N Q' l g :=
  h

/-- A loop whose rounds keep the invariant. -/
theorem rounds {body : σ → Prog Res X (σ ⊕ β)} {I : σ → L → G → Prop}
    (hround : ∀ s l g, I s l g → (body s).Simulated W N (Sum.elim I Q') l g) {n : Nat} {s : σ}
    (hstart : I s l g) : (Prog.rounds body n s).Simulated W N (Sum.elim I Q') l g := by
  induction n generalizing s l g with
  | zero => exact done hstart
  | succ n ih =>
    refine (hround s l g hstart).bind fun r l g hr => ?_
    cases r with
    | inl s' => exact ih hr
    | inr b => exact done hr

end Simulated

end Prog
