-- SUMMARY: Programs that run side by side in one world, one operation at a time.
import FlowStudyJudge.Effects.Partial
import Mathlib.Logic.Function.Basic

/-! # Threads

Any number of threads run programs in one world. An operation of a thread is one step
of the whole system, and the steps of different threads may come in any order. -/

/-- A thread inside a call: what the call has issued, and what is left of it. -/
structure Thread {Op : Type} (Res : Op → Type) (X α : Type) where
  issued : Trace Res
  rest : Prog Res X α

/-- A world with threads in it. A thread outside of any call is `none`. -/
structure Threads {Op : Type} (Res : Op → Type) (X α σ ι : Type) where
  world : σ
  thread : ι → Option (Thread Res X α)

namespace Threads

variable {Op : Type} {Res : Op → Type} {X α σ ι : Type} [DecidableEq ι]

def start (s : σ) : Threads Res X α σ ι :=
  { world := s, thread := fun _ => none }

def set (c : Threads Res X α σ ι) (i : ι) (t : Option (Thread Res X α)) :
    Threads Res X α σ ι :=
  { c with thread := Function.update c.thread i t }

@[simp] theorem set_world (c : Threads Res X α σ ι) (i : ι) (t : Option (Thread Res X α)) :
    (c.set i t).world = c.world := rfl

@[simp] theorem set_same (c : Threads Res X α σ ι) (i : ι) (t : Option (Thread Res X α)) :
    (c.set i t).thread i = t := by
  simp [set]

theorem set_ne (c : Threads Res X α σ ι) {i j : ι} (t : Option (Thread Res X α)) (h : j ≠ i) :
    (c.set i t).thread j = c.thread j := by
  simp [set, h]

/-- One step of one thread. The programs of `P` are those that may be called. A call
    that an exception has left does not return. -/
inductive Step (W : World Res σ) (P : Prog Res X α → Prop) (c : Threads Res X α σ ι) :
    Threads Res X α σ ι → Prop where
  | call {i : ι} {p : Prog Res X α} (hidle : c.thread i = none) (hp : P p) :
      Step W P c (c.set i (some ⟨[], p⟩))
  | exec {i : ι} {issued : Trace Res} {op : Op} {k : Res op → Prog Res X α} {r : Res op} {s : σ}
      (hthread : c.thread i = some ⟨issued, .exec op k⟩) (hworld : W c.world ⟨op, r⟩ s) :
      Step W P c (set { c with world := s } i (some ⟨issued ++ [⟨op, r⟩], k r⟩))
  | return {i : ι} {issued : Trace Res} {a : α}
      (hthread : c.thread i = some ⟨issued, .done a⟩) : Step W P c (c.set i none)

/-- What any number of steps can lead to, in any order. -/
inductive Reachable (W : World Res σ) (P : Prog Res X α → Prop) (s : σ) :
    Threads Res X α σ ι → Prop where
  | start : Reachable W P s (start s)
  | step {c c' : Threads Res X α σ ι} (h : Reachable W P s c) (hstep : Step W P c c') :
      Reachable W P s c'

/-- Every thread is inside a run of a program that may be called. -/
def Sound (P : Prog Res X α → Prop) (c : Threads Res X α σ ι) : Prop :=
  ∀ i t, c.thread i = some t → ∃ p, P p ∧ p.Reaches t.issued t.rest

variable {W : World Res σ} {P : Prog Res X α → Prop} {c c' : Threads Res X α σ ι} {s : σ}

theorem Sound.set (h : Sound P c) {i : ι} {t : Option (Thread Res X α)}
    (ht : ∀ t', t = some t' → ∃ p, P p ∧ p.Reaches t'.issued t'.rest) : Sound P (c.set i t) := by
  intro j t' hj
  rcases eq_or_ne j i with rfl | hne
  · rw [set_same] at hj
    exact ht t' hj
  · rw [set_ne c t hne] at hj
    exact h j t' hj

theorem Step.sound (hstep : Step W P c c') (h : Sound P c) : Sound P c' := by
  cases hstep with
  | call hidle hp =>
    apply h.set
    rintro t' ⟨⟩
    exact ⟨_, hp, .here⟩
  | @exec i issued op k r s hthread hworld =>
    have hbefore : Sound P { c with world := s } := h
    apply hbefore.set
    rintro t' ⟨⟩
    obtain ⟨p, hp, hreaches⟩ := h i _ hthread
    exact ⟨p, hp, hreaches.snoc r⟩
  | «return» hthread =>
    apply h.set
    rintro t' ⟨⟩

theorem Reachable.sound (h : Reachable W P s c) : Sound P c := by
  induction h with
  | start =>
    intro i t ht
    cases ht
  | step _ hstep ih => exact hstep.sound ih

end Threads
