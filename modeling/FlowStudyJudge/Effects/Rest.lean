-- SUMMARY: Threads come to rest: without new calls no schedule goes on for ever.
import FlowStudyJudge.Effects.Threads
import Mathlib.Logic.Hydra

/-! # Rest

A program has no loops of its own, so a thread inside of a call has finitely many
operations to go, whatever the answers are. With finitely many threads inside of calls,
every schedule of them ends. -/

namespace Prog

variable {Op : Type} {Res : Op → Type} {X α : Type}

/-- What a program can go on as behind its first operation. -/
inductive After : Prog Res X α → Prog Res X α → Prop where
  | exec {op : Op} {k : Res op → Prog Res X α} (r : Res op) : After (k r) (.exec op k)

theorem after_wf : WellFounded (fun q p : Prog Res X α => After q p) := by
  refine ⟨fun p => ?_⟩
  induction p with
  | done a | raise x =>
    refine ⟨_, ?_⟩
    rintro q ⟨⟩
  | exec op k ih =>
    refine ⟨_, ?_⟩
    rintro q ⟨r⟩
    exact ih r

end Prog

namespace Threads

variable {Op : Type} {Res : Op → Type} {X α σ ι : Type} [DecidableEq ι]
  {W : World Res σ} {P : Prog Res X α → Prop} {c c' : Threads Res X α σ ι} {s : σ} {i : ι}

/-- Thread `i` goes on with the call that it is in. -/
inductive Goes (W : World Res σ) (i : ι) (c : Threads Res X α σ ι) :
    Threads Res X α σ ι → Prop where
  | exec {issued : Trace Res} {op : Op} {k : Res op → Prog Res X α} {r : Res op} {s : σ}
      (hthread : c.thread i = some ⟨issued, .exec op k⟩) (hworld : W c.world ⟨op, r⟩ s) :
      Goes W i c (set { c with world := s } i (some ⟨issued ++ [⟨op, r⟩], k r⟩))
  | return {issued : Trace Res} {a : α} (hthread : c.thread i = some ⟨issued, .done a⟩) :
      Goes W i c (c.set i none)

theorem Goes.step (h : Goes W i c c') : Step W P c c' := by
  cases h with
  | exec hthread hworld => exact .exec hthread hworld
  | «return» hthread => exact .return hthread

/-- An exception has left the call of thread `i`. -/
def Raised (c : Threads Res X α σ ι) (i : ι) : Prop :=
  ∃ issued x, c.thread i = some ⟨issued, .raise x⟩

/-! ## Every schedule ends -/

/-- All threads outside of `S` are outside of any call. -/
def IdleOutside (S : Finset ι) (c : Threads Res X α σ ι) : Prop :=
  ∀ i, i ∉ S → c.thread i = none

theorem IdleOutside.set {S : Finset ι} (h : IdleOutside S c) (i : ι) (t : Option (Thread Res X α)) :
    IdleOutside (insert i S) (c.set i t) := by
  intro j hj
  obtain ⟨hne, hout⟩ := not_or.mp (Finset.mem_insert.not.mp hj)
  rw [set_ne c t hne]
  exact h j hout

/-- Whatever has happened, only finitely many threads are inside of calls. -/
theorem Reachable.idleOutside (h : Reachable W P s c) : ∃ S : Finset ι, IdleOutside S c := by
  induction h with
  | start => exact ⟨∅, fun i _ => rfl⟩
  | step _ hstep ih =>
    obtain ⟨S, hidle⟩ := ih
    cases hstep with
    | @call i p | @exec i p | @«return» i p => exact ⟨insert i S, IdleOutside.set (c := _) hidle i _⟩

/-- What thread `i` has to go. -/
def pendingOf (c : Threads Res X α σ ι) (i : ι) : Multiset (Prog Res X α) :=
  match c.thread i with
  | none => 0
  | some t => {t.rest}

/-- What the threads of `S` have to go. -/
def pending (S : Finset ι) (c : Threads Res X α σ ι) : Multiset (Prog Res X α) :=
  ∑ i ∈ S, c.pendingOf i

theorem Goes.mem {S : Finset ι} (h : Goes W i c c') (hidle : IdleOutside S c) : i ∈ S := by
  by_contra hout
  have hnone := hidle i hout
  cases h with
  | exec hthread | «return» hthread =>
    rw [hnone] at hthread
    cases hthread

theorem Goes.thread_ne (h : Goes W i c c') {j : ι} (hne : j ≠ i) : c'.thread j = c.thread j := by
  cases h with
  | exec => exact set_ne _ _ hne
  | «return» => exact set_ne _ _ hne

theorem Goes.idleOutside {S : Finset ι} (h : Goes W i c c') (hidle : IdleOutside S c) :
    IdleOutside S c' := by
  intro j hj
  have hne : j ≠ i := by
    rintro rfl
    exact hj (h.mem hidle)
  rw [h.thread_ne hne]
  exact hidle j hj

/-- A thread that goes on has less to go; the others have what they had. -/
theorem Goes.pending {S : Finset ι} (h : Goes W i c c') (hidle : IdleOutside S c) :
    Relation.CutExpand Prog.After (c'.pending S) (c.pending S) := by
  have hmem : i ∈ S := h.mem hidle
  have hothers : ∑ j ∈ S.erase i, c'.pendingOf j = ∑ j ∈ S.erase i, c.pendingOf j := by
    refine Finset.sum_congr rfl fun j hj => ?_
    simp only [pendingOf, h.thread_ne (Finset.ne_of_mem_erase hj)]
  unfold Threads.pending
  rw [← Finset.add_sum_erase S _ hmem, ← Finset.add_sum_erase S _ hmem, hothers]
  cases h with
  | @exec issued op k r s hthread hworld =>
    simp only [pendingOf, set_same, hthread]
    exact Relation.cutExpand_single_add (.exec r) _
  | «return» hthread =>
    simp only [pendingOf, set_same, hthread]
    exact (Relation.cutExpand_add_right _).mpr Relation.cutExpand_zero

/-- Calls that have begun do not go on for ever, in whatever order the threads take turns. -/
theorem IdleOutside.acc {S : Finset ι} (hidle : IdleOutside S c) :
    Acc (fun c₂ c₁ => ∃ i, Goes W i c₁ c₂) c := by
  have hacc := Prog.after_wf.cutExpand.apply (c.pending S)
  generalize hpending : c.pending S = m at hacc
  induction hacc generalizing c with
  | intro m _ ih =>
    subst hpending
    refine ⟨_, ?_⟩
    rintro c' ⟨i, hgoes⟩
    exact ih _ (hgoes.pending hidle) (hgoes.idleOutside hidle) rfl

end Threads
