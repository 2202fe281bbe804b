-- SUMMARY: Programs over an interface as programs over a larger one, and how their runs correspond.
import FlowStudyJudge.Effects.Loop
import Mathlib.Logic.Equiv.Defs

/-! # Embeddings

An embedding names each operation of one interface by an operation of another that has the
same answers. -/

/-- The interface `Res` inside of the interface `Res'`. -/
structure Embedding {Op Op' : Type} (Res : Op → Type) (Res' : Op' → Type) where
  op : Op → Op'
  answer : (op₀ : Op) → Res op₀ ≃ Res' (op op₀)

/-- An event of the inner interface as the surroundings see it. -/
def Embedding.event {Op Op' : Type} {Res : Op → Type} {Res' : Op' → Type}
    (ι : Embedding Res Res') (e : Event Res) : Event Res' :=
  ⟨ι.op e.op, ι.answer e.op e.res⟩

namespace Prog

variable {Op Op' : Type} {Res : Op → Type} {Res' : Op' → Type} {X α : Type}

def embed (ι : Embedding Res Res') : Prog Res X α → Prog Res' X α
  | .done a => .done a
  | .raise x => .raise x
  | .exec op k => .exec (ι.op op) fun r => (k ((ι.answer op).symm r)).embed ι

variable {ι : Embedding Res Res'} {p : Prog Res X α} {tr : Trace Res'}

/-- The runs of an embedded program are those of the program, seen from outside. -/
theorem runs_embed {out : Except X α} :
    (p.embed ι).Runs tr out ↔ ∃ inner, tr = inner.map ι.event ∧ p.Runs inner out := by
  induction p generalizing tr with
  | done a =>
    simp only [embed, runs_done]
    constructor
    · rintro ⟨rfl, rfl⟩
      exact ⟨[], rfl, rfl, rfl⟩
    · rintro ⟨inner, rfl, rfl, rfl⟩
      exact ⟨rfl, rfl⟩
  | raise x =>
    simp only [embed, runs_raise]
    constructor
    · rintro ⟨rfl, rfl⟩
      exact ⟨[], rfl, rfl, rfl⟩
    · rintro ⟨inner, rfl, rfl, rfl⟩
      exact ⟨rfl, rfl⟩
  | exec op k ih =>
    simp only [embed, runs_exec]
    constructor
    · rintro ⟨r, tr', rfl, h⟩
      obtain ⟨inner, rfl, hruns⟩ := (ih _).mp h
      refine ⟨⟨op, (ι.answer op).symm r⟩ :: inner, ?_, _, _, rfl, hruns⟩
      simp [Embedding.event]
    · rintro ⟨inner, rfl, r, rest, rfl, hruns⟩
      refine ⟨ι.answer op r, rest.map ι.event, rfl, (ih _).mpr ⟨rest, rfl, ?_⟩⟩
      rw [Equiv.symm_apply_apply]
      exact hruns

end Prog
