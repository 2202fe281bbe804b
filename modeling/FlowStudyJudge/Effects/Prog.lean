-- SUMMARY: Programs over an interface of effects: trees that issue operations, raise exceptions and return results.
import Mathlib.Init

/-! # Effectful programs

A program is an interaction tree. A node issues one operation of the interface
and branches on the answer; a leaf returns a result or raises an exception. The
interface is a type `Op` of operations together with the type `Res op` of the
answers to each of them, so one tree can be run against any number of worlds. -/

inductive Prog {Op : Type} (Res : Op → Type) (X : Type) (α : Type) : Type where
  /-- The program has finished with a result. -/
  | done (a : α)
  /-- An exception leaves the program. -/
  | raise (x : X)
  /-- Issue `op` and continue with the answer. -/
  | exec (op : Op) (k : Res op → Prog Res X α)

namespace Prog

variable {Op : Type} {Res : Op → Type} {X α β γ : Type}

/-! ## Sequencing -/

/-- Run `p`, then `f` on its result. An exception of `p` skips `f`. -/
def bind : Prog Res X α → (α → Prog Res X β) → Prog Res X β
  | .done a, f => f a
  | .raise x, _ => .raise x
  | .exec op k, f => .exec op (fun r => (k r).bind f)

instance : Monad (Prog Res X) where
  pure := .done
  bind := bind

@[simp] theorem pure_eq (a : α) : (pure a : Prog Res X α) = .done a := rfl

@[simp] theorem done_bind (a : α) (f : α → Prog Res X β) : (.done a >>= f) = f a := rfl

@[simp] theorem raise_bind (x : X) (f : α → Prog Res X β) :
    ((.raise x : Prog Res X α) >>= f) = .raise x := rfl

@[simp] theorem exec_bind (op : Op) (k : Res op → Prog Res X α) (f : α → Prog Res X β) :
    (.exec op k >>= f) = .exec op (fun r => k r >>= f) := rfl

theorem bind_done (p : Prog Res X α) : (p >>= .done) = p := by
  induction p with
  | done a => rfl
  | raise x => rfl
  | exec op k ih =>
    simp only [exec_bind]
    congr 1
    funext r
    exact ih r

theorem bind_assoc (p : Prog Res X α) (f : α → Prog Res X β) (g : β → Prog Res X γ) :
    (p >>= f >>= g) = (p >>= fun a => f a >>= g) := by
  induction p with
  | done a => rfl
  | raise x => rfl
  | exec op k ih =>
    simp only [exec_bind]
    congr 1
    funext r
    exact ih r

instance : LawfulMonad (Prog Res X) :=
  LawfulMonad.mk' (Prog Res X) (fun p => bind_done p) (fun _ _ => rfl) bind_assoc

/-! ## Single operations -/

/-- Issue one operation and return its answer. -/
def perform (op : Op) : Prog Res X (Res op) :=
  .exec op .done

/-- A computation that issues no operation but may throw. -/
def ofExcept {E : Type} (thrown : E → X) : Except E α → Prog Res X α
  | .ok a => .done a
  | .error x => .raise (thrown x)

@[simp] theorem ofExcept_ok {E : Type} (thrown : E → X) (a : α) :
    (ofExcept thrown (.ok a) : Prog Res X α) = .done a := rfl

@[simp] theorem ofExcept_error {E : Type} (thrown : E → X) (x : E) :
    (ofExcept thrown (.error x) : Prog Res X α) = .raise (thrown x) := rfl

end Prog
