-- SUMMARY: A pool that hands out its resources in the order in which they came back, to a user that holds one at a time.
import Mathlib.Data.List.Rotate

/-! # Taking turns

A user that gives back what it has taken before it takes again goes round the pool. -/

namespace Pool

variable {R : Type}

/-- What a user does with a pool. -/
inductive Use (R : Type) where
  | take (r : R)
  | give (r : R)
  deriving DecidableEq, Repr

/-- The resources that have been taken, in this order. -/
def taken (us : List (Use R)) : List R :=
  us.filterMap fun u =>
    match u with
    | .take r => some r
    | .give _ => none

def given (us : List (Use R)) : List R :=
  us.filterMap fun u =>
    match u with
    | .take _ => none
    | .give r => some r

/-- The pool serves from its front and is given back to at its end. -/
inductive Serves : List R → List (Use R) → List R → Prop where
  | nil {available : List R} : Serves available [] available
  | take {r : R} {available available' : List R} {us : List (Use R)}
      (h : Serves available us available') : Serves (r :: available) (.take r :: us) available'
  | give {r : R} {available available' : List R} {us : List (Use R)}
      (h : Serves (available ++ [r]) us available') : Serves available (.give r :: us) available'

/-- The user holds at most one resource: it begins with one of them, and ends with another. -/
inductive OneByOne : Option R → List (Use R) → Option R → Prop where
  | nil {o : Option R} : OneByOne o [] o
  | take {r : R} {us : List (Use R)} {o : Option R} (h : OneByOne (some r) us o) :
      OneByOne none (.take r :: us) o
  | give {r : R} {us : List (Use R)} {o : Option R} (h : OneByOne none us o) :
      OneByOne (some r) (.give r :: us) o

variable {all available available' : List R} {us us₁ us₂ : List (Use R)} {o o' : Option R}

theorem OneByOne.append (h₁ : OneByOne o us₁ o') {o'' : Option R} (h₂ : OneByOne o' us₂ o'') :
    OneByOne o (us₁ ++ us₂) o'' := by
  induction h₁ with
  | nil => exact h₂
  | take _ ih => exact .take (ih h₂)
  | give _ ih => exact .give (ih h₂)

theorem OneByOne.split (h : OneByOne o (us₁ ++ us₂) o') :
    ∃ o₁, OneByOne o us₁ o₁ ∧ OneByOne o₁ us₂ o' := by
  induction us₁ generalizing o with
  | nil => exact ⟨o, .nil, h⟩
  | cons u us₁ ih =>
    cases h with
    | take h =>
      obtain ⟨o₁, h₁, h₂⟩ := ih h
      exact ⟨o₁, .take h₁, h₂⟩
    | give h =>
      obtain ⟨o₁, h₁, h₂⟩ := ih h
      exact ⟨o₁, .give h₁, h₂⟩

/-- The resources have gone round: the `i`-th that was taken is the one at `i`, modulo their
    number, and what is held now stands in front of those that lie in the pool. -/
structure Turns (all : List R) (us : List (Use R)) (held : Option R) (available : List R) :
    Prop where
  taken : ∀ i r, (taken us)[i]? = some r → all[i % all.length]? = some r
  available : held.toList ++ available = all.rotate (given us).length

/-- What the user holds at the beginning counts as taken before everything else. -/
theorem OneByOne.around (h : OneByOne o us o') (hserves : Serves available us available') :
    (∀ i r, (o.toList ++ taken us)[i]? = some r →
      (o.toList ++ available)[i % (o.toList ++ available).length]? = some r) ∧
    o'.toList ++ available' = (o.toList ++ available).rotate (given us).length := by
  induction h generalizing available with
  | @nil o =>
    cases hserves
    refine ⟨fun i r hi => ?_, (List.rotate_zero _).symm⟩
    cases o with
    | none => cases hi
    | some r' =>
      rw [Option.toList_some, List.singleton_append] at hi ⊢
      cases i with
      | zero => exact hi
      | succ i => cases hi
  | take _ ih =>
    cases hserves with
    | take hserves => exact ih hserves
  | @give r us o' _ ih =>
    cases hserves with
    | give hserves =>
      obtain ⟨htaken, hrest⟩ := ih hserves
      have hround : available ++ [r] = (r :: available).rotate 1 := by simp
      refine ⟨fun i r' hi => ?_, ?_⟩
      · cases i with
        | zero => exact hi
        | succ i =>
          have hnext := htaken i r' hi
          have hlt : i % (r :: available).length < (r :: available).length :=
            Nat.mod_lt _ (Nat.succ_pos _)
          rw [Option.toList_none, List.nil_append, hround, List.length_rotate,
            List.getElem?_rotate hlt, Nat.mod_add_mod] at hnext
          exact hnext
      · rw [hrest, Option.toList_none, List.nil_append, hround, List.rotate_rotate,
          Nat.add_comm]
        rfl

theorem OneByOne.turns (h : OneByOne none us o) (hserves : Serves all us available) :
    Turns all us o available :=
  ⟨(h.around hserves).1, (h.around hserves).2⟩

/-- A user with empty hands finds the pool empty only if there has never been anything in it. -/
theorem Turns.eq_nil (h : Turns all us none []) : all = [] :=
  List.rotate_eq_nil_iff.mp h.available.symm

end Pool
