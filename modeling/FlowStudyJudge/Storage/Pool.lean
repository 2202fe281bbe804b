-- SUMMARY: A pool of resources that users take and give back: exclusive, and none lost.
import Mathlib.Data.List.Nodup
import Mathlib.Data.List.Perm.Basic
import Mathlib.Logic.Function.Basic

/-! # Pools

`available` are the resources that lie in the pool, `held i` those that user `i` has
taken out of it. -/

namespace Pool

variable {R ι : Type}

/-- The resources of the pool are `all`: each lies in the pool once, or is held by one
    user, once. -/
structure Conserved (all available : List R) (held : ι → List R) : Prop where
  nodup : available.Nodup
  held_nodup : ∀ i, (held i).Nodup
  exclusive : ∀ i j r, r ∈ held i → r ∈ held j → i = j
  apart : ∀ i r, r ∈ held i → r ∉ available
  complete : ∀ r, r ∈ all ↔ r ∈ available ∨ ∃ i, r ∈ held i

variable {all available : List R} {held : ι → List R} {r : R} {i : ι}

theorem Conserved.start (h : all.Nodup) : Conserved all all (fun _ : ι => []) where
  nodup := h
  held_nodup _ := List.nodup_nil
  exclusive i j r hi := by cases hi
  apart i r hi := by cases hi
  complete r := by simp

/-- When nobody holds anything, the whole pool is available. -/
theorem Conserved.all_available (h : Conserved all available held) (hall : all.Nodup)
    (hnone : ∀ i, held i = []) : available.Perm all := by
  refine (List.perm_ext_iff_of_nodup h.nodup hall).mpr ?_
  intro r
  simp [h.complete r, hnone]

variable [DecidableEq ι]

/-- An idle user takes the first resource. -/
theorem Conserved.take (h : Conserved all (r :: available) held) (hidle : held i = []) :
    Conserved all available (Function.update held i [r]) := by
  have hr : r ∉ available := (List.nodup_cons.mp h.nodup).1
  have hfree : ∀ j, r ∉ held j := fun j hj => h.apart j r hj (List.mem_cons_self ..)
  have hmem : ∀ j r', r' ∈ Function.update held i [r] j ↔ (j = i ∧ r' = r) ∨ r' ∈ held j := by
    intro j r'
    rcases eq_or_ne j i with rfl | hne
    · simp [hidle]
    · simp [hne]
  exact {
    nodup := (List.nodup_cons.mp h.nodup).2
    held_nodup := by
      intro j
      rcases eq_or_ne j i with rfl | hne
      · simp
      · simp [hne, h.held_nodup j]
    exclusive := by
      intro j j' r' hj hj'
      rcases (hmem j r').mp hj with ⟨rfl, rfl⟩ | hold
      · rcases (hmem j' r').mp hj' with ⟨rfl, -⟩ | hold'
        · rfl
        · exact absurd hold' (hfree j')
      · rcases (hmem j' r').mp hj' with ⟨rfl, rfl⟩ | hold'
        · exact absurd hold (hfree j)
        · exact h.exclusive j j' r' hold hold'
    apart := by
      intro j r' hj
      rcases (hmem j r').mp hj with ⟨rfl, rfl⟩ | hj
      · exact hr
      · exact fun hin => h.apart j r' hj (List.mem_cons_of_mem _ hin)
    complete := by
      intro r'
      simp only [h.complete r', hmem, List.mem_cons]
      constructor
      · rintro ((rfl | hin) | ⟨j, hj⟩)
        · exact .inr ⟨i, .inl ⟨rfl, rfl⟩⟩
        · exact .inl hin
        · exact .inr ⟨j, .inr hj⟩
      · rintro (hin | ⟨j, ⟨rfl, rfl⟩ | hj⟩)
        · exact .inl (.inr hin)
        · exact .inl (.inl rfl)
        · exact .inr ⟨j, hj⟩ }

/-- A user gives back the one resource it holds. -/
theorem Conserved.give (h : Conserved all available held) (hheld : held i = [r]) :
    Conserved all (available ++ [r]) (Function.update held i []) := by
  have hi : r ∈ held i := by simp [hheld]
  have hmem : ∀ j r', r' ∈ Function.update held i [] j ↔ j ≠ i ∧ r' ∈ held j := by
    intro j r'
    rcases eq_or_ne j i with rfl | hne
    · simp
    · simp [hne]
  exact {
    nodup := by
      rw [List.nodup_append]
      refine ⟨h.nodup, by simp, ?_⟩
      intro r' hr' s hs heq
      rw [List.mem_singleton.mp hs] at heq
      exact h.apart i r hi (heq ▸ hr')
    held_nodup := by
      intro j
      rcases eq_or_ne j i with rfl | hne
      · simp
      · simp [hne, h.held_nodup j]
    exclusive := by
      intro j j' r' hj hj'
      exact h.exclusive j j' r' ((hmem j r').mp hj).2 ((hmem j' r').mp hj').2
    apart := by
      intro j r' hj hin
      obtain ⟨hne, hj⟩ := (hmem j r').mp hj
      rcases List.mem_append.mp hin with hin | hin
      · exact h.apart j r' hj hin
      · rw [List.mem_singleton.mp hin] at hj
        exact hne (h.exclusive j i r hj hi)
    complete := by
      intro r'
      simp only [h.complete r', hmem, List.mem_append, List.mem_singleton]
      constructor
      · rintro (hin | ⟨j, hj⟩)
        · exact .inl (.inl hin)
        · rcases eq_or_ne j i with rfl | hne
          · rw [hheld] at hj
            exact .inl (.inr (List.mem_singleton.mp hj))
          · exact .inr ⟨j, hne, hj⟩
      · rintro ((hin | rfl) | ⟨j, -, hj⟩)
        · exact .inl hin
        · exact .inr ⟨i, hi⟩
        · exact .inr ⟨j, hj⟩ }

end Pool
