-- SUMMARY: Texts and their lines: a text as the lines it is read as, and lines written back as a text.
import FlowStudyJudge.Text.Bytes

/-! # Lines of a text -/

namespace Bytes

/-- The text in which every line ends with a newline. -/
def unlines (lines : List Bytes) : Bytes :=
  lines.flatMap (· ++ [newline])

@[simp] theorem unlines_nil : unlines [] = [] := rfl

@[simp] theorem unlines_cons (line : Bytes) (lines : List Bytes) :
    unlines (line :: lines) = line ++ newline :: unlines lines := by
  simp [unlines]

@[simp] theorem unlines_append (lines lines' : List Bytes) :
    unlines (lines ++ lines') = unlines lines ++ unlines lines' := by
  simp [unlines]

/-- Reading starts anew behind a newline. -/
theorem getlines_append_line (s t : Bytes) :
    getlines (s ++ newline :: t) = getlines (s ++ [newline]) ++ getlines t := by
  induction s with
  | nil => rfl
  | cons b s ih =>
    simp only [List.cons_append, getlines, ih]
    split
    · rfl
    · have hne : getlines (s ++ [newline]) ≠ [] := by
        cases s with
        | nil => simp [getlines]
        | cons b' s =>
          simp only [List.cons_append, getlines]
          split
          · simp
          · split <;> simp
      cases hlines : getlines (s ++ [newline]) with
      | nil => exact absurd hlines hne
      | cons line rest => rfl

/-- A newline at the end closes the last line or is an empty line of its own. -/
theorem getlines_append_newline_end (s : Bytes) :
    getlines (s ++ [newline]) = getlines s ∨ getlines (s ++ [newline]) = getlines s ++ [[]] := by
  induction s with
  | nil => exact .inr rfl
  | cons b s ih =>
    simp only [List.cons_append, getlines]
    split
    · rcases ih with ih | ih
      · exact .inl (by rw [ih])
      · exact .inr (by rw [ih]; rfl)
    · rcases ih with ih | ih
      · exact .inl (by rw [ih])
      · rw [ih]
        cases getlines s with
        | nil => exact .inl rfl
        | cons line rest => exact .inr rfl

/-- A line without newline in front of a newline is the first line. -/
theorem getlines_line {line : Bytes} (h : newline ∉ line) (rest : Bytes) :
    getlines (line ++ newline :: rest) = line :: getlines rest := by
  induction line with
  | nil => simp [getlines]
  | cons b line ih =>
    simp only [List.mem_cons, not_or] at h
    have hb : b ≠ newline := fun hb => h.1 hb.symm
    simp [getlines, hb, ih h.2]

/-- Lines that are written back are read again. -/
theorem getlines_unlines {lines : List Bytes} (h : ∀ line ∈ lines, newline ∉ line) :
    getlines (unlines lines) = lines := by
  induction lines with
  | nil => rfl
  | cons line lines ih =>
    obtain ⟨hline, hlines⟩ := List.forall_mem_cons.mp h
    rw [unlines_cons, getlines_line hline, ih hlines]

theorem newline_not_mem_getlines (s : Bytes) : ∀ line ∈ getlines s, newline ∉ line := by
  induction s with
  | nil => simp
  | cons b s ih =>
    unfold getlines
    split
    · exact List.forall_mem_cons.mpr ⟨List.not_mem_nil, ih⟩
    · rename_i hb
      have hfirst : newline ∉ [b] := by simpa using Ne.symm hb
      split
      · exact List.forall_mem_singleton.mpr hfirst
      · rename_i line rest hlines
        rw [hlines] at ih
        obtain ⟨hline, hrest⟩ := List.forall_mem_cons.mp ih
        refine List.forall_mem_cons.mpr ⟨?_, hrest⟩
        rw [List.mem_cons, not_or]
        exact ⟨Ne.symm hb, hline⟩

/-- The lines of a text make up the text, with or without a newline at its end. -/
theorem unlines_getlines (s : Bytes) :
    unlines (getlines s) = s ∨ unlines (getlines s) = s ++ [newline] := by
  induction s with
  | nil => exact .inl rfl
  | cons b s ih =>
    simp only [getlines]
    split
    · rename_i hb
      subst hb
      rcases ih with ih | ih
      · exact .inl (by simp [ih])
      · exact .inr (by simp [ih])
    · cases hlines : getlines s with
      | nil =>
        rw [hlines] at ih
        have hs : s = [] := by
          rcases ih with ih | ih
          · exact ih.symm
          · simp at ih
        subst hs
        exact .inr rfl
      | cons line rest =>
        rw [hlines] at ih
        rcases ih with ih | ih
        · exact .inl (congrArg (b :: ·) ih)
        · exact .inr (congrArg (b :: ·) ih)

/-- A field without the separator is split off whole. -/
theorem splitAtFirst_append {c : UInt8} {first : Bytes} (h : c ∉ first) (rest : Bytes) :
    splitAtFirst c (first ++ c :: rest) = some (first, rest) := by
  induction first with
  | nil => exact if_pos rfl
  | cons b first ih =>
    rw [List.mem_cons, not_or] at h
    simp only [List.cons_append, splitAtFirst, if_neg (Ne.symm h.1), ih h.2, Option.map_some]

end Bytes
