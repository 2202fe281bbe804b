-- SUMMARY: `compare_output` decides an equivalence: equality up to blanks in front of a newline and at the end of the text.
import FlowStudyJudge.Judge.Compare
import FlowStudyJudge.Text.Lines
import Mathlib.Logic.Relation

/-! # What a comparison ignores

`compare_output` walks over lines. What it decides can be said without lines: it is
the least equivalence of texts under which one blank in front of a newline, and one
blank or newline at the end, do not count. -/

/-- A function that the relation keeps, and that has in every class a text it is
    computed from, decides the equivalence that the relation generates. -/
theorem Relation.eqvGen_iff_of_canonical {α β : Type} {r : α → α → Prop} (f : α → β) (g : β → α)
    (hkeeps : ∀ a b, r a b → f a = f b) (hreaches : ∀ a, EqvGen r a (g (f a))) {a b : α} :
    EqvGen r a b ↔ f a = f b := by
  constructor
  · intro h
    induction h with
    | rel a b h => exact hkeeps a b h
    | refl a => rfl
    | symm a b _ ih => exact ih.symm
    | trans a b c _ _ ih₁ ih₂ => exact ih₁.trans ih₂
  · intro h
    have ha : EqvGen r a (g (f b)) := h ▸ hreaches a
    exact ha.trans _ _ _ ((hreaches b).symm _ _)

namespace JudgeEngine

open Bytes Relation

/-- The two texts differ in one byte that does not count. -/
inductive Ignored : Bytes → Bytes → Prop where
  | beforeNewline (x y : Bytes) {w : UInt8}
      (hw : w ∈ [' '.toUInt8, '\t'.toUInt8, '\r'.toUInt8]) :
      Ignored (x ++ [w] ++ [newline] ++ y) (x ++ [newline] ++ y)
  | atEnd (x : Bytes) {c : UInt8}
      (hc : c ∈ [' '.toUInt8, '\t'.toUInt8, '\r'.toUInt8, '\n'.toUInt8]) :
      Ignored (x ++ [c]) x

theorem isTrailingBlank_iff {c : UInt8} :
    isTrailingBlank c = true ↔ c ∈ [' '.toUInt8, '\t'.toUInt8, '\r'.toUInt8] := by
  simp [isTrailingBlank, or_assoc]

theorem ne_newline_of_isTrailingBlank {c : UInt8} (hc : isTrailingBlank c = true) :
    c ≠ newline := by
  rintro rfl
  revert hc
  decide

/-! ## Lines up to trailing blanks -/

@[simp] theorem normalizeLine_nil : normalizeLine [] = [] := rfl

/-- Trimming goes from the end, so a byte is put in front of the trimmed line. -/
theorem normalizeLine_cons (b : UInt8) (line : Bytes) :
    normalizeLine (b :: line) = normalizeLine (b :: normalizeLine line) := by
  unfold normalizeLine
  induction line using List.reverseRecOn with
  | nil => rfl
  | append_singleton line c ih =>
    cases hc : isTrailingBlank c with
    | true =>
      rw [← List.cons_append, List.rdropWhile_concat_pos _ _ _ hc, ih,
        List.rdropWhile_concat_pos _ _ _ hc]
    | false => rw [List.rdropWhile_concat_neg _ line c (by simp [hc])]

/-- The lines of a text as they are compared, the empty ones at the end included. -/
def trimmedLines (s : Bytes) : List Bytes :=
  (getlines s).map normalizeLine

theorem splitLines_eq (s : Bytes) : splitLines s = (trimmedLines s).rdropWhile List.isEmpty :=
  rfl

/-- The trimmed lines of a text depend on the trimmed lines behind its first byte. -/
theorem trimmedLines_cons (b : UInt8) (s : Bytes) :
    trimmedLines (b :: s) =
      if b = newline then [] :: trimmedLines s
      else
        match trimmedLines s with
        | [] => [normalizeLine [b]]
        | line :: rest => normalizeLine (b :: line) :: rest := by
  unfold trimmedLines
  simp only [getlines]
  split
  · rfl
  · cases getlines s with
    | nil => rfl
    | cons line rest =>
      simp only [List.map_cons]
      rw [normalizeLine_cons]

theorem trimmedLines_append_line (s t : Bytes) :
    trimmedLines (s ++ newline :: t) = trimmedLines (s ++ [newline]) ++ trimmedLines t := by
  unfold trimmedLines
  rw [getlines_append_line, List.map_append]

/-- A blank in front of a newline is trimmed. -/
theorem trimmedLines_blank (x : Bytes) {w : UInt8} (hw : isTrailingBlank w = true) :
    trimmedLines (x ++ [w, newline]) = trimmedLines (x ++ [newline]) := by
  induction x with
  | nil =>
    have hne : w ≠ newline := ne_newline_of_isTrailingBlank hw
    have hline : normalizeLine [w] = [] := List.rdropWhile_concat_pos isTrailingBlank [] w hw
    have hlines : trimmedLines [w, newline] = [normalizeLine [w]] := by
      rw [trimmedLines_cons, if_neg hne]
      exact congrArg (· :: []) (normalizeLine_cons w []).symm
    rw [List.nil_append, hlines, hline]
    rfl
  | cons b x ih =>
    simp only [List.cons_append, trimmedLines_cons b, ih]

/-! ## Lines up to empty ones at the end -/

theorem splitLines_append_line (s t : Bytes) :
    splitLines (s ++ newline :: t) =
      (trimmedLines (s ++ [newline]) ++ trimmedLines t).rdropWhile List.isEmpty := by
  rw [splitLines_eq, trimmedLines_append_line]

theorem splitLines_newline_end (s : Bytes) : splitLines (s ++ [newline]) = splitLines s := by
  unfold splitLines
  rcases getlines_append_newline_end s with h | h
  · rw [h]
  · rw [h, List.map_append]
    exact List.rdropWhile_concat_pos _ _ _ rfl

theorem splitLines_blank (x y : Bytes) {w : UInt8} (hw : isTrailingBlank w = true) :
    splitLines (x ++ w :: newline :: y) = splitLines (x ++ newline :: y) := by
  have hassoc : x ++ w :: newline :: y = (x ++ [w]) ++ newline :: y := by simp
  have htrim := trimmedLines_blank x hw
  rw [hassoc, splitLines_append_line, splitLines_append_line, List.append_assoc]
  exact congrArg (fun lines => (lines ++ trimmedLines y).rdropWhile List.isEmpty) htrim

theorem splitLines_blank_end (x : Bytes) {w : UInt8} (hw : isTrailingBlank w = true) :
    splitLines (x ++ [w]) = splitLines x :=
  calc splitLines (x ++ [w])
      = splitLines ((x ++ [w]) ++ [newline]) := (splitLines_newline_end _).symm
    _ = splitLines (x ++ w :: newline :: []) := by simp
    _ = splitLines (x ++ [newline]) := splitLines_blank x [] hw
    _ = splitLines x := splitLines_newline_end x

/-- What does not count does not change the compared lines. -/
theorem Ignored.splitLines_eq {s t : Bytes} (h : Ignored s t) : splitLines s = splitLines t := by
  cases h with
  | beforeNewline x y hw =>
    have hblank := splitLines_blank x y (isTrailingBlank_iff.mpr hw)
    simpa using hblank
  | @atEnd _ c hc =>
    rcases List.mem_append.mp (show c ∈ [' '.toUInt8, '\t'.toUInt8, '\r'.toUInt8] ++ ['\n'.toUInt8]
      from hc) with hc | hc
    · exact splitLines_blank_end t (isTrailingBlank_iff.mpr hc)
    · rw [List.mem_singleton.mp hc]
      exact splitLines_newline_end t

/-! ## The canonical text -/

/-- Blanks in front of a newline, all at once. -/
theorem eqvGen_blanks (x y : Bytes) {blanks : Bytes} (h : ∀ w ∈ blanks, isTrailingBlank w = true) :
    EqvGen Ignored (x ++ blanks ++ newline :: y) (x ++ newline :: y) := by
  induction blanks using List.reverseRecOn with
  | nil =>
    rw [List.append_nil]
    exact .refl _
  | append_singleton blanks w ih =>
    have hw : isTrailingBlank w = true := h w (by simp)
    have hrest := ih fun w' hw' => h w' (by simp [hw'])
    have hstep : Ignored (x ++ blanks ++ [w] ++ [newline] ++ y) (x ++ blanks ++ [newline] ++ y) :=
      .beforeNewline (x ++ blanks) y (isTrailingBlank_iff.mp hw)
    have hstep' := EqvGen.rel _ _ hstep
    simp only [List.append_assoc, List.cons_append, List.nil_append] at hstep' hrest ⊢
    exact hstep'.trans _ _ _ hrest

theorem normalizeLine_append (line : Bytes) :
    ∃ blanks, line = normalizeLine line ++ blanks ∧ ∀ w ∈ blanks, isTrailingBlank w = true := by
  refine ⟨line.rtakeWhile isTrailingBlank, ?_, fun w hw => List.mem_rtakeWhile_imp hw⟩
  exact List.rdropWhile_append_rtakeWhile.symm

/-- Trimming the lines behind a text `x`. -/
theorem eqvGen_trim (x : Bytes) (lines : List Bytes) :
    EqvGen Ignored (x ++ unlines lines) (x ++ unlines (lines.map normalizeLine)) := by
  induction lines generalizing x with
  | nil => exact .refl _
  | cons line lines ih =>
    obtain ⟨blanks, hline, hblanks⟩ := normalizeLine_append line
    have hfirst := eqvGen_blanks (x ++ normalizeLine line) (unlines lines) hblanks
    have hrest := ih (x ++ normalizeLine line ++ [newline])
    simp only [List.append_assoc, ← hline, List.cons_append, List.nil_append] at hfirst hrest
    rw [unlines_cons, List.map_cons, unlines_cons]
    exact hfirst.trans _ _ _ hrest

/-- Dropping the empty lines at the end. -/
theorem eqvGen_dropEmpty (lines : List Bytes) :
    EqvGen Ignored (unlines lines) (unlines (lines.rdropWhile List.isEmpty)) := by
  induction lines using List.reverseRecOn with
  | nil => exact .refl _
  | append_singleton lines line ih =>
    cases line with
    | nil =>
      rw [List.rdropWhile_concat_pos _ _ _ rfl]
      have hend : Ignored (unlines lines ++ [newline]) (unlines lines) :=
        .atEnd _ (by decide)
      rw [unlines_append, unlines_cons]
      exact (EqvGen.rel _ _ hend).trans _ _ _ ih
    | cons b line =>
      rw [List.rdropWhile_concat_neg _ lines _ (by simp)]
      exact .refl _

/-- Every text is equivalent to the text of its compared lines. -/
theorem eqvGen_canonical (s : Bytes) : EqvGen Ignored s (unlines (splitLines s)) := by
  have hlines : EqvGen Ignored s (unlines (getlines s)) := by
    rcases unlines_getlines s with h | h
    · rw [h]
      exact .refl _
    · rw [h]
      exact .symm _ _ (.rel _ _ (.atEnd s (by decide)))
  have htrim := eqvGen_trim [] (getlines s)
  have hdrop := eqvGen_dropEmpty ((getlines s).map normalizeLine)
  exact (hlines.trans _ _ _ htrim).trans _ _ _ hdrop

/-! ## The comparison -/

/-- `compare_output` decides the least equivalence under which blanks in front of a
    newline, and blanks and newlines at the end, do not count. -/
theorem compareOutput_iff (expected actual : Bytes) :
    compareOutput expected actual = true ↔ EqvGen Ignored expected actual := by
  have hdecides : EqvGen Ignored expected actual ↔ splitLines expected = splitLines actual :=
    eqvGen_iff_of_canonical splitLines unlines (fun _ _ h => h.splitLines_eq) eqvGen_canonical
  rw [hdecides]
  exact beq_iff_eq

end JudgeEngine
