-- SUMMARY: `java_class_name` beside a tokenizer: for which sources the search for a text finds the public class.
import FlowStudyJudge.Judge.Sandbox
import FlowStudyJudge.Text.Java

/-! # The name of the public class

`java_class_name` searches the source for one text, in comments and literals as well as in
the code. The file is named after what it finds, and javac wants it to be named after the
public class. -/

namespace Sandbox

open Java

/-! ## What is asked of a name -/

/-- `d` is the one public class of the source, and `name` its name. -/
structure Declared (src : Bytes) (d : PublicClass) (name : Bytes) : Prop where
  only : declarations src = some [d]
  modifiers : ∀ t ∈ d.modifiers,
    t = .word "final" ∨ t = .word "abstract" ∨ t = .word "strictfp"
  name_eq : d.name = some (.word name)
  letters : ∀ c ∈ name, isClassNameChar c = true
  /-- An identifier is not empty and does not start with a digit. -/
  start : ∃ c, name.head? = some c ∧ Bytes.isDigit c = false

/-- The public class is found, and `Main` is the answer where there is none. -/
structure FindsClass (src : Bytes) : Prop where
  declared : ∀ d name, Declared src d name → javaClassName src = name
  main : declarations src = some [] → javaClassName src = "Main"

/-! ## Mentions -/

def classMarker : Bytes := "public class "

/-- `rest` stands behind a mention of the marker. -/
def Mentions (src rest : Bytes) : Prop :=
  classMarker ++ rest <:+ src

structure FirstMention (src rest : Bytes) : Prop where
  mentions : Mentions src rest
  first : ∀ rest', Mentions src rest' → rest'.length ≤ rest.length

/-- Behind white space, `rest` goes on with the whole word `name`. -/
structure Names (rest name : Bytes) : Prop where
  behind : ∃ more, rest.dropWhile Bytes.isSpace = name ++ more ∧
    ∀ c, more.head? = some c → isClassNameChar c = false
  letters : ∀ c ∈ name, isClassNameChar c = true
  nonempty : name ≠ []

/-- Behind white space, `rest` does not go on with a word. -/
def Nameless (rest : Bytes) : Prop :=
  ∀ c, (rest.dropWhile Bytes.isSpace).head? = some c → isClassNameChar c = false

/-- No mention, or none that names something. -/
def Unnamed (src : Bytes) : Prop :=
  ∀ rest, FirstMention src rest → Nameless rest

theorem findAfter_some {marker src rest : Bytes} (h : findAfter marker src = some rest) :
    marker ++ rest <:+ src ∧ ∀ rest', marker ++ rest' <:+ src → rest'.length ≤ rest.length := by
  induction src with
  | nil =>
    unfold findAfter at h
    split at h
    · rename_i hmarker
      cases h
      subst hmarker
      refine ⟨List.suffix_rfl, ?_⟩
      intro rest' hrest
      have hnil : rest' = [] := List.suffix_nil.mp hrest
      rw [hnil]
    · cases h
  | cons b bs ih =>
    unfold findAfter at h
    split at h
    · rename_i hmarker
      cases h
      have hwhole : marker ++ (b :: bs).drop marker.length = b :: bs :=
        (List.prefix_iff_eq_append.mp (List.isPrefixOf_iff_prefix.mp hmarker))
      refine ⟨?_, ?_⟩
      · exact ⟨[], hwhole⟩
      · intro rest' hrest
        have hlength := hrest.length_le
        rw [← hwhole, List.length_append, List.length_append] at hlength
        exact Nat.le_of_add_le_add_left hlength
    · rename_i hmarker
      obtain ⟨hsuffix, hfirst⟩ := ih h
      refine ⟨hsuffix.trans (List.suffix_cons ..), ?_⟩
      intro rest' hrest
      rcases List.suffix_cons_iff.mp hrest with hhere | hlater
      · have hprefixed : marker.isPrefixOf (b :: bs) = true :=
          List.isPrefixOf_iff_prefix.mpr ⟨rest', hhere⟩
        exact absurd hprefixed hmarker
      · exact hfirst rest' hlater

theorem findAfter_none {marker src : Bytes} (h : findAfter marker src = none) (rest : Bytes) :
    ¬ marker ++ rest <:+ src := by
  induction src with
  | nil =>
    unfold findAfter at h
    split at h
    · cases h
    · rename_i hmarker
      intro hrest
      exact hmarker (List.append_eq_nil_iff.mp (List.suffix_nil.mp hrest)).1
  | cons b bs ih =>
    unfold findAfter at h
    split at h
    · cases h
    · rename_i hmarker
      intro hrest
      rcases List.suffix_cons_iff.mp hrest with hhere | hlater
      · exact hmarker (List.isPrefixOf_iff_prefix.mpr ⟨rest, hhere⟩)
      · exact ih h hlater

theorem FirstMention.findAfter_eq {src rest : Bytes} (h : FirstMention src rest) :
    findAfter classMarker src = some rest := by
  cases hfind : findAfter classMarker src with
  | none => exact absurd h.mentions (findAfter_none hfind rest)
  | some rest' =>
    obtain ⟨hmentions, hfirst⟩ := findAfter_some hfind
    have hlength : rest'.length = rest.length :=
      Nat.le_antisymm (h.first rest' hmentions) (hfirst rest h.mentions)
    have hsuffix : classMarker ++ rest' <:+ classMarker ++ rest :=
      List.suffix_of_suffix_length_le hmentions h.mentions (by simp [hlength])
    have hsame := hsuffix.eq_of_length (by simp [hlength])
    rw [List.append_cancel_left hsame]

theorem isWordChar_of_isClassNameChar {c : UInt8} (h : isClassNameChar c = true) :
    isWordChar c = true := by
  have hall : ∀ c : UInt8, isClassNameChar c = true → isWordChar c = true :=
    Bytes.forall_byte (by decide +kernel)
  exact hall c h

/-! ## The answer -/

theorem takeWhile_eq_nil {p : UInt8 → Bool} {s : Bytes}
    (h : ∀ c, s.head? = some c → p c = false) : s.takeWhile p = [] := by
  cases s with
  | nil => rfl
  | cons c s =>
    have hc : ¬ p c = true := Bool.eq_false_iff.mp (h c rfl)
    rw [List.takeWhile_cons_of_neg hc]

theorem javaClassName_names {src rest name : Bytes} (hrest : FirstMention src rest)
    (hname : Names rest name) : javaClassName src = name := by
  obtain ⟨more, hbehind, hmore⟩ := hname.behind
  have hfind : findAfter "public class " src = some rest := hrest.findAfter_eq
  have hword : (rest.dropWhile Bytes.isSpace).takeWhile isClassNameChar = name := by
    rw [hbehind, List.takeWhile_append_of_pos hname.letters, takeWhile_eq_nil hmore,
      List.append_nil]
  simp only [javaClassName, hfind, hword, if_neg hname.nonempty]

theorem javaClassName_unnamed {src : Bytes} (h : Unnamed src) : javaClassName src = "Main" := by
  unfold javaClassName
  cases hfind : findAfter "public class " src with
  | none => rfl
  | some rest =>
    have hrest : FirstMention src rest := ⟨(findAfter_some hfind).1, (findAfter_some hfind).2⟩
    have hword := takeWhile_eq_nil (h rest hrest)
    simp only [hword, if_true]

/-- One of the two is always the case. -/
theorem unnamed_or_names (src : Bytes) :
    Unnamed src ∨ ∃ rest name, FirstMention src rest ∧ Names rest name := by
  cases hfind : findAfter classMarker src with
  | none =>
    refine .inl ?_
    intro rest hrest
    cases hfind.symm.trans hrest.findAfter_eq
  | some rest =>
    by_cases hnil : (rest.dropWhile Bytes.isSpace).takeWhile isClassNameChar = []
    · refine .inl ?_
      intro rest' hrest c hc
      cases hfind.symm.trans hrest.findAfter_eq
      cases hletter : isClassNameChar c with
      | false => rfl
      | true =>
        obtain ⟨more, hmore⟩ := List.head?_eq_some_iff.mp hc
        rw [hmore, List.takeWhile_cons_of_pos hletter] at hnil
        cases hnil
    · refine .inr ⟨rest, _, ⟨(findAfter_some hfind).1, (findAfter_some hfind).2⟩, ?_, ?_, hnil⟩
      · refine ⟨(rest.dropWhile Bytes.isSpace).dropWhile isClassNameChar, ?_, ?_⟩
        · exact List.takeWhile_append_dropWhile.symm
        · intro c hc
          have hfirst := List.head?_dropWhile_not isClassNameChar (rest.dropWhile Bytes.isSpace)
          rw [hc] at hfirst
          simpa using hfirst
      · exact fun c hc => List.mem_takeWhile_imp hc

/-! ## Where the class is found -/

/-- How the name of the public class `d` can be found. -/
inductive Found (src : Bytes) (d : PublicClass) (name : Bytes) : Prop where
  /-- The first mention is the declaration, and only white space stands in front of the
      name there. -/
  | declaration {rest more : Bytes} (hspelled : spelling d.cells = classMarker ++ rest)
      (hname : rest.dropWhile Bytes.isSpace = name ++ more)
      (hfirst : ∀ rest', Mentions src rest' → rest'.length ≤ rest.length)
  /-- The first mention is another one, and happens to name the class. -/
  | chance {rest : Bytes} (hfirst : FirstMention src rest)
      (helsewhere : spelling d.cells ≠ classMarker ++ rest) (hname : Names rest name)
  | main (hmain : name = "Main") (hunnamed : Unnamed src)

/-- How `Main` can be answered. -/
inductive FoundMain (src : Bytes) : Prop where
  | unnamed (h : Unnamed src)
  | named {rest : Bytes} (hfirst : FirstMention src rest) (hname : Names rest "Main")

theorem Declared.mentions {src : Bytes} {d : PublicClass} {name rest : Bytes}
    (h : Declared src d name) (hspelled : spelling d.cells = classMarker ++ rest) :
    Mentions src rest := by
  have hsuffix := declarations_spelling h.only (List.mem_singleton_self d)
  rw [hspelled] at hsuffix
  exact hsuffix

theorem Declared.nonempty {src : Bytes} {d : PublicClass} {name : Bytes}
    (h : Declared src d name) : name ≠ [] := by
  intro hnil
  obtain ⟨c, hc, -⟩ := h.start
  rw [hnil] at hc
  cases hc

/-- The text and the tokenizer agree on where the name of a declaration ends. -/
theorem Declared.names {src : Bytes} {d : PublicClass} {name rest more : Bytes}
    (h : Declared src d name) (hspelled : spelling d.cells = classMarker ++ rest)
    (hname : rest.dropWhile Bytes.isSpace = name ++ more) : Names rest name where
  behind := by
    refine ⟨more, hname, ?_⟩
    intro c hc
    obtain ⟨more', rfl⟩ := List.head?_eq_some_iff.mp hc
    have hmodifiers : Token.word "class" ∉ d.modifiers := by
      intro hclass
      exact absurd (h.modifiers _ hclass) (by decide)
    have hrest : rest = rest.takeWhile Bytes.isSpace ++ (name ++ c :: more') := by
      rw [← hname]
      exact List.takeWhile_append_dropWhile.symm
    have hcells : spelling d.cells =
        "public class " ++ (rest.takeWhile Bytes.isSpace ++ (name ++ c :: more')) :=
      hspelled.trans (congrArg (classMarker ++ ·) hrest)
    have hblanks : ∀ b ∈ rest.takeWhile Bytes.isSpace, Bytes.isSpace b = true :=
      fun b hb => List.mem_takeWhile_imp hb
    have hletters : ∀ b ∈ name, isWordChar b = true :=
      fun b hb => isWordChar_of_isClassNameChar (h.letters b hb)
    have hword : isWordChar c = false :=
      declarations_name_ends h.only (List.mem_singleton_self d) hmodifiers h.name_eq h.nonempty
        hletters hblanks hcells
    cases hletter : isClassNameChar c with
    | false => rfl
    | true => cases (isWordChar_of_isClassNameChar hletter).symm.trans hword
  letters := h.letters
  nonempty := h.nonempty

theorem Declared.found_iff {src : Bytes} {d : PublicClass} {name : Bytes}
    (h : Declared src d name) : javaClassName src = name ↔ Found src d name := by
  constructor
  · intro hanswer
    rcases unnamed_or_names src with hunnamed | ⟨rest, name', hrest, hname⟩
    · exact .main (hanswer.symm.trans (javaClassName_unnamed hunnamed)) hunnamed
    · have hsame : name' = name := (javaClassName_names hrest hname).symm.trans hanswer
      subst hsame
      by_cases hspelled : spelling d.cells = classMarker ++ rest
      · obtain ⟨more, hbehind, -⟩ := hname.behind
        exact .declaration hspelled hbehind hrest.first
      · exact .chance hrest hspelled hname
  · intro hfound
    cases hfound with
    | declaration hspelled hname hfirst =>
      exact javaClassName_names ⟨h.mentions hspelled, hfirst⟩ (h.names hspelled hname)
    | chance hfirst helsewhere hname => exact javaClassName_names hfirst hname
    | main hmain hunnamed => exact (javaClassName_unnamed hunnamed).trans hmain.symm

theorem foundMain_iff {src : Bytes} : javaClassName src = "Main" ↔ FoundMain src := by
  constructor
  · intro hanswer
    rcases unnamed_or_names src with hunnamed | ⟨rest, name', hrest, hname⟩
    · exact .unnamed hunnamed
    · have hsame : name' = "Main" := (javaClassName_names hrest hname).symm.trans hanswer
      subst hsame
      exact .named hrest hname
  · intro hfound
    cases hfound with
    | unnamed h => exact javaClassName_unnamed h
    | named hfirst hname => exact javaClassName_names hfirst hname

/-- The search finds the public class of a source when the declaration is the first mention
    of the marker and plain white space stands in front of the name; else by chance only. -/
theorem javaClassName_finds_iff (src : Bytes) :
    FindsClass src ↔ (∀ d name, Declared src d name → Found src d name) ∧
      (declarations src = some [] → FoundMain src) := by
  constructor
  · intro h
    exact ⟨fun d name hdeclared => hdeclared.found_iff.mp (h.declared d name hdeclared),
      fun hnone => foundMain_iff.mp (h.main hnone)⟩
  · rintro ⟨hdeclared, hmain⟩
    exact ⟨fun d name h => h.found_iff.mpr (hdeclared d name h),
      fun hnone => foundMain_iff.mpr (hmain hnone)⟩

/-- A comment that mentions another class. -/
def commentedSource : Bytes :=
  "// public class Foo\npublic class Bar \x7b\x7d"

theorem not_always_finds : ¬ ∀ src, FindsClass src := by
  intro h
  have hread : (declarations commentedSource).map (·.map fun d => (d.modifiers, d.name)) =
      some [([], some (.word "Bar"))] := by decide +kernel
  obtain ⟨ds, hds, hmap⟩ := Option.map_eq_some_iff.mp hread
  obtain ⟨d, rfl, hd⟩ := List.map_eq_singleton_iff.mp hmap
  injection hd with hmodifiers hname
  have hdeclared : Declared commentedSource d "Bar" := by
    refine ⟨hds, ?_, hname, List.all_eq_true.mp rfl, ⟨66, rfl, by decide⟩⟩
    intro t ht
    rw [hmodifiers] at ht
    cases ht
  have hbar := (h commentedSource).declared d "Bar" hdeclared
  have hfoo : javaClassName commentedSource = "Foo" := by decide +kernel
  exact absurd (hfoo.symm.trans hbar) (by decide)

end Sandbox
