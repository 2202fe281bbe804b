-- SUMMARY: The file system of the host as the worker meets it: paths, the directory of a box, and what opening a path and `mkdir` do.
import FlowStudyJudge.Judge.Commands
import FlowStudyJudge.Storage.FileSystem

/-! # The file system of the host -/

open FileSystem (IsDirectory)

abbrev HostFs := FileSystem Bytes Bytes

namespace HostFs

/-! ## Paths -/

/-- A segment between two slashes; an empty one and `.` are no step. -/
def component (segment : Bytes) : Option (Component Bytes) :=
  if segment = [] ∨ segment = "." then none
  else if segment = ".." then some .parent
  else some (.name segment)

def components (path : Bytes) : List (Component Bytes) :=
  (path.splitOn '/'.toUInt8).filterMap component

/-- The links that a lookup follows at most. -/
def maxLinks : Nat := 40

/-- The place that opening an absolute path arrives at. -/
def locate (fs : HostFs) (path : Bytes) : Option (Location Bytes) :=
  fs.lookup maxLinks [] (components path)

/-- The directory of a box. -/
def boxDir (boxId : Int) : Location Bytes :=
  ["var", "local", "lib", "isolate", Bytes.ofInt boxId, "box"]

/-! ## Opening files and making directories -/

/-- The file that opening a path for writing creates or truncates. -/
def writable (fs : HostFs) (path : Bytes) : Option (Location Bytes) :=
  (fs.locate path).filter fun loc => fs loc ≠ some .directory

/-- What is read from a path. A directory can be opened, but not read from. -/
def read (fs : HostFs) (path : Bytes) : Option Bytes :=
  (fs.locate path).bind fun loc =>
    match fs loc with
    | some (.file content) => some content
    | some .directory => some []
    | some (.link _ _) | none => none

/-- The place that a path names in its directory. Links are followed on the way, but not at
    the last name. -/
def entryOf (fs : HostFs) (path : Bytes) : Option (Location Bytes) :=
  match (components path).getLast? with
  | some (.name n) =>
    (fs.lookup maxLinks [] (components path).dropLast).bind fun dir =>
      if dir = [] ∨ fs dir = some .directory then some (dir ++ [n]) else none
  | some .parent | none => none

theorem writable_eq_some {fs : HostFs} {path : Bytes} {loc : Location Bytes} :
    fs.writable path = some loc ↔ fs.locate path = some loc ∧ fs loc ≠ some .directory := by
  simp [writable, Option.filter_eq_some_iff]

/-! ## The names of a box -/

/-- A name that stands for an entry of its directory. -/
def isPlainName (name : Bytes) : Bool :=
  !name.contains '/'.toUInt8 && name != [] && name != "." && name != ".."

theorem components_name {name : Bytes} (h : isPlainName name = true) :
    components name = [.name name] := by
  simp only [isPlainName, Bool.and_eq_true, Bool.not_eq_true', bne_iff_ne, ne_eq,
    List.contains_eq_mem, decide_eq_false_iff_not] at h
  obtain ⟨⟨⟨hslash, hempty⟩, hdot⟩, hdots⟩ := h
  have hcomponent : component name = some (.name name) := by
    rw [component, if_neg (not_or.mpr ⟨hempty, hdot⟩), if_neg hdots]
  simp only [components, List.splitOn_eq_singleton hslash, List.filterMap_cons, hcomponent,
    List.filterMap_nil]

/-- The components of a path with a slash are those of its two parts. -/
theorem components_slash (p q : Bytes) :
    components (p ++ '/'.toUInt8 :: q) = components p ++ components q := by
  simp only [components, List.splitOn_append_cons_self, List.filterMap_append]

theorem ofInt_plainName (n : Int) : isPlainName (Bytes.ofInt n) = true := by
  have hbytes : ∀ c ∈ Bytes.ofInt n, c ≠ '/'.toUInt8 ∧ c ≠ '.'.toUInt8 := by
    intro c hc
    rcases Bytes.mem_ofInt hc with hdigit | rfl
    · refine ⟨?_, ?_⟩ <;> rintro rfl <;> exact absurd hdigit (by decide)
    · decide
  have hslash : '/'.toUInt8 ∉ Bytes.ofInt n := fun hmem => (hbytes _ hmem).1 rfl
  have hdot : '.'.toUInt8 ∉ Bytes.ofInt n := fun hmem => (hbytes _ hmem).2 rfl
  have hne : ∀ dots : Bytes, '.'.toUInt8 ∈ dots → Bytes.ofInt n ≠ dots := by
    rintro dots hmem heq
    exact hdot (heq ▸ hmem)
  simp only [isPlainName, Bool.and_eq_true, Bool.not_eq_true', bne_iff_ne, ne_eq,
    List.contains_eq_mem, decide_eq_false_iff_not]
  exact ⟨⟨⟨hslash, Bytes.ofInt_ne_nil n⟩, hne _ (by decide)⟩, hne _ (by decide)⟩

theorem components_boxPath (boxId : Int) {name : Bytes} (h : isPlainName name = true) :
    components (Sandbox.boxPath boxId ++ name) =
      FileSystem.names (boxDir boxId) ++ [.name name] := by
  have hsplit : Sandbox.boxPath boxId ++ name =
      (("/var/local/lib/isolate" : Bytes) ++ '/'.toUInt8 :: Bytes.ofInt boxId) ++ '/'.toUInt8 ::
        (("box" : Bytes) ++ '/'.toUInt8 :: name) := by
    have hfront : ("/var/local/lib/isolate/" : Bytes) =
        ("/var/local/lib/isolate" : Bytes) ++ ['/'.toUInt8] := by decide +kernel
    have hback : ("/box/" : Bytes) = '/'.toUInt8 :: ("box" : Bytes) ++ ['/'.toUInt8] := by
      decide +kernel
    simp only [Sandbox.boxPath, hfront, hback, List.append_assoc, List.cons_append,
      List.nil_append]
  have hfront : components "/var/local/lib/isolate" =
      FileSystem.names (["var", "local", "lib", "isolate"] : Location Bytes) := by decide +kernel
  have hbox : components "box" = [.name "box"] := rfl
  rw [hsplit, components_slash, components_slash, components_slash, hfront, hbox,
    components_name (ofInt_plainName boxId), components_name h]
  rfl

/-- The path of a name in a box leads to where the name does in the directory. -/
theorem locate_box {fs : HostFs} {boxId : Int} (hbox : IsDirectory fs (boxDir boxId))
    {name : Bytes} (h : isPlainName name = true) :
    fs.locate (Sandbox.boxPath boxId ++ name) =
      fs.arrive (maxLinks - 1) (boxDir boxId) name := by
  rw [locate, components_boxPath boxId h]
  exact FileSystem.lookup_name hbox (maxLinks - 1) name

variable {fs : HostFs} {boxId : Int} {name : Bytes}

theorem locate_box_of_noLink (hbox : IsDirectory fs (boxDir boxId)) (h : isPlainName name = true)
    (hlink : ∀ absolute target, fs (boxDir boxId ++ [name]) ≠ some (.link absolute target)) :
    fs.locate (Sandbox.boxPath boxId ++ name) = some (boxDir boxId ++ [name]) := by
  rw [locate_box hbox h, FileSystem.arrive]
  split
  · next absolute target hentry => exact absurd hentry (hlink absolute target)
  · rfl

theorem read_box (hbox : IsDirectory fs (boxDir boxId)) (h : isPlainName name = true)
    {content : Bytes} (hfile : fs (boxDir boxId ++ [name]) = some (.file content)) :
    fs.read (Sandbox.boxPath boxId ++ name) = some content := by
  have hlocate := locate_box_of_noLink hbox h (by simp [hfile])
  simp only [read, hlocate, Option.bind_some, hfile]

/-- The place of a name in a directory, for a path of names only. -/
theorem entryOf_names {path : Bytes} {dir : Location Bytes} {n : Bytes}
    (hpath : components path = FileSystem.names dir ++ [.name n])
    (hdir : IsDirectory fs dir) : fs.entryOf path = some (dir ++ [n]) := by
  have hlookup : fs.lookup maxLinks [] (FileSystem.names dir) = some dir := by
    have hwalk : fs.walk (fs.lookup (maxLinks - 1)) [] (FileSystem.names dir ++ []) =
        some dir := FileSystem.walk_names hdir []
    rw [List.append_nil] at hwalk
    exact hwalk
  have hparent : dir = [] ∨ fs dir = some .directory := by
    rcases eq_or_ne dir [] with hnil | hne
    · exact .inl hnil
    · exact .inr (hdir dir List.prefix_rfl hne)
  simp only [entryOf, hpath, List.getLast?_concat, List.dropLast_concat, hlookup,
    Option.bind_some, if_pos hparent]

end HostFs

/-! ## The names that the judge opens -/

namespace Sandbox

open HostFs (isPlainName)

theorem input_plainName : isPlainName "input.txt" = true := rfl
theorem output_plainName : isPlainName "output.txt" = true := rfl
theorem error_plainName : isPlainName "error.txt" = true := rfl
theorem compileMeta_plainName : isPlainName "compile_meta.txt" = true := rfl
theorem runMeta_plainName : isPlainName "run_meta.txt" = true := rfl

/-- The name of a Java file is a class name, which leads nowhere else. -/
theorem sourceFile_plainName (sourceCode : Bytes) (lang : Language) :
    isPlainName (sourceFile sourceCode lang) = true := by
  cases lang with
  | cpp =>
    have hfile : isPlainName "solution.cpp" = true := rfl
    exact hfile
  | python =>
    have hfile : isPlainName "solution.py" = true := rfl
    exact hfile
  | go =>
    have hfile : isPlainName "main.go" = true := rfl
    exact hfile
  | java =>
    have hclass := isClassName_javaClassName sourceCode
    simp only [isClassName, Bool.and_eq_true, Bool.not_eq_true',
      List.isEmpty_eq_false_iff] at hclass
    have hjava : (".java" : Bytes).length = 5 := rfl
    have hlength : 5 < (javaClassName sourceCode ++ ".java").length := by
      rw [List.length_append, hjava]
      have hpos := List.length_pos_iff.mpr hclass.1
      omega
    have hslash : '/'.toUInt8 ∉ javaClassName sourceCode ++ ".java" := by
      rw [List.mem_append]
      rintro (hmem | hmem)
      · exact absurd (List.all_eq_true.mp hclass.2 _ hmem) (by decide)
      · exact absurd hmem (by decide +kernel)
    have hshort : ∀ short : Bytes, short.length ≤ 5 →
        javaClassName sourceCode ++ ".java" ≠ short := by
      intro short hle heq
      rw [heq] at hlength
      omega
    have hempty := hshort [] (by decide)
    have hdot := hshort "." (by decide)
    have hdots := hshort ".." (by decide)
    simp only [isPlainName, sourceFile, Bool.and_eq_true, Bool.not_eq_true', bne_iff_ne, ne_eq,
      List.contains_eq_mem, decide_eq_false_iff_not]
    exact ⟨⟨⟨hslash, hempty⟩, hdot⟩, hdots⟩

end Sandbox
