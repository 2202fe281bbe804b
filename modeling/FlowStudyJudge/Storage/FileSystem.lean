-- SUMMARY: File systems with directories, files and symbolic links: the lookup of a path, and what a change at one place keeps.
import Mathlib.Data.List.Infix

/-! # File systems

A file system says what stands at each location, a location being the names on the way
from the root. A path is looked up component by component; where a symbolic link stands
on the way, the lookup goes on with the target of the link, a bounded number of times. -/

/-- One step of a path. -/
inductive Component (Name : Type) where
  | name (n : Name)
  /-- `..` -/
  | parent
  deriving DecidableEq, Repr

inductive Entry (Name Content : Type) where
  | directory
  | file (c : Content)
  /-- A symbolic link, with a target from the root or from the directory of the link. -/
  | link (absolute : Bool) (target : List (Component Name))
  deriving DecidableEq, Repr

abbrev Location (Name : Type) := List Name

/-- What stands where. The root is a directory. -/
abbrev FileSystem (Name Content : Type) := Location Name → Option (Entry Name Content)

namespace FileSystem

variable {Name Content : Type}

/-- The components of a path without `..`. -/
def names (path : Location Name) : List (Component Name) :=
  path.map .name

section

variable (fs : FileSystem Name Content)

/-- Look up components from a directory on, handing over to `follow` at a link. The last
    component need not exist. -/
def walk (follow : Location Name → List (Component Name) → Option (Location Name)) :
    Location Name → List (Component Name) → Option (Location Name)
  | dir, [] => some dir
  | dir, .parent :: rest => walk follow dir.dropLast rest
  | dir, .name n :: rest =>
    match fs (dir ++ [n]) with
    | some .directory => walk follow (dir ++ [n]) rest
    | some (.link absolute target) => follow (if absolute then [] else dir) (target ++ rest)
    | some (.file _) | none => if rest.isEmpty then some (dir ++ [n]) else none

/-- The lookup of a path from a directory on, through so many links. -/
def lookup : Nat → Location Name → List (Component Name) → Option (Location Name)
  | 0 => walk fs fun _ _ => none
  | links + 1 => walk fs (lookup links)

/-- Where a link in the directory `dir` leads to. -/
def follow (links : Nat) (dir : Location Name) (absolute : Bool)
    (target : List (Component Name)) : Option (Location Name) :=
  lookup fs links (if absolute then [] else dir) target

/-- Where a name in a directory leads to: the place itself, unless a link stands there. -/
def arrive (links : Nat) (dir : Location Name) (n : Name) : Option (Location Name) :=
  match fs (dir ++ [n]) with
  | some (.link absolute target) => follow fs links dir absolute target
  | _ => some (dir ++ [n])

/-- A directory, as all locations on the way to it. -/
def IsDirectory (dir : Location Name) : Prop :=
  ∀ d, d <+: dir → d ≠ [] → fs d = some .directory

end

variable {fs : FileSystem Name Content}

theorem IsDirectory.of_prefix {dir dir' : Location Name} (h : IsDirectory fs (dir ++ dir')) :
    IsDirectory fs dir :=
  fun d hd hne => h d (hd.trans (List.prefix_append ..)) hne

theorem IsDirectory.last {dir : Location Name} {n : Name} (h : IsDirectory fs (dir ++ [n])) :
    fs (dir ++ [n]) = some .directory :=
  h _ List.prefix_rfl (by simp)

theorem IsDirectory.concat {dir : Location Name} {n : Name} (h : IsDirectory fs dir)
    (hlast : fs (dir ++ [n]) = some .directory) : IsDirectory fs (dir ++ [n]) := by
  intro d hd hne
  rcases List.prefix_concat_iff.mp hd with rfl | hprefix
  · exact hlast
  · exact h d hprefix hne

/-- A lookup goes straight through directories. -/
theorem walk_names {follow : Location Name → List (Component Name) → Option (Location Name)}
    {start dir : Location Name} (h : IsDirectory fs (start ++ dir))
    (rest : List (Component Name)) :
    walk fs follow start (names dir ++ rest) = walk fs follow (start ++ dir) rest := by
  induction dir generalizing start with
  | nil => simp [names]
  | cons n dir ih =>
    have hsplit : start ++ n :: dir = start ++ [n] ++ dir := by simp
    rw [hsplit] at h ⊢
    have hdir : fs (start ++ [n]) = some .directory := h.of_prefix.last
    have hstep : walk fs follow start (names (n :: dir) ++ rest) =
        walk fs follow (start ++ [n]) (names dir ++ rest) := by
      simp only [names, List.map_cons, List.cons_append, walk, hdir]
    rw [hstep]
    exact ih h

/-- The lookup of a name in a directory. -/
theorem lookup_name {dir : Location Name} (h : IsDirectory fs dir) (links : Nat) (n : Name) :
    lookup fs (links + 1) [] (names dir ++ [.name n]) = arrive fs links dir n := by
  have hwalk : lookup fs (links + 1) [] (names dir ++ [.name n]) =
      walk fs (lookup fs links) dir [.name n] := walk_names h [.name n]
  rw [hwalk]
  simp only [walk, arrive]
  cases hentry : fs (dir ++ [n]) with
  | none => rfl
  | some entry =>
    cases entry with
    | directory => rfl
    | file c => rfl
    | link absolute target => simp [follow]

/-! ## Changes -/

variable [DecidableEq Name]

/-- Put an entry somewhere. -/
def put (fs : FileSystem Name Content) (loc : Location Name) (entry : Entry Name Content) :
    FileSystem Name Content :=
  fun l => if l = loc then some entry else fs l

theorem put_of_ne {loc l : Location Name} {entry : Entry Name Content} (h : l ≠ loc) :
    fs.put loc entry l = fs l :=
  if_neg h

/-- Directories stay where nothing but other places is changed. -/
theorem IsDirectory.put {dir loc : Location Name} {entry : Entry Name Content}
    (h : IsDirectory fs dir) (hloc : fs loc ≠ some .directory) :
    IsDirectory (fs.put loc entry) dir := by
  intro d hd hne
  have hdir := h d hd hne
  have hd : d ≠ loc := by
    rintro rfl
    exact hloc hdir
  rw [put_of_ne hd]
  exact hdir

theorem IsDirectory.put_directory {dir loc : Location Name} (h : IsDirectory fs dir) :
    IsDirectory (fs.put loc .directory) dir := by
  intro d hd hne
  by_cases heq : d = loc
  · simp [FileSystem.put, heq]
  · rw [put_of_ne heq]
    exact h d hd hne

end FileSystem
