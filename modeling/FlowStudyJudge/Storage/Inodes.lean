-- SUMMARY: A directory of names for numbered files: what an open file keeps when its name is taken away.
import Mathlib.Logic.Function.Basic

/-! # Names and files

A name of a directory stands for a file, and an open file stays what it is while names
are removed, moved or given to other files. -/

/-- A directory and the contents of its files. Numbers from `next` on are not in use. -/
structure Inodes (Name Content : Type) where
  entries : Name → Option Nat
  contents : Nat → Content
  next : Nat
  inUse : ∀ name file, entries name = some file → file < next

namespace Inodes

variable {Name Content : Type}

/-- What a name reads as. -/
def read (d : Inodes Name Content) (name : Name) : Option Content :=
  (d.entries name).map d.contents

/-- Replace the content of a file, under whatever names it has. -/
def fill (d : Inodes Name Content) (file : Nat) (c : Content) : Inodes Name Content :=
  { d with contents := Function.update d.contents file c }

/-- The content of a file is read under each of its names. -/
theorem read_fill {d : Inodes Name Content} {name : Name} {file : Nat}
    (h : d.entries name = some file) (c : Content) : (d.fill file c).read name = some c := by
  simp [read, fill, h]

/-- Take a number into use. -/
def grow (d : Inodes Name Content) : Inodes Name Content :=
  { d with
    next := d.next + 1
    inUse := fun name file hentry => Nat.lt_succ_of_lt (d.inUse name file hentry) }

/-! ## Names -/

variable [DecidableEq Name]

/-- Give a name to a file. -/
def enter (d : Inodes Name Content) (name : Name) (file : Nat) (h : file < d.next) :
    Inodes Name Content :=
  { d with
    entries := Function.update d.entries name (some file)
    inUse := by
      intro name' file' hentry
      by_cases hname : name' = name
      · subst hname
        rw [Function.update_self] at hentry
        cases hentry
        exact h
      · rw [Function.update_of_ne hname] at hentry
        exact d.inUse name' file' hentry }

/-- Open a name for writing, with the content `c` at first: the file behind the name, or
    a new one. -/
def create (d : Inodes Name Content) (name : Name) (c : Content) : Nat × Inodes Name Content :=
  match d.entries name with
  | some file => (file, d.fill file c)
  | none => (d.next, (d.grow.enter name d.next (Nat.lt_succ_self _)).fill d.next c)

def unlink (d : Inodes Name Content) (name : Name) : Inodes Name Content :=
  { d with
    entries := Function.update d.entries name none
    inUse := by
      intro name' file hentry
      by_cases hname : name' = name
      · subst hname
        rw [Function.update_self] at hentry
        cases hentry
      · rw [Function.update_of_ne hname] at hentry
        exact d.inUse name' file hentry }

/-- A further name for the file of a name. -/
def link (d : Inodes Name Content) (old new : Name) : Inodes Name Content :=
  match h : d.entries old with
  | some file => d.enter new file (d.inUse old file h)
  | none => d

def rename (d : Inodes Name Content) (old new : Name) : Inodes Name Content :=
  if old = new then d else if d.entries old = none then d else (d.link old new).unlink old

/-- A directory without names. -/
def empty (c : Content) : Inodes Name Content where
  entries _ := none
  contents _ := c
  next := 0
  inUse := by simp

/-- What somebody does in the directory. -/
inductive Act (Name Content : Type) where
  /-- Create a file, or overwrite one, through its name. -/
  | write (name : Name) (c : Content)
  | unlink (name : Name)
  | rename (old new : Name)
  | link (old new : Name)

def perform (d : Inodes Name Content) : Act Name Content → Inodes Name Content
  | .write name c => (d.create name c).2
  | .unlink name => d.unlink name
  | .rename old new => d.rename old new
  | .link old new => d.link old new

end Inodes
