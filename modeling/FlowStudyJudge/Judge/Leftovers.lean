-- SUMMARY: Files that earlier submissions left in a box: when two boxes with different leftovers look alike to `judge`.
import Mathlib.Data.List.Infix
import FlowStudyJudge.Judge.Box
import FlowStudyJudge.Judge.SideBySide

/-! # Leftovers

`judge` hands a box on as it found it, files included. The comparison below follows two
calls of `judge` from different contents of the box, side by side: as long as isolate
does not look at older files, and none is in the way, neither does `judge`. -/

open FileSystem (IsDirectory)
open HostFs (boxDir isPlainName)
open Sandbox (boxPath languageOf sourceFile parseMeta)

/-- The file with the program that the runs of a submission execute. -/
def SubmissionMessage.programName (submission : SubmissionMessage) : Bytes :=
  match languageOf submission.language with
  | some .java => Sandbox.javaClassName submission.code ++ ".class"
  | some .python => "solution.py"
  | some .cpp | some .go | none => "solution"

namespace Call

/-- What a call would find in the box if it had been handed out empty. -/
def visible (call : Call) (boxId : Int) : Box.Contents := fun loc =>
  if call.fresh (boxDir boxId ++ loc) = true ∨ loc = [] then call.before (boxDir boxId ++ loc)
  else none

/-- The same, and the file of this name, however old it is. -/
def visibleWith (call : Call) (boxId : Int) (name : Bytes) : Box.Contents := fun loc =>
  if loc = [name] then call.before (boxDir boxId ++ loc) else call.visible boxId loc

theorem visibleWith_eq {call : Call} {boxId : Int} {name : Bytes}
    (h : call.fresh (boxDir boxId ++ [name]) = true) :
    call.visibleWith boxId name = call.visible boxId := by
  funext loc
  unfold visibleWith
  split
  · next hloc =>
    subst hloc
    rw [visible, if_pos (.inl h)]
  · rfl

end Call

namespace Box

/-- Call number `k` for the submission answers as in a box that was empty at first, but for
    an old program that it may execute. It writes the files that it has to, and the compiler
    succeeds with a program only. -/
structure ContainedCall (iso : Isolate) (boxId : Int) (submission : SubmissionMessage) (k : Nat)
    (call : Call) : Prop where
  blind : iso call.cmd (contents call.before boxId) =
    iso call.cmd (if k = 0 then call.visible boxId
      else call.visibleWith boxId submission.programName)
  writes : ∀ name ∈ requiredNames k, ∃ content,
    call.changes (boxDir boxId ++ [name]) = some (some (.file content))
  built : k = 0 → ∀ r, parseMeta (boxPath boxId ++ "compile_meta.txt")
      (call.after (boxPath boxId ++ "compile_meta.txt")) = .ok r → r.exitCode = 0 →
    call.freshAfter (boxDir boxId ++ [submission.programName]) = true
  input : ∀ absolute target, call.changes (boxDir boxId ++ [("input.txt" : Bytes)]) ≠
    some (some (.link absolute target))

def Contained (iso : Isolate) (boxId : Int) (submission : SubmissionMessage) (b : Box) : Prop :=
  ∀ k call, b.calls[k]? = some call → ContainedCall iso boxId submission k call

/-- Nothing, or what `judge` would put there itself. -/
def IsFree (fs : HostFs) (loc : Location Bytes) : Prop :=
  fs loc = none ∨ ∃ content, fs loc = some (.file content)

def IsFreeDir (fs : HostFs) (loc : Location Bytes) : Prop :=
  fs loc = none ∨ fs loc = some .directory

/-- The directories that `compile` makes for Go. -/
def goDirs : List (Location Bytes) :=
  [["tmp"], ["tmp", "go-cache"]]

/-- Under the names that `judge` writes for the submission stands no directory and no link,
    and under those of the directories for Go nothing else than a directory. -/
structure Unobstructed (boxId : Int) (submission : SubmissionMessage) (fs : HostFs) : Prop where
  box : IsDirectory fs (boxDir boxId)
  input : IsFree fs (boxDir boxId ++ [("input.txt" : Bytes)])
  source : ∀ lang, languageOf submission.language = some lang →
    IsFree fs (boxDir boxId ++ [sourceFile submission.code lang])
  dirs : languageOf submission.language = some .go →
    ∀ rest ∈ goDirs, IsFreeDir fs (boxDir boxId ++ rest)

/-! ## Places in a box -/

variable {boxId : Int} {submission : SubmissionMessage} {fs fs₁ fs₂ : HostFs}

theorem isDirectory_of_same (hbox : IsDirectory fs₁ (boxDir boxId))
    (h : ∀ loc, loc <+: boxDir boxId → fs₂ loc = fs₁ loc) : IsDirectory fs₂ (boxDir boxId) := by
  intro d hd hne
  rw [h d hd]
  exact hbox d hd hne

/-- What stands in a box is not on the way to it. -/
theorem not_prefix_boxDir {rest : Location Bytes} (h : rest ≠ []) :
    ¬ (boxDir boxId ++ rest) <+: boxDir boxId := by
  intro hpre
  have hlength := hpre.length_le
  have hrest := List.length_pos_iff.mpr h
  rw [List.length_append] at hlength
  omega

theorem isDirectory_put {rest : Location Bytes} {entry : Entry Bytes Bytes} (h : rest ≠ [])
    (hbox : IsDirectory fs (boxDir boxId)) :
    IsDirectory (fs.put (boxDir boxId ++ rest) entry) (boxDir boxId) := by
  refine isDirectory_of_same hbox fun loc hloc => FileSystem.put_of_ne ?_
  rintro rfl
  exact not_prefix_boxDir h hloc

theorem within_of_prefix {changes : Changes} {loc : Location Bytes} (h : loc <+: boxDir boxId) :
    within boxId changes loc = none := by
  refine if_neg ?_
  rintro ⟨hpre, hne⟩
  exact hne (h.eq_of_length_le hpre.length_le)

theorem isDirectory_change {changes : Changes} (hbox : IsDirectory fs (boxDir boxId)) :
    IsDirectory (fs.change (within boxId changes)) (boxDir boxId) := by
  refine isDirectory_of_same hbox fun loc hloc => ?_
  rw [HostFs.change, within_of_prefix hloc]
  rfl

theorem sourceFile_ne_tmp (sourceCode : Bytes) (lang : Sandbox.Language) :
    sourceFile sourceCode lang ≠ "tmp" := by
  intro heq
  have hlength := congrArg List.length heq
  have htmp : ("tmp" : Bytes).length = 3 := rfl
  have hjava : (".java" : Bytes).length = 5 := rfl
  cases lang with
  | cpp => exact absurd hlength (by simp [sourceFile] ; decide)
  | python => exact absurd hlength (by simp [sourceFile]; decide)
  | go => exact absurd hlength (by simp [sourceFile]; decide)
  | java =>
    simp only [sourceFile, List.length_append, htmp, hjava] at hlength
    omega

/-! ## Two boxes in agreement -/

/-- In both file systems no link stands there, and in both a directory or in none. -/
structure Alike (fs₁ fs₂ : HostFs) (loc : Location Bytes) : Prop where
  noLink₁ : ∀ absolute target, fs₁ loc ≠ some (.link absolute target)
  noLink₂ : ∀ absolute target, fs₂ loc ≠ some (.link absolute target)
  directory : fs₁ loc = some .directory ↔ fs₂ loc = some .directory

/-- Two boxes, both after `k` calls, with the same fresh files. -/
structure Agree (boxId : Int) (k : Nat) (b₁ b₂ : Box) : Prop where
  fresh : b₁.fresh = b₂.fresh
  files : ∀ loc, b₁.fresh loc = true → b₁.fs loc = b₂.fs loc
  calls₁ : b₁.calls.length = k
  calls₂ : b₂.calls.length = k
  box₁ : IsDirectory b₁.fs (boxDir boxId)
  box₂ : IsDirectory b₂.fs (boxDir boxId)
  input : Alike b₁.fs b₂.fs (boxDir boxId ++ [("input.txt" : Bytes)])

/-- Nothing is in the way of the compilation. -/
structure Open (boxId : Int) (submission : SubmissionMessage) (b₁ b₂ : Box) : Prop where
  source : ∀ lang, languageOf submission.language = some lang →
    Alike b₁.fs b₂.fs (boxDir boxId ++ [sourceFile submission.code lang])
  dirs : languageOf submission.language = some .go →
    ∀ rest ∈ goDirs, IsFreeDir b₁.fs (boxDir boxId ++ rest) ∧ IsFreeDir b₂.fs (boxDir boxId ++ rest)

structure Before (boxId : Int) (submission : SubmissionMessage) (k : Nat) (b₁ b₂ : Box) : Prop
    extends Agree boxId k b₁ b₂ where
  opened : k = 0 → Open boxId submission b₁ b₂

/-- The same right behind call number `k`. -/
structure Called (boxId : Int) (k : Nat) (b₁ b₂ : Box) : Prop extends
    Agree boxId (k + 1) b₁ b₂ where
  required : ∀ name ∈ requiredNames k, b₁.fresh (boxDir boxId ++ [name]) = true ∧
    ∃ content, b₁.fs (boxDir boxId ++ [name]) = some (.file content)

variable {disk : Disk} {iso : Isolate} {k : Nat} {b b₁ b₂ : Box}

theorem IsFree.alike {loc : Location Bytes} (h₁ : IsFree fs₁ loc) (h₂ : IsFree fs₂ loc) :
    Alike fs₁ fs₂ loc := by
  rcases h₁ with h₁ | ⟨_, h₁⟩ <;> rcases h₂ with h₂ | ⟨_, h₂⟩ <;>
    exact ⟨by simp [h₁], by simp [h₂], by simp [h₁, h₂]⟩

theorem Alike.of_eq {loc : Location Bytes} (h : fs₁ loc = fs₂ loc)
    (hlink : ∀ absolute target, fs₁ loc ≠ some (.link absolute target)) : Alike fs₁ fs₂ loc :=
  ⟨hlink, fun absolute target => h ▸ hlink absolute target, by rw [h]⟩

theorem Alike.put {loc l : Location Bytes} {entry : Entry Bytes Bytes} (h : Alike fs₁ fs₂ l)
    (hentry : ∀ absolute target, entry ≠ .link absolute target) :
    Alike (fs₁.put loc entry) (fs₂.put loc entry) l := by
  by_cases hl : l = loc
  · refine .of_eq (by simp [FileSystem.put, hl]) fun absolute target => ?_
    simp [FileSystem.put, hl, hentry]
  · have heq : ∀ fs : HostFs, fs.put loc entry l = fs l := fun fs => FileSystem.put_of_ne hl
    exact ⟨by simpa [heq] using h.noLink₁, by simpa [heq] using h.noLink₂,
      by simpa [heq] using h.directory⟩

/-! ## Operations of the worker -/

theorem Agree.put {rest : Location Bytes} {entry : Entry Bytes Bytes}
    (h : Agree boxId k b₁ b₂) (hrest : rest ≠ [])
    (hentry : ∀ absolute target, entry ≠ .link absolute target) :
    Agree boxId k (b₁.put (boxDir boxId ++ rest) entry) (b₂.put (boxDir boxId ++ rest) entry) where
  fresh := by simp only [Box.put, h.fresh]
  files loc hloc := by
    by_cases heq : loc = boxDir boxId ++ rest
    · simp [Box.put, FileSystem.put, heq]
    · simp only [Box.put, FileSystem.put_of_ne heq]
      refine h.files loc ?_
      simpa [Box.put, heq] using hloc
  calls₁ := h.calls₁
  calls₂ := h.calls₂
  box₁ := isDirectory_put hrest h.box₁
  box₂ := isDirectory_put hrest h.box₂
  input := h.input.put hentry

theorem IsFreeDir.put_directory {fs : HostFs} {loc l : Location Bytes} (h : IsFreeDir fs l) :
    IsFreeDir (fs.put loc .directory) l := by
  by_cases hl : l = loc
  · exact .inr (by simp [FileSystem.put, hl])
  · simpa only [IsFreeDir, FileSystem.put_of_ne hl] using h

theorem Open.put_directory {loc : Location Bytes} (h : Open boxId submission b₁ b₂) :
    Open boxId submission (b₁.put loc .directory) (b₂.put loc .directory) where
  source lang hlang := (h.source lang hlang).put (by simp)
  dirs hgo rest hrest := ⟨(h.dirs hgo rest hrest).1.put_directory,
    (h.dirs hgo rest hrest).2.put_directory⟩

/-- A file in a box is opened and written alike in both boxes. -/
theorem host_ofstream (disk : Disk) (iso : Isolate) {name : Bytes}
    (hname : isPlainName name = true) (content : Bytes) (h : Agree boxId k b₁ b₂)
    (halike : Alike b₁.fs b₂.fs (boxDir boxId ++ [name])) :
    let answer₁ := host disk iso boxId (.ofstream (boxPath boxId ++ name) content) b₁
    let answer₂ := host disk iso boxId (.ofstream (boxPath boxId ++ name) content) b₂
    answer₁.1 = answer₂.1 ∧ (answer₁.2 = b₁ ∧ answer₂.2 = b₂ ∨
      ∃ part, answer₁.2 = b₁.put (boxDir boxId ++ [name]) (.file part) ∧
        answer₂.2 = b₂.put (boxDir boxId ++ [name]) (.file part)) := by
  have hloc₁ := HostFs.locate_box_of_noLink h.box₁ hname halike.noLink₁
  have hloc₂ := HostFs.locate_box_of_noLink h.box₂ hname halike.noLink₂
  by_cases hdir : b₁.fs (boxDir boxId ++ [name]) = some .directory
  · have hdir₂ := halike.directory.mp hdir
    simp [host, HostFs.writable, hloc₁, hloc₂, hdir, hdir₂, Option.filter]
  · have hdir₂ := fun heq => hdir (halike.directory.mpr heq)
    have hopen₁ := HostFs.writable_eq_some.mpr ⟨hloc₁, hdir⟩
    have hopen₂ := HostFs.writable_eq_some.mpr ⟨hloc₂, hdir₂⟩
    simp only [host, hopen₁, hopen₂, Option.elim_some, store]
    cases disk.ofstream (boxPath boxId ++ name) content with
    | refused => exact ⟨rfl, .inl ⟨rfl, rfl⟩⟩
    | truncated => exact ⟨rfl, .inr ⟨_, rfl, rfl⟩⟩
    | complete => exact ⟨rfl, .inr ⟨_, rfl, rfl⟩⟩

/-- `mkdir` makes the directory in a free place, unless it is not allowed to. -/
theorem host_mkdir (disk : Disk) (iso : Isolate) {path : Bytes} {loc : Location Bytes}
    (hloc : b.fs.entryOf path = some loc) (hfree : IsFreeDir b.fs loc) :
    host disk iso boxId (.mkdir path) b =
      if disk.mkdir path = true then
        (if b.fs loc = none then .created else .exists, b.put loc .directory)
      else (.failed, b) := by
  by_cases hpermitted : disk.mkdir path = true
  · rcases hfree with hnone | hdir
    · simp [host, hpermitted, hloc, makeDir, hnone]
    · simp [host, hpermitted, hloc, makeDir, hdir]
  · simp [host, hpermitted]

/-- The directory has been made in both boxes or in none. -/
structure DirMade (boxId : Int) (submission : SubmissionMessage) (rest : Location Bytes)
    (r₁ r₂ : MkdirResult) (b₁ b₂ : Box) : Prop where
  failed : r₁ = .failed ↔ r₂ = .failed
  before : Before boxId submission 0 b₁ b₂
  made : r₁ ≠ .failed → b₁.fs (boxDir boxId ++ rest) = some .directory ∧
    b₂.fs (boxDir boxId ++ rest) = some .directory

theorem Before.mkdir (disk : Disk) (iso : Isolate) {path : Bytes} {rest : Location Bytes}
    (h : Before boxId submission 0 b₁ b₂) (hgo : languageOf submission.language = some .go)
    (hrest : rest ∈ goDirs) (hpath₁ : b₁.fs.entryOf path = some (boxDir boxId ++ rest))
    (hpath₂ : b₂.fs.entryOf path = some (boxDir boxId ++ rest)) :
    let answer₁ := host disk iso boxId (.mkdir path) b₁
    let answer₂ := host disk iso boxId (.mkdir path) b₂
    DirMade boxId submission rest answer₁.1 answer₂.1 answer₁.2 answer₂.2 := by
  have hopen := h.opened rfl
  obtain ⟨hfree₁, hfree₂⟩ := hopen.dirs hgo rest hrest
  rw [host_mkdir disk iso hpath₁ hfree₁, host_mkdir disk iso hpath₂ hfree₂]
  by_cases hpermitted : disk.mkdir path = true
  · have hne : rest ≠ [] := by
      rintro rfl
      simp [goDirs] at hrest
    simp only [if_pos hpermitted]
    refine ⟨?_, ⟨h.put hne (by simp), fun _ => hopen.put_directory⟩, fun _ => ?_⟩
    · split <;> split <;> simp
    · simp [Box.put, FileSystem.put]
  · simp only [if_neg hpermitted]
    exact ⟨Iff.rfl, h, fun hmade => absurd rfl hmade⟩

theorem entryOf_tmp {fs : HostFs} (hbox : IsDirectory fs (boxDir boxId)) :
    fs.entryOf (boxPath boxId ++ "tmp") = some (boxDir boxId ++ [("tmp" : Bytes)]) :=
  HostFs.entryOf_names (HostFs.components_boxPath boxId rfl) hbox

theorem entryOf_goCache {fs : HostFs} (hbox : IsDirectory fs (boxDir boxId))
    (htmp : fs (boxDir boxId ++ [("tmp" : Bytes)]) = some .directory) :
    fs.entryOf (boxPath boxId ++ "tmp" ++ "/go-cache") =
      some (boxDir boxId ++ [("tmp" : Bytes), "go-cache"]) := by
  have hplain : isPlainName "go-cache" = true := rfl
  have htmpPath : HostFs.components (boxPath boxId ++ "tmp") =
      FileSystem.names (boxDir boxId ++ [("tmp" : Bytes)]) := by
    rw [HostFs.components_boxPath boxId rfl]
    simp [FileSystem.names]
  have hpath : HostFs.components (boxPath boxId ++ "tmp" ++ "/go-cache") =
      FileSystem.names (boxDir boxId ++ [("tmp" : Bytes)]) ++ [.name "go-cache"] := by
    have hcache : ("/go-cache" : Bytes) = '/'.toUInt8 :: ("go-cache" : Bytes) := by decide +kernel
    rw [hcache, HostFs.components_slash, htmpPath, HostFs.components_name hplain]
  rw [HostFs.entryOf_names hpath (hbox.concat htmp), List.append_assoc]
  rfl

/-! ## Calls of isolate -/

/-- A call that answers as in a box that was empty at first, and writes the files that it
    has to. -/
structure BlindCall (iso : Isolate) (boxId : Int) (k : Nat) (call : Call) : Prop where
  blind : iso call.cmd (contents call.before boxId) = iso call.cmd (call.visible boxId)
  writes : ∀ name ∈ requiredNames k, ∃ content,
    call.changes (boxDir boxId ++ [name]) = some (some (.file content))
  input : ∀ absolute target, call.changes (boxDir boxId ++ [("input.txt" : Bytes)]) ≠
    some (some (.link absolute target))

def Blind (iso : Isolate) (boxId : Int) (b : Box) : Prop :=
  ∀ k call, b.calls[k]? = some call → BlindCall iso boxId k call

/-- Every operation only adds calls. -/
theorem blind_of_host (op : Op) (b : Box) (h : Blind iso boxId (host disk iso boxId op b).2) :
    Blind iso boxId b := by
  intro k call hk
  obtain ⟨calls, hcalls, -⟩ := (grown_of_world (host_world op b)).calls
  refine h k call ?_
  rw [hcalls, List.getElem?_append_left]
  · exact hk
  · exact (List.getElem?_eq_some_iff.mp hk).1

theorem Agree.visible (h : Agree boxId k b₁ b₂) {cmd cmd' : Bytes} {ret ret' : Int}
    {changes changes' : Changes} :
    (b₁.call cmd ret changes).visible boxId = (b₂.call cmd' ret' changes').visible boxId := by
  funext loc
  have hdir : ∀ {fs : HostFs}, IsDirectory fs (boxDir boxId) →
      fs (boxDir boxId) = some .directory :=
    fun hbox => hbox _ List.prefix_rfl (by simp [boxDir])
  change (if b₁.fresh (boxDir boxId ++ loc) = true ∨ loc = [] then b₁.fs (boxDir boxId ++ loc)
    else none) = if b₂.fresh (boxDir boxId ++ loc) = true ∨ loc = [] then
      b₂.fs (boxDir boxId ++ loc) else none
  rw [h.fresh]
  by_cases hloc : b₂.fresh (boxDir boxId ++ loc) = true
  · rw [if_pos (.inl hloc), if_pos (.inl hloc), h.files _ (h.fresh ▸ hloc)]
  · by_cases hnil : loc = []
    · subst hnil
      rw [if_pos (.inr rfl), if_pos (.inr rfl), List.append_nil, hdir h.box₁, hdir h.box₂]
    · have hnot := not_or.mpr ⟨hloc, hnil⟩
      rw [if_neg hnot, if_neg hnot]

/-- Calls that answer the same keep two boxes in agreement. -/
theorem Agree.invoke (h : Agree boxId k b₁ b₂) (cmd : Bytes) (ret : Int) (changes : Changes)
    (hinput : ∀ absolute target, within boxId changes (boxDir boxId ++ [("input.txt" : Bytes)]) ≠
      some (some (.link absolute target))) :
    Agree boxId (k + 1) (b₁.invoke cmd ret (within boxId changes))
      (b₂.invoke cmd ret (within boxId changes)) where
  fresh := by
    funext loc
    simp only [Box.invoke, Call.freshAfter, call, h.fresh]
  files loc hloc := by
    simp only [Box.invoke, Call.left, call, HostFs.change]
    cases hchange : within boxId changes loc with
    | some entry => rfl
    | none =>
      refine h.files loc ?_
      simpa [Box.invoke, Call.freshAfter, call, hchange] using hloc
  calls₁ := by simp [h.calls₁]
  calls₂ := by simp [h.calls₂]
  box₁ := isDirectory_change h.box₁
  box₂ := isDirectory_change h.box₂
  input := by
    generalize hplace : boxDir boxId ++ [("input.txt" : Bytes)] = place at hinput
    have halike : Alike b₁.fs b₂.fs place := hplace ▸ h.input
    have hleft : ∀ b : Box, (b.invoke cmd ret (within boxId changes)).fs place =
        (within boxId changes place).getD (b.fs place) := fun _ => rfl
    cases hchange : within boxId changes place with
    | some entry =>
      refine .of_eq (by simp only [hleft, hchange, Option.getD_some]) fun absolute target => ?_
      rw [hleft, hchange, Option.getD_some]
      rintro rfl
      exact hinput absolute target hchange
    | none =>
      simp only [hchange, Option.getD_none] at hleft
      exact ⟨by simpa only [hleft] using halike.noLink₁, by simpa only [hleft] using halike.noLink₂,
        by simpa only [hleft] using halike.directory⟩

/-- A call of isolate answers the same on both sides. -/
theorem host_called (disk : Disk) (hagree : Agree boxId k b₁ b₂) (cmd : Bytes)
    (hok₁ : Blind iso boxId (host disk iso boxId (.system cmd) b₁).2)
    (hok₂ : Blind iso boxId (host disk iso boxId (.system cmd) b₂).2) :
    (host disk iso boxId (.system cmd) b₁).1 = (host disk iso boxId (.system cmd) b₂).1 ∧
      Called boxId k (host disk iso boxId (.system cmd) b₁).2
        (host disk iso boxId (.system cmd) b₂).2 := by
  simp only [host] at hok₁ hok₂ ⊢
  have hcall : ∀ {b : Box} {ret : Int} {changes : Changes}, b.calls.length = k →
      (b.invoke cmd ret changes).calls[k]? = some (b.call cmd ret changes) := by
    rintro b ret changes rfl
    rw [invoke_calls, List.getElem?_concat_length]
  have hcall₁ := hok₁ k _ (hcall hagree.calls₁)
  have hcall₂ := hok₂ k _ (hcall hagree.calls₂)
  have hsame : iso cmd (contents b₁.fs boxId) = iso cmd (contents b₂.fs boxId) := by
    calc iso cmd (contents b₁.fs boxId)
      _ = iso cmd ((b₁.call cmd _ _).visible boxId) := hcall₁.blind
      _ = iso cmd ((b₂.call cmd _ _).visible boxId) := by rw [hagree.visible]
      _ = iso cmd (contents b₂.fs boxId) := hcall₂.blind.symm
  rw [← hsame]
  refine ⟨rfl, hagree.invoke cmd _ _ hcall₁.input, fun name hname => ?_⟩
  obtain ⟨content, hwritten⟩ := hcall₁.writes name hname
  simp only [call] at hwritten
  refine ⟨?_, content, ?_⟩
  · simp only [Box.invoke, Call.freshAfter, call, hwritten, Option.isSome_some, Bool.true_or]
  · simp only [Box.invoke, Call.left, call, HostFs.change, hwritten, Option.getD_some]

theorem requiredNames_plain {name : Bytes} (h : name ∈ requiredNames k) :
    isPlainName name = true := by
  cases k <;> simp only [requiredNames, List.mem_cons, List.not_mem_nil, or_false] at h
  · rcases h with rfl | rfl <;> rfl
  · rcases h with rfl | rfl | rfl <;> rfl

/-- A file that the call had to write reads the same on both sides. -/
theorem Called.read {path : Bytes} (h : Called boxId k b₁ b₂)
    (hpath : path ∈ requiredFiles boxId k) : b₁.fs.read path = b₂.fs.read path := by
  obtain ⟨name, hname, rfl⟩ := List.mem_map.mp hpath
  have hplain := requiredNames_plain hname
  obtain ⟨hfresh, content, hfile⟩ := h.required name hname
  rw [HostFs.read_box h.box₁ hplain hfile, HostFs.read_box h.box₂ hplain]
  rw [← h.files _ hfresh, hfile]

/-! ## Two boxes side by side -/

/-- Two boxes with the same fresh files look alike. -/
def views (disk : Disk) (iso : Isolate) (boxId : Int) (isolateBin : Bytes)
    (submission : SubmissionMessage) : Views Box where
  host := host disk iso boxId
  ok := Blind iso boxId
  isolateBin := isolateBin
  boxId := boxId
  before := Before boxId submission
  behind := Called boxId

/-- The source file goes to the same place in both boxes, or to none. -/
theorem Before.write_source (disk : Disk) (iso : Isolate) {lang : Sandbox.Language}
    (h : Before boxId submission 0 b₁ b₂) (hlang : languageOf submission.language = some lang) :
    let op : Op := .ofstream (boxPath boxId ++ sourceFile submission.code lang) submission.code
    (host disk iso boxId op b₁).1 = (host disk iso boxId op b₂).1 ∧
      Before boxId submission 0 (host disk iso boxId op b₁).2 (host disk iso boxId op b₂).2 := by
  intro op
  have hopen := h.opened rfl
  obtain ⟨hw, ⟨hsame₁, hsame₂⟩ | ⟨part, hput₁, hput₂⟩⟩ := host_ofstream disk iso
    (Sandbox.sourceFile_plainName submission.code lang) submission.code h.toAgree
    (hopen.source lang hlang)
  · exact ⟨hw, by rw [hsame₁, hsame₂]; exact h⟩
  · refine ⟨hw, ?_⟩
    rw [hput₁, hput₂]
    refine ⟨h.put (by simp) (by simp), fun _ => ⟨fun lang' hlang' => ?_, fun hgo rest hrest => ?_⟩⟩
    · exact (hopen.source lang' hlang').put (by simp)
    · have hne : boxDir boxId ++ rest ≠ boxDir boxId ++ [sourceFile submission.code lang] := by
        intro heq
        have hrest' := List.append_cancel_left heq
        simp only [goDirs, List.mem_cons, List.not_mem_nil, or_false, hrest', List.cons.injEq,
          and_true, reduceCtorEq, and_false] at hrest
        exact sourceFile_ne_tmp _ _ hrest
      have hdirs := hopen.dirs hgo rest hrest
      simpa only [IsFreeDir, Box.put, FileSystem.put_of_ne hne] using hdirs

theorem Agree.write_input (disk : Disk) (iso : Isolate) (h : Agree boxId k b₁ b₂)
    (content : Bytes) :
    let op : Op := .ofstream (boxPath boxId ++ "input.txt") content
    (host disk iso boxId op b₁).1 = (host disk iso boxId op b₂).1 ∧
      Agree boxId k (host disk iso boxId op b₁).2 (host disk iso boxId op b₂).2 := by
  intro op
  obtain ⟨hw, ⟨hsame₁, hsame₂⟩ | ⟨part, hput₁, hput₂⟩⟩ := host_ofstream disk iso
    Sandbox.input_plainName content h h.input
  · exact ⟨hw, by rw [hsame₁, hsame₂]; exact h⟩
  · exact ⟨hw, by rw [hput₁, hput₂]; exact h.put (by simp) (by simp)⟩

/-- The directories for Go are made in both boxes or in none. -/
theorem makeDirs_alike (isolateBin : Bytes) {sb : Sandbox} {lang : Sandbox.Language}
    (hbox : sb.boxId = boxId) (hlang : languageOf submission.language = some lang) :
    (views disk iso boxId isolateBin submission).Keeps 0 (sb.makeDirs lang) := by
  cases lang with
  | cpp | java | python => exact .done fun _ _ hbefore => ⟨rfl, hbefore⟩
  | go =>
    subst hbox
    unfold Sandbox.makeDirs
    refine Prog.Related.bind blind_of_host (Q := DirMade sb.boxId submission ["tmp"])
      (Prog.Related.perform fun _ _ hbefore _ _ => hbefore.mkdir disk iso hlang (by simp [goDirs])
        (entryOf_tmp hbefore.box₁) (entryOf_tmp hbefore.box₂)) fun r₁ r₂ => ?_
    refine .assume (fun _ _ hmade => hmade.failed) fun hfailed => ?_
    by_cases hr : r₁ = .failed
    · rw [if_pos hr, if_pos (hfailed.mp hr)]
      exact .done fun _ _ hmade => ⟨rfl, hmade.before⟩
    · rw [if_neg hr, if_neg (mt hfailed.mpr hr)]
      refine Prog.Related.bind blind_of_host
        (Q := DirMade sb.boxId submission ["tmp", "go-cache"])
        (Prog.Related.perform fun b₁ b₂ hmade _ _ => ?_) fun r₁' r₂' => ?_
      · obtain ⟨hdir₁, hdir₂⟩ := hmade.made hr
        exact hmade.before.mkdir disk iso hlang (by simp [goDirs])
          (entryOf_goCache hmade.before.box₁ hdir₁) (entryOf_goCache hmade.before.box₂ hdir₂)
      · refine .assume (fun _ _ hmade => hmade.failed) fun hfailed' => ?_
        by_cases hr' : r₁' = .failed
        · rw [if_pos hr', if_pos (hfailed'.mp hr')]
          exact .done fun _ _ hmade => ⟨rfl, hmade.before⟩
        · rw [if_neg hr', if_neg (mt hfailed'.mpr hr')]
          exact .done fun _ _ hmade => ⟨rfl, hmade.before⟩

theorem views_lawful (disk : Disk) (iso : Isolate) (boxId : Int) (isolateBin : Bytes)
    (submission : SubmissionMessage) :
    (views disk iso boxId isolateBin submission).Lawful submission where
  ok_of_step := blind_of_host
  acquire := Prog.Related.perform fun _ _ hbefore _ _ => ⟨⟨rfl, rfl⟩, hbefore⟩
  dirs _ _ hbox hlang := makeDirs_alike isolateBin hbox hlang
  source _ hlang := Prog.Related.perform fun _ _ hbefore _ _ => hbefore.write_source disk iso hlang
  input k content := Prog.Related.perform fun _ _ hbefore _ _ => by
    obtain ⟨hw, hagree⟩ := hbefore.toAgree.write_input disk iso content
    exact ⟨hw, hagree, fun hk => absurd hk (Nat.succ_ne_zero k)⟩
  system _ cmd _ := Prog.Related.perform fun _ _ hbefore hok₁ hok₂ =>
    host_called disk hbefore.toAgree cmd hok₁ hok₂
  ifstream _ _ _ := Prog.Related.perform fun _ _ hcalled _ _ => ⟨hcalled.read, hcalled⟩
  next k _ _ hcalled := ⟨hcalled.toAgree, fun hk => absurd hk (Nat.succ_ne_zero k)⟩

end Box
