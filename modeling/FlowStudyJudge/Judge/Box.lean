-- SUMMARY: A box as a world: what the judge and the calls of isolate do to its directory, and what is read back.
import FlowStudyJudge.Judge.HostFs

/-! # Boxes

A box keeps its files from one operation to the next, and from one submission to the
next. What a call of isolate does to them is open: it answers a code, and removes and puts
what it likes. The box remembers every call, and which places have been changed since it
was handed out. -/

open HostFs (boxDir)

/-- What a call of isolate does to each place: nothing, or it leaves the place empty or with
    an entry. -/
abbrev Changes := Location Bytes → Option (Option (Entry Bytes Bytes))

/-- The files after such changes. -/
def HostFs.change (fs : HostFs) (changes : Changes) : HostFs :=
  fun loc => (changes loc).getD (fs loc)

/-- A call of isolate. -/
structure Call where
  cmd : Bytes
  /-- The answer of `std::system`. -/
  ret : Int
  /-- The files before the call. -/
  before : HostFs
  /-- The places that had been changed since the box was handed out. -/
  fresh : Location Bytes → Bool
  changes : Changes

namespace Call

/-- The files after the call. -/
def left (call : Call) : HostFs :=
  call.before.change call.changes

/-- What is read from a path after the call. -/
def after (call : Call) (path : Bytes) : Option Bytes :=
  call.left.read path

/-- The call has put the file that the path leads to. -/
def rewrites (call : Call) (path : Bytes) : Bool :=
  match call.left.locate path with
  | some loc =>
    match call.changes loc with
    | some (some (.file _)) => true
    | some (some .directory) | some (some (.link _ _)) | some none | none => false
  | none => false

/-- The places that have been changed up to the end of the call. -/
def freshAfter (call : Call) (loc : Location Bytes) : Bool :=
  (call.changes loc).isSome || call.fresh loc

end Call

structure Box where
  fs : HostFs
  fresh : Location Bytes → Bool
  calls : List Call

namespace Box

/-- A box with the given files, as it is handed out. -/
def start (fs : HostFs) : Box :=
  { fs, fresh := fun _ => false, calls := [] }

def put (b : Box) (loc : Location Bytes) (entry : Entry Bytes Bytes) : Box :=
  { b with
    fs := b.fs.put loc entry
    fresh := fun l => l == loc || b.fresh l }

/-- The call that a box records. -/
def call (b : Box) (cmd : Bytes) (ret : Int) (changes : Changes) : Call :=
  { cmd, ret, before := b.fs, fresh := b.fresh, changes }

def invoke (b : Box) (cmd : Bytes) (ret : Int) (changes : Changes) : Box :=
  { fs := (b.call cmd ret changes).left
    fresh := (b.call cmd ret changes).freshAfter
    calls := b.calls ++ [b.call cmd ret changes] }

@[simp] theorem put_calls (b : Box) (loc : Location Bytes) (entry : Entry Bytes Bytes) :
    (b.put loc entry).calls = b.calls := rfl

@[simp] theorem invoke_calls (b : Box) (cmd : Bytes) (ret : Int) (changes : Changes) :
    (b.invoke cmd ret changes).calls = b.calls ++ [b.call cmd ret changes] := rfl

/-! ## The world -/

/-- The operations that look at the files of a box or change them. -/
def isFile : Op → Bool
  | .ofstream _ _ | .ifstream _ _ | .mkdir _ | .system _ => true
  | _ => false

/-- The answers of a box to one operation. Writing and `mkdir` may fail for other reasons
    than the files. -/
inductive world : World Op.Res Box where
  | refused {b : Box} {path content : Bytes} : world b ⟨.ofstream path content, .refused⟩ b
  | truncated {b : Box} {path content part : Bytes} {loc : Location Bytes}
      (hloc : b.fs.writable path = some loc) (h : part <+: content) :
      world b ⟨.ofstream path content, .truncated⟩ (b.put loc (.file part))
  | complete {b : Box} {path content : Bytes} {loc : Location Bytes}
      (hloc : b.fs.writable path = some loc) :
      world b ⟨.ofstream path content, .complete⟩ (b.put loc (.file content))
  | read {b : Box} {path : Bytes} {mode : OpenMode} :
      world b ⟨.ifstream path mode, b.fs.read path⟩ b
  | created {b : Box} {path : Bytes} {loc : Location Bytes}
      (hloc : b.fs.entryOf path = some loc) (hnone : b.fs loc = none) :
      world b ⟨.mkdir path, .created⟩ (b.put loc .directory)
  /-- A directory that is there counts as made. -/
  | found {b : Box} {path : Bytes} {loc : Location Bytes}
      (hloc : b.fs.entryOf path = some loc) (hdir : b.fs loc = some .directory) :
      world b ⟨.mkdir path, .exists⟩ (b.put loc .directory)
  | notCreated {b : Box} {path : Bytes} {r : MkdirResult} (hr : r ≠ .created) :
      world b ⟨.mkdir path, r⟩ b
  | called {b : Box} {cmd : Bytes} {ret : Int} {changes : Changes} :
      world b ⟨.system cmd, ret⟩ (b.invoke cmd ret changes)
  | other {b : Box} {e : Event Op.Res} (h : isFile e.op = false) : world b e b

/-! ## Isolates that compute -/

/-- What stands in the directory of a box. -/
abbrev Contents := Location Bytes → Option (Entry Bytes Bytes)

def contents (fs : HostFs) (boxId : Int) : Contents :=
  fun loc => fs (boxDir boxId ++ loc)

/-- An isolate that computes its answers: from the command line and the contents of the box,
    the answer of `std::system` and what changes in the box. -/
abbrev Isolate := Bytes → Contents → Int × Changes

/-- Changes in the directory of a box, as changes of the host. The directory itself stays. -/
def within (boxId : Int) (changes : Changes) : Changes := fun loc =>
  if boxDir boxId <+: loc ∧ loc ≠ boxDir boxId then changes (loc.drop (boxDir boxId).length)
  else none

/-- The changes of an isolate that writes the files of these names. -/
def writes (files : List (Bytes × Bytes)) : Changes
  | [name] => (files.lookup name).map fun content => some (.file content)
  | _ => none

/-- A host with an empty box and nothing else. -/
def emptyBox (boxId : Int) : HostFs := fun loc =>
  if loc <+: boxDir boxId then some .directory else none

/-- What else than the files decides on the worker's own writes. -/
structure Disk where
  ofstream : Bytes → Bytes → Written := fun _ _ => .complete
  /-- The number of bytes that a truncated write brings to the file. -/
  part : Bytes → Bytes → Nat := fun _ _ => 0
  /-- A directory can be made. -/
  mkdir : Bytes → Bool := fun _ => true

/-- A write to a file that can be opened. -/
def store (disk : Disk) (b : Box) (loc : Location Bytes) (path content : Bytes) : Written × Box :=
  match disk.ofstream path content with
  | .refused => (.refused, b)
  | .truncated => (.truncated, b.put loc (.file (content.take (disk.part path content))))
  | .complete => (.complete, b.put loc (.file content))

/-- A directory is made where nothing stands. -/
def makeDir (b : Box) (loc : Location Bytes) : MkdirResult × Box :=
  match b.fs loc with
  | none => (.created, b.put loc .directory)
  | some .directory => (.exists, b.put loc .directory)
  | some (.file _) | some (.link _ _) => (.exists, b)

/-- A host whose box `boxId` is served by such an isolate. -/
def host (disk : Disk) (iso : Isolate) (boxId : Int) : Handler Op.Res Box := fun op b =>
  match op with
  | .acquire => (boxId, b)
  | .ofstream path content => (b.fs.writable path).elim (.refused, b) fun loc =>
    store disk b loc path content
  | .ifstream path _ => (b.fs.read path, b)
  | .mkdir path =>
    if disk.mkdir path then (b.fs.entryOf path).elim (.failed, b) b.makeDir else (.failed, b)
  | .system cmd =>
    let answer := iso cmd (contents b.fs boxId)
    (answer.1, b.invoke cmd answer.1 (within boxId answer.2))
  | op => ((Host.fixed (fun _ => none) op ()).1, b)

variable {disk : Disk} {iso : Isolate} {boxId : Int}

theorem host_world (op : Op) (b : Box) :
    world b ⟨op, (host disk iso boxId op b).1⟩ (host disk iso boxId op b).2 := by
  cases op with
  | ofstream path content =>
    cases hloc : b.fs.writable path with
    | none =>
      simp only [host, hloc, Option.elim_none]
      exact .refused
    | some loc =>
      simp only [host, hloc, Option.elim_some, store]
      cases disk.ofstream path content with
      | refused => exact .refused
      | truncated => exact .truncated hloc (List.take_prefix ..)
      | complete => exact .complete hloc
  | mkdir path =>
    cases hpermitted : disk.mkdir path with
    | false =>
      simp only [host, hpermitted, Bool.false_eq_true, if_false]
      exact .notCreated (by decide)
    | true =>
      cases hloc : b.fs.entryOf path with
      | none =>
        simp only [host, hpermitted, hloc, if_true, Option.elim_none]
        exact .notCreated (by decide)
      | some loc =>
        simp only [host, hpermitted, hloc, if_true, Option.elim_some]
        unfold makeDir
        split
        · next hnone => exact .created hloc hnone
        · next hdir => exact .found hloc hdir
        · exact .notCreated (by simp)
        · exact .notCreated (by simp)
  | ifstream path mode => exact .read
  | system cmd => exact .called
  | acquire | release | mysqlInit | mysqlRealConnect | mysqlPing | basicAck | basicNack =>
    exact .other rfl
  | mysqlQuery => exact .other rfl

/-! ## Paths through a box -/

variable {b b' : Box}

@[simp] theorem world_ifstream {path : Bytes} {mode : OpenMode} {content : Option Bytes} :
    world b ⟨.ifstream path mode, content⟩ b' ↔ content = b.fs.read path ∧ b' = b := by
  refine ⟨fun h => ?_, fun ⟨hcontent, hb⟩ => ?_⟩
  · cases h with
    | read => exact ⟨rfl, rfl⟩
    | other hop => cases hop
  · subst hcontent hb
    exact .read

theorem world_system {cmd : Bytes} {ret : Int} (h : world b ⟨.system cmd, ret⟩ b') :
    ∃ changes, b' = b.invoke cmd ret changes := by
  cases h with
  | called => exact ⟨_, rfl⟩
  | other hop => cases hop

/-- An operation other than a call of isolate adds no call. -/
theorem world_calls {e : Event Op.Res} (h : world b e b') (he : ∀ cmd, e.op ≠ .system cmd) :
    b'.calls = b.calls := by
  cases h with
  | called => exact absurd rfl (he _)
  | refused | truncated | complete | read | created | found | notCreated | other => rfl

theorem path_calls {tr : Trace Op.Res} (h : world.Path b tr b')
    (htr : ∀ e ∈ tr, ∀ cmd, e.op ≠ .system cmd) : b'.calls = b.calls := by
  induction h with
  | nil => rfl
  | cons hstep _ ih =>
    have hfirst := world_calls hstep (htr _ (List.mem_cons_self ..))
    rw [ih fun e he => htr e (List.mem_cons_of_mem _ he), hfirst]

/-- A place that has been changed stays so, for the calls too. -/
structure Grown (b b' : Box) : Prop where
  fresh : ∀ loc, b.fresh loc = true → b'.fresh loc = true
  calls : ∃ calls, b'.calls = b.calls ++ calls ∧
    ∀ call ∈ calls, ∀ loc, b.fresh loc = true → call.fresh loc = true

theorem Grown.refl (b : Box) : Grown b b :=
  ⟨fun _ h => h, [], (List.append_nil _).symm, by simp⟩

theorem Grown.trans {b₁ b₂ b₃ : Box} (h : Grown b₁ b₂) (h' : Grown b₂ b₃) : Grown b₁ b₃ := by
  obtain ⟨calls, hcalls, hfresh⟩ := h.calls
  obtain ⟨calls', hcalls', hfresh'⟩ := h'.calls
  refine ⟨fun loc hloc => h'.fresh loc (h.fresh loc hloc), calls ++ calls', ?_, ?_⟩
  · rw [hcalls', hcalls, List.append_assoc]
  · intro call hcall loc hloc
    rcases List.mem_append.mp hcall with hold | hnew
    · exact hfresh call hold loc hloc
    · exact hfresh' call hnew loc (h.fresh loc hloc)

theorem grown_put (b : Box) (loc : Location Bytes) (entry : Entry Bytes Bytes) :
    Grown b (b.put loc entry) :=
  ⟨fun l hl => by simp [put, hl], [], (List.append_nil _).symm, by simp⟩

theorem grown_of_world {e : Event Op.Res} (h : world b e b') : Grown b b' := by
  cases h with
  | truncated | complete | created | found => exact grown_put ..
  | @called _ cmd ret changes =>
    refine ⟨fun loc hloc => ?_, [b.call cmd ret changes], rfl, ?_⟩
    · simp [invoke, Call.freshAfter, call, hloc]
    · simp [call]
  | refused | read | notCreated | other => exact .refl b

theorem grown_of_path {tr : Trace Op.Res} (h : world.Path b tr b') : Grown b b' := by
  induction h with
  | nil => exact .refl _
  | cons hstep _ ih => exact (grown_of_world hstep).trans ih

end Box
