-- SUMMARY: `SandboxResult` and `parse_meta`: what the judge reads off isolate's meta file, and when reading it throws.
import FlowStudyJudge.Text.Numeral

/-! # The meta file

isolate writes one `key:value` record per line. `parse_meta` folds the records,
in file order, over a `SandboxResult` that starts from its default values. A key
that it does not know, or a line without colon, is skipped. -/

structure SandboxResult where
  exitCode : Int := 0
  signalNum : Int := 0
  timeUsedMs : Int := 0
  memoryUsedKb : Int := 0
  stdoutOutput : Bytes := []
  stderrOutput : Bytes := []
  timedOut : Bool := false
  /-- The raw status of the meta file. -/
  status : Bytes := []
  deriving DecidableEq

/-- The keys that `parse_meta` knows. -/
inductive MetaKey where
  | time
  | timeWall
  | maxRss
  | cgMem
  | exitcode
  | status
  | exitsig
  | killed
  | other
  deriving DecidableEq, Repr

/-- The chain of comparisons in the loop of `parse_meta`. -/
def MetaKey.ofBytes (key : Bytes) : MetaKey :=
  if key = "time" then .time
  else if key = "time-wall" then .timeWall
  else if key = "max-rss" then .maxRss
  else if key = "cg-mem" then .cgMem
  else if key = "exitcode" then .exitcode
  else if key = "status" then .status
  else if key = "exitsig" then .exitsig
  else if key = "killed" then .killed
  else .other

namespace Sandbox

def colon : UInt8 := 58

/-- `static_cast<int>(std::stod(val) * 1000)` -/
def milliseconds (val : Bytes) : Except StdException Int :=
  (Bytes.stod val).map fun x => (x.mulNat 1000).toInt

/-- What one record does to the result. -/
def applyRecord (result : SandboxResult) (key : MetaKey) (val : Bytes) :
    Except StdException SandboxResult :=
  match key with
  | .time => (milliseconds val).map fun ms => { result with timeUsedMs := ms }
  | .timeWall => (milliseconds val).map fun wallMs =>
      if wallMs > result.timeUsedMs then { result with timeUsedMs := wallMs } else result
  | .maxRss => (Bytes.stoi val).map fun kb => { result with memoryUsedKb := kb }
  | .cgMem => (Bytes.stoi val).map fun kb => { result with memoryUsedKb := kb }
  | .exitcode => (Bytes.stoi val).map fun code => { result with exitCode := code }
  | .status => .ok { result with status := val }
  | .exitsig => (Bytes.stoi val).map fun sig => { result with signalNum := sig }
  | .killed => .ok { result with timedOut := true }
  | .other => .ok result

def applyRecords (result : SandboxResult) : List (MetaKey × Bytes) →
    Except StdException SandboxResult
  | [] => .ok result
  | (key, val) :: rest =>
    match applyRecord result key val with
    | .ok result => applyRecords result rest
    | .error x => .error x

/-- The records of a meta file: its lines with a colon, split there. -/
def records (content : Bytes) : List (MetaKey × Bytes) :=
  (Bytes.getlines content).filterMap fun line =>
    (Bytes.splitAtFirst colon line).map fun r => (MetaKey.ofBytes r.1, r.2)

/-- `parse_meta` on the content of the file at `metaPath`, `none` when it cannot
    be opened. -/
def parseMeta (metaPath : Bytes) : Option Bytes → Except StdException SandboxResult
  | none => .ok { exitCode := -1, stderrOutput := "Cannot read meta file: " ++ metaPath,
                  status := "XX" }
  | some content => applyRecords {} (records content)

/-! ## When it throws -/

/-- The record's value converts, or its key calls for no conversion. -/
def recordConvertible : MetaKey → Bytes → Bool
  | .time, val | .timeWall, val => (Bytes.stod val).toBool
  | .maxRss, val | .cgMem, val | .exitcode, val | .exitsig, val => (Bytes.stoi val).toBool
  | .status, _ | .killed, _ | .other, _ => true

/-- Every numeric record of the file holds a number in range. -/
def metaConvertible (content : Bytes) : Bool :=
  (records content).all fun r => recordConvertible r.1 r.2

theorem toBool_map {ε α β : Type} (e : Except ε α) (f : α → β) :
    (e.map f).toBool = e.toBool := by
  cases e <;> rfl

theorem applyRecord_toBool (result : SandboxResult) (key : MetaKey) (val : Bytes) :
    (applyRecord result key val).toBool = recordConvertible key val := by
  cases key with
  | status | killed | other => rfl
  | time | timeWall | maxRss | cgMem | exitcode | exitsig =>
    simp only [applyRecord, recordConvertible, milliseconds, toBool_map]

theorem applyRecords_toBool (result : SandboxResult) (rs : List (MetaKey × Bytes)) :
    (applyRecords result rs).toBool = rs.all fun r => recordConvertible r.1 r.2 := by
  induction rs generalizing result with
  | nil => rfl
  | cons r rs ih =>
    have hr := applyRecord_toBool result r.1 r.2
    rw [List.all_cons, ← hr]
    unfold applyRecords
    cases h : applyRecord result r.1 r.2 with
    | ok result' => simpa [Except.toBool] using ih result'
    | error x => rfl

/-- `parse_meta` throws exactly on the files with a numeric record that does not
    convert. -/
theorem parseMeta_toBool (metaPath content : Bytes) :
    (parseMeta metaPath (some content)).toBool = metaConvertible content :=
  applyRecords_toBool {} (records content)

/-! ## Fields of the result -/

/-- The values of the records with a given key, in file order. -/
def recordValues (key : MetaKey) (rs : List (MetaKey × Bytes)) : List Bytes :=
  rs.filterMap fun r => if r.1 = key then some r.2 else none

/-- A field that only one kind of record sets has the value of the last such
    record, and its old value when there is none. -/
theorem applyRecords_field {γ : Type} (field : SandboxResult → γ) (key : MetaKey)
    (value : Bytes → γ)
    (hset : ∀ {result result' val}, applyRecord result key val = .ok result' →
      field result' = value val)
    (hframe : ∀ {result result' k val}, k ≠ key → applyRecord result k val = .ok result' →
      field result' = field result)
    {result result' : SandboxResult} {rs : List (MetaKey × Bytes)}
    (h : applyRecords result rs = .ok result') :
    field result' = ((recordValues key rs).getLast?.map value).getD (field result) := by
  induction rs generalizing result with
  | nil =>
    cases h
    rfl
  | cons r rs ih =>
    unfold applyRecords at h
    split at h
    case h_2 => cases h
    rename_i result₁ hr
    rw [ih h]
    by_cases hk : r.1 = key
    · have hvals : recordValues key (r :: rs) = r.2 :: recordValues key rs := by
        simp [recordValues, hk]
      rw [hvals, hset (by rw [← hk]; exact hr)]
      cases hlast : (recordValues key rs).getLast? <;>
        simp [List.getLast?_cons, hlast]
    · have hvals : recordValues key (r :: rs) = recordValues key rs := by
        simp [recordValues, hk]
      rw [hvals, hframe hk hr]

/-- The value of a conversion that succeeded. -/
def stoiValue (val : Bytes) : Int :=
  match Bytes.stoi val with
  | .ok n => n
  | .error _ => 0

theorem map_ok {ε α β : Type} {e : Except ε α} {f : α → β} {b : β} (h : e.map f = .ok b) :
    ∃ a, e = .ok a ∧ b = f a := by
  cases e with
  | ok a => exact ⟨a, rfl, (Except.ok.inj h).symm⟩
  | error x => cases h

/-- What a record does, as one statement: it changes the fields of its key only. -/
theorem applyRecord_frame {result result' : SandboxResult} {key : MetaKey} {val : Bytes}
    (h : applyRecord result key val = .ok result') :
    result' = { result with
      exitCode := if key = .exitcode then stoiValue val else result.exitCode
      signalNum := if key = .exitsig then stoiValue val else result.signalNum
      timeUsedMs := result'.timeUsedMs
      memoryUsedKb := result'.memoryUsedKb
      timedOut := if key = .killed then true else result.timedOut
      status := if key = .status then val else result.status } := by
  cases key with
  | time | maxRss | cgMem | exitcode | exitsig =>
    simp only [applyRecord] at h
    obtain ⟨a, ha, rfl⟩ := map_ok h
    simp [stoiValue, ha]
  | timeWall =>
    simp only [applyRecord] at h
    obtain ⟨a, ha, rfl⟩ := map_ok h
    split <;> simp
  | status | killed | other =>
    simp only [applyRecord, Except.ok.injEq] at h
    subst h
    simp

theorem parseMeta_exitCode {metaPath content : Bytes} {result : SandboxResult}
    (h : parseMeta metaPath (some content) = .ok result) :
    result.exitCode =
      ((recordValues .exitcode (records content)).getLast?.map stoiValue).getD 0 := by
  refine applyRecords_field (·.exitCode) .exitcode stoiValue ?_ ?_ h
  · intro result result' val hr
    rw [applyRecord_frame hr]
    simp
  · intro result result' k val hk hr
    rw [applyRecord_frame hr]
    simp [hk]

end Sandbox
