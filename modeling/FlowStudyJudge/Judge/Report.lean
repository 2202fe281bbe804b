-- SUMMARY: What isolate reports of a command, as it writes it to the meta file, and that `parse_meta` reads it back.
import FlowStudyJudge.Text.Thousandths
import FlowStudyJudge.Judge.RecordOrder

/-! # Reports

The documentation shows a meta file: times in seconds with three decimals, then the memory,
lines that the judge does not know, and how the command ended. -/

namespace Sandbox

/-- A number that an `int` holds. -/
abbrev Count := {n : Nat // (n : Int) ≤ Bytes.intMax}

/-- A text of one line. -/
abbrev Line := {text : Bytes // Bytes.newline ∉ text}

/-- A record that `parse_meta` skips. -/
structure OtherRecord where
  key : Line
  value : Line
  unknown : MetaKey.ofBytes key = .other
  plain : colon ∉ key.val

structure Report where
  timeMs : Count
  wallMs : Count
  maxRssKb : Count
  others : List OtherRecord := []
  cgMemKb : Option Count := none
  exitCode : Option Count := none
  exitSig : Option Count := none
  killed : Bool := false
  status : Option Line := none

namespace Report

def optional {α : Type} (key : Bytes) (text : α → Bytes) (value : Option α) : List (Bytes × Bytes) :=
  value.toList.map fun a => (key, text a)

def counted (n : Count) : Bytes :=
  Bytes.ofNat n

def usage (r : Report) : List (Bytes × Bytes) :=
  [("time", Bytes.thousandths r.timeMs), ("time-wall", Bytes.thousandths r.wallMs),
    ("max-rss", counted r.maxRssKb)]

def kill (r : Report) : List (Bytes × Bytes) :=
  if r.killed then [("killed", "1")] else []

/-- The records, in the order of the lines. -/
def fields (r : Report) : List (Bytes × Bytes) :=
  r.usage ++ r.others.map (fun o => (o.key.val, o.value.val)) ++
  optional "cg-mem" counted r.cgMemKb ++
  optional "exitcode" counted r.exitCode ++
  optional "exitsig" counted r.exitSig ++
  r.kill ++
  optional "status" Subtype.val r.status

/-- The meta file. -/
def toBytes (r : Report) : Bytes :=
  Bytes.unlines (r.fields.map fun f => f.1 ++ colon :: f.2)

/-! ## The lines -/

/-- A record whose line can be told apart from the others, and split again. -/
def Writable (f : Bytes × Bytes) : Prop :=
  colon ∉ f.1 ∧ Bytes.newline ∉ f.1 ∧ Bytes.newline ∉ f.2

theorem records_unlines {fs : List (Bytes × Bytes)} (h : ∀ f ∈ fs, Writable f) :
    records (Bytes.unlines (fs.map fun f => f.1 ++ colon :: f.2)) =
      fs.map fun f => (MetaKey.ofBytes f.1, f.2) := by
  have hcolon : Bytes.newline ≠ colon := by decide
  have hlines : Bytes.getlines (Bytes.unlines (fs.map fun f => f.1 ++ colon :: f.2)) =
      fs.map fun f => f.1 ++ colon :: f.2 := by
    refine Bytes.getlines_unlines fun line hline => ?_
    obtain ⟨f, hf, rfl⟩ := List.mem_map.mp hline
    obtain ⟨-, hkey, hvalue⟩ := h f hf
    simp [hkey, hvalue, hcolon]
  rw [records, hlines, List.filterMap_map, ← List.filterMap_eq_map]
  refine List.filterMap_congr fun f hf => ?_
  simp only [Function.comp_apply, Bytes.splitAtFirst_append (h f hf).1, Option.map_some]

theorem newline_not_mem_ofNat (n : Nat) : Bytes.newline ∉ Bytes.ofNat n := by
  intro hmem
  have hdigit := Bytes.isDigit_of_mem_ofNat hmem
  revert hdigit
  decide

theorem newline_not_mem_thousandths (n : Nat) : Bytes.newline ∉ Bytes.thousandths n := by
  have hdigit : ∀ d, Bytes.newline ≠ Bytes.digit d := by
    intro d heq
    have hnot := (Bytes.digit_spec d).1
    rw [← heq] at hnot
    revert hnot
    decide
  have hdot : Bytes.newline ≠ '.'.toUInt8 := by decide
  simp [Bytes.thousandths, newline_not_mem_ofNat, hdigit, hdot]

theorem mem_optional {α : Type} {key : Bytes} {text : α → Bytes} {value : Option α}
    {f : Bytes × Bytes} :
    f ∈ optional key text value ↔ ∃ a, value = some a ∧ f = (key, text a) := by
  cases value <;> simp [optional]

/-! What holds of every kind of record holds of the records of a report. -/

theorem forall_fields {P : Bytes × Bytes → Prop} (r : Report)
    (htime : ∀ n : Count, P ("time", Bytes.thousandths n))
    (hwall : ∀ n : Count, P ("time-wall", Bytes.thousandths n))
    (hcount : ∀ (n : Count), ∀ key ∈ (["max-rss", "cg-mem", "exitcode", "exitsig"] : List Bytes),
      P (key, counted n))
    (hother : ∀ o : OtherRecord, P (o.key.val, o.value.val))
    (hkilled : P ("killed", "1")) (hstatus : ∀ status : Line, P ("status", status.val)) :
    ∀ f ∈ r.fields, P f := by
  intro f hf
  simp only [fields, usage, List.mem_append, mem_optional, List.mem_map, List.mem_cons,
    List.not_mem_nil, or_false] at hf
  rcases hf with (((((((rfl | rfl | rfl) | ⟨o, -, rfl⟩) | ⟨n, -, rfl⟩) | ⟨n, -, rfl⟩) |
    ⟨n, -, rfl⟩) | hf) | ⟨status, -, rfl⟩)
  · exact htime _
  · exact hwall _
  · exact hcount _ _ (by simp)
  · exact hother o
  · exact hcount _ _ (by simp)
  · exact hcount _ _ (by simp)
  · exact hcount _ _ (by simp)
  · unfold kill at hf
    split at hf
    · rw [List.mem_singleton.mp hf]
      exact hkilled
    · cases hf
  · exact hstatus status

theorem writable_of_key {key value : Bytes} (hvalue : Bytes.newline ∉ value)
    (hkey : key ∈ (["time", "time-wall", "max-rss", "cg-mem", "exitcode", "exitsig", "killed",
      "status"] : List Bytes)) : Writable (key, value) := by
  have hplain : ∀ key ∈ (["time", "time-wall", "max-rss", "cg-mem", "exitcode", "exitsig",
      "killed", "status"] : List Bytes), colon ∉ key ∧ Bytes.newline ∉ key := by decide
  exact ⟨(hplain key hkey).1, (hplain key hkey).2, hvalue⟩

theorem fields_writable (r : Report) : ∀ f ∈ r.fields, Writable f := by
  refine forall_fields r ?_ ?_ ?_ ?_ ?_ ?_
  · exact fun n => writable_of_key (newline_not_mem_thousandths n) (by decide)
  · exact fun n => writable_of_key (newline_not_mem_thousandths n) (by decide)
  · intro n key hkey
    refine writable_of_key (newline_not_mem_ofNat n) ?_
    revert key
    decide
  · exact fun o => ⟨o.plain, o.key.2, o.value.2⟩
  · exact writable_of_key (by decide) (by decide)
  · exact fun status => writable_of_key status.2 (by decide)

/-! ## Reading -/

theorem fields_convertible (r : Report) :
    ∀ f ∈ r.fields, recordConvertible (MetaKey.ofBytes f.1) f.2 = true := by
  have hseconds : ∀ n : Count, (Bytes.stod (Bytes.thousandths n)).toBool = true := by
    intro n
    obtain ⟨x, hx, -⟩ := Bytes.stod_thousandths_mul n.2
    rw [hx]
    rfl
  have hnumber : ∀ n : Count, (Bytes.stoi (counted n)).toBool = true := by
    intro n
    rw [counted, Bytes.stoi_ofNat n.2]
    rfl
  refine forall_fields r ?_ ?_ ?_ ?_ ?_ ?_
  · exact hseconds
  · exact hseconds
  · intro n key hkey
    simp only [List.mem_cons, List.not_mem_nil, or_false] at hkey
    rcases hkey with rfl | rfl | rfl | rfl <;> exact hnumber n
  · intro o
    simp only [o.unknown, recordConvertible]
  · rfl
  · exact fun _ => rfl

theorem stoiValue_counted (n : Count) : stoiValue (counted n) = n := by
  rw [stoiValue, counted, Bytes.stoi_ofNat n.2]

/-- Times lose a millisecond at most. -/
theorem millisecondsValue_thousandths (n : Count) :
    ∃ k : Nat, millisecondsValue (Bytes.thousandths n) = k ∧ k ≤ n.val ∧ n.val ≤ k + 1 := by
  obtain ⟨x, hx, k, hk, hbounds⟩ := Bytes.stod_thousandths_mul n.2
  refine ⟨k, ?_, hbounds⟩
  simp only [millisecondsValue, milliseconds, hx, Except.map]
  exact hk

/-- What a list of fields makes of a result. -/
def applied (fs : List (Bytes × Bytes)) (result : SandboxResult) : SandboxResult :=
  (fs.map fun f => (MetaKey.ofBytes f.1, f.2)).foldl withRecord result

@[simp] theorem applied_append (fs fs' : List (Bytes × Bytes)) (result : SandboxResult) :
    applied (fs ++ fs') result = applied fs' (applied fs result) := by
  simp [applied]

/-- A field that may be missing does what its record does, or nothing. -/
theorem applied_optional {α : Type} (key : Bytes) (text : α → Bytes) (value : Option α)
    (result : SandboxResult) : applied (optional key text value) result =
      (value.map fun a => withRecord result (MetaKey.ofBytes key, text a)).getD result := by
  cases value <;> rfl

theorem applied_others (others : List OtherRecord) (result : SandboxResult) :
    applied (others.map fun o => (o.key.val, o.value.val)) result = result := by
  induction others with
  | nil => rfl
  | cons o others ih =>
    have hskip : withRecord result (MetaKey.ofBytes o.key, o.value.val) = result := by
      simp [withRecord, timeAfter, memoryAfter, o.unknown]
    simp only [applied, List.map_cons, List.foldl_cons, hskip]
    exact ih

theorem applied_cgMem (value : Option Count) (result : SandboxResult) :
    applied (optional "cg-mem" counted value) result =
      { result with
        memoryUsedKb := (value.map fun n => (n.val : Int)).getD result.memoryUsedKb } := by
  have hkey : MetaKey.ofBytes "cg-mem" = .cgMem := rfl
  cases value <;>
    simp [applied_optional, hkey, withRecord, timeAfter, memoryAfter, stoiValue_counted]

theorem applied_exitCode (value : Option Count) (result : SandboxResult) :
    applied (optional "exitcode" counted value) result =
      { result with exitCode := (value.map fun n => (n.val : Int)).getD result.exitCode } := by
  have hkey : MetaKey.ofBytes "exitcode" = .exitcode := rfl
  cases value <;>
    simp [applied_optional, hkey, withRecord, timeAfter, memoryAfter, stoiValue_counted]

theorem applied_exitSig (value : Option Count) (result : SandboxResult) :
    applied (optional "exitsig" counted value) result =
      { result with signalNum := (value.map fun n => (n.val : Int)).getD result.signalNum } := by
  have hkey : MetaKey.ofBytes "exitsig" = .exitsig := rfl
  cases value <;>
    simp [applied_optional, hkey, withRecord, timeAfter, memoryAfter, stoiValue_counted]

theorem applied_status (value : Option Line) (result : SandboxResult) :
    applied (optional "status" Subtype.val value) result =
      { result with status := (value.map Subtype.val).getD result.status } := by
  have hkey : MetaKey.ofBytes "status" = .status := rfl
  cases value <;> simp [applied_optional, hkey, withRecord, timeAfter, memoryAfter]

theorem applied_kill (r : Report) (result : SandboxResult) :
    applied r.kill result = { result with timedOut := r.killed || result.timedOut } := by
  have hkey : MetaKey.ofBytes "killed" = .killed := rfl
  cases hkilled : r.killed <;>
    simp [applied, kill, hkilled, hkey, withRecord, timeAfter, memoryAfter]

end Report

/-- What `parse_meta` makes of a report: every number as it was, the larger of the two times
    less a millisecond at most, and the memory of the control group before that of the
    process. -/
theorem parseMeta_report (r : Report) (metaPath : Bytes) : ∃ timeMs : Nat,
    timeMs ≤ max r.timeMs.val r.wallMs.val ∧ max r.timeMs.val r.wallMs.val ≤ timeMs + 1 ∧
    parseMeta metaPath (some r.toBytes) = .ok
      { exitCode := (r.exitCode.map fun n => (n.val : Int)).getD 0
        signalNum := (r.exitSig.map fun n => (n.val : Int)).getD 0
        timeUsedMs := timeMs
        memoryUsedKb := (r.cgMemKb.getD r.maxRssKb).val
        timedOut := r.killed
        status := (r.status.map Subtype.val).getD [] } := by
  obtain ⟨k, htime, hk⟩ := Report.millisecondsValue_thousandths r.timeMs
  obtain ⟨l, hwall, hl⟩ := Report.millisecondsValue_thousandths r.wallMs
  refine ⟨max k l, by omega, by omega, ?_⟩
  have hconvertible : ∀ x ∈ r.fields.map (fun f => (MetaKey.ofBytes f.1, f.2)),
      recordConvertible x.1 x.2 = true := by
    intro x hx
    obtain ⟨f, hf, rfl⟩ := List.mem_map.mp hx
    exact r.fields_convertible f hf
  have husage : Report.applied r.usage {} =
      { timeUsedMs := (max k l : Nat), memoryUsedKb := r.maxRssKb.val } := by
    have hkeys : Report.applied r.usage {} = withRecord (withRecord (withRecord {}
        (.time, Bytes.thousandths r.timeMs)) (.timeWall, Bytes.thousandths r.wallMs))
          (.maxRss, Report.counted r.maxRssKb) := rfl
    rw [hkeys]
    simp [withRecord, timeAfter, memoryAfter, htime, hwall, Report.stoiValue_counted]
  have hfields : parseMeta metaPath (some r.toBytes) = .ok (Report.applied r.fields {}) := by
    simp only [parseMeta, Report.toBytes, Report.records_unlines r.fields_writable]
    exact applyRecords_eq hconvertible _
  have hmemory : (r.cgMemKb.map fun n => (n.val : Int)).getD r.maxRssKb.val =
      (r.cgMemKb.getD r.maxRssKb).val := by
    cases r.cgMemKb <;> rfl
  rw [hfields]
  simp only [Report.fields, Report.applied_append, husage, Report.applied_others,
    Report.applied_cgMem, Report.applied_exitCode, Report.applied_exitSig, Report.applied_kill,
    Report.applied_status, hmemory, Bool.or_false]

end Sandbox
