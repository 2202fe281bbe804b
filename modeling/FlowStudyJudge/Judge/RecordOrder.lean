-- SUMMARY: The records of a meta file in another order: when `parse_meta` returns the same result for all of them.
import FlowStudyJudge.Judge.Meta
import FlowStudyJudge.Text.Lines

/-! # The order of records

Each record sets the fields of its key, so records of different fields can change
places. Two keys set the time and two set the memory. -/

namespace Sandbox

/-- The same lines in any order. -/
def Reordered (content content' : Bytes) : Prop :=
  (Bytes.getlines content').Perm (Bytes.getlines content)

/-- Each of the known keys has one record at most. -/
def DistinctKeys (content : Bytes) : Prop :=
  ∀ key, key ≠ .other → (recordValues key (records content)).length ≤ 1

/-- The result is the same for every order of the lines, and the time is the larger of
    the two. -/
structure OrderFree (content : Bytes) : Prop where
  same : ∀ metaPath content', Reordered content content' →
    parseMeta metaPath (some content') = parseMeta metaPath (some content)
  time : ∀ metaPath content' result, Reordered content content' →
    parseMeta metaPath (some content') = .ok result →
    ∀ time ∈ recordValues .time (records content),
      ∀ timeWall ∈ recordValues .timeWall (records content), ∀ ms wallMs,
        milliseconds time = .ok ms → milliseconds timeWall = .ok wallMs →
        result.timeUsedMs = max ms wallMs

/-- The time is no less than the wall time, and the two memory records agree, as far as
    the file has both. -/
structure NoConflict (content : Bytes) : Prop where
  time : ∀ time ∈ recordValues .time (records content),
    ∀ timeWall ∈ recordValues .timeWall (records content), ∀ ms wallMs,
      milliseconds time = .ok ms → milliseconds timeWall = .ok wallMs → wallMs ≤ ms
  memory : ∀ maxRss ∈ recordValues .maxRss (records content),
    ∀ cgMem ∈ recordValues .cgMem (records content), ∀ kb cgKb,
      Bytes.stoi maxRss = .ok kb → Bytes.stoi cgMem = .ok cgKb → kb = cgKb

/-! ## One record -/

/-- The value of a conversion that succeeded. -/
def millisecondsValue (val : Bytes) : Int :=
  match milliseconds val with
  | .ok ms => ms
  | .error _ => 0

def timeAfter (key : MetaKey) (val : Bytes) (timeUsedMs : Int) : Int :=
  match key with
  | .time => millisecondsValue val
  | .timeWall => max timeUsedMs (millisecondsValue val)
  | _ => timeUsedMs

def memoryAfter (key : MetaKey) (val : Bytes) (memoryUsedKb : Int) : Int :=
  match key with
  | .maxRss | .cgMem => stoiValue val
  | _ => memoryUsedKb

/-- What a record makes of a result, if its value converts. -/
def withRecord (result : SandboxResult) (r : MetaKey × Bytes) : SandboxResult :=
  { result with
    exitCode := if r.1 = .exitcode then stoiValue r.2 else result.exitCode
    signalNum := if r.1 = .exitsig then stoiValue r.2 else result.signalNum
    timeUsedMs := timeAfter r.1 r.2 result.timeUsedMs
    memoryUsedKb := memoryAfter r.1 r.2 result.memoryUsedKb
    timedOut := if r.1 = .killed then true else result.timedOut
    status := if r.1 = .status then r.2 else result.status }

theorem stoi_eq_ok {val : Bytes} (h : (Bytes.stoi val).toBool = true) :
    Bytes.stoi val = .ok (stoiValue val) := by
  unfold stoiValue
  cases hval : Bytes.stoi val with
  | ok n => rfl
  | error x =>
    rw [hval] at h
    cases h

theorem milliseconds_eq_ok {val : Bytes} (h : (Bytes.stod val).toBool = true) :
    milliseconds val = .ok (millisecondsValue val) := by
  unfold millisecondsValue milliseconds
  cases hval : Bytes.stod val with
  | ok x => rfl
  | error x =>
    rw [hval] at h
    cases h

theorem applyRecord_eq {r : MetaKey × Bytes} (h : recordConvertible r.1 r.2 = true)
    (result : SandboxResult) : applyRecord result r.1 r.2 = .ok (withRecord result r) := by
  obtain ⟨key, val⟩ := r
  cases key with
  | time =>
    simp only [applyRecord, milliseconds_eq_ok h, Except.map]
    simp [withRecord, timeAfter, memoryAfter]
  | timeWall =>
    have hmax : max result.timeUsedMs (millisecondsValue val) =
        if millisecondsValue val > result.timeUsedMs then millisecondsValue val
          else result.timeUsedMs := by
      split <;> omega
    simp only [applyRecord, milliseconds_eq_ok h, Except.map]
    simp only [withRecord, timeAfter, memoryAfter, hmax]
    split <;> simp
  | maxRss | cgMem | exitcode | exitsig =>
    simp only [applyRecord, stoi_eq_ok h, Except.map]
    simp [withRecord, timeAfter, memoryAfter]
  | status | killed | other =>
    simp [applyRecord, withRecord, timeAfter, memoryAfter]

theorem applyRecords_eq {rs : List (MetaKey × Bytes)}
    (h : ∀ r ∈ rs, recordConvertible r.1 r.2 = true) (result : SandboxResult) :
    applyRecords result rs = .ok (rs.foldl withRecord result) := by
  induction rs generalizing result with
  | nil => rfl
  | cons r rs ih =>
    obtain ⟨hr, hrs⟩ := List.forall_mem_cons.mp h
    simp only [applyRecords, applyRecord_eq hr, List.foldl_cons]
    exact ih hrs _

/-! ## Two records -/

/-- Records of different keys can change places, unless they are in conflict over the
    time or the memory. -/
theorem withRecord_comm {r₁ r₂ : MetaKey × Bytes} (hkey : r₁.1 ≠ r₂.1)
    (htime : ∀ ms, timeAfter r₂.1 r₂.2 (timeAfter r₁.1 r₁.2 ms) =
      timeAfter r₁.1 r₁.2 (timeAfter r₂.1 r₂.2 ms))
    (hmemory : ∀ kb, memoryAfter r₂.1 r₂.2 (memoryAfter r₁.1 r₁.2 kb) =
      memoryAfter r₁.1 r₁.2 (memoryAfter r₂.1 r₂.2 kb)) (result : SandboxResult) :
    withRecord (withRecord result r₁) r₂ = withRecord (withRecord result r₂) r₁ := by
  have hswap : ∀ {γ : Type} (key : MetaKey) (a b c : γ),
      (if r₂.1 = key then a else if r₁.1 = key then b else c) =
        if r₁.1 = key then b else if r₂.1 = key then a else c := by
    intro γ key a b c
    by_cases h₁ : r₁.1 = key
    · have h₂ : r₂.1 ≠ key := fun h₂ => hkey (h₁.trans h₂.symm)
      rw [if_neg h₂, if_pos h₁, if_pos h₁]
    · rw [if_neg h₁, if_neg h₁]
  unfold withRecord
  rw [htime, hmemory, hswap .exitcode, hswap .exitsig, hswap .killed, hswap .status]

theorem timeAfter_comm {r₁ r₂ : MetaKey × Bytes} (hkey : r₁.1 ≠ r₂.1)
    (h₁₂ : r₁.1 = .time → r₂.1 = .timeWall → millisecondsValue r₂.2 ≤ millisecondsValue r₁.2)
    (h₂₁ : r₂.1 = .time → r₁.1 = .timeWall → millisecondsValue r₁.2 ≤ millisecondsValue r₂.2)
    (ms : Int) : timeAfter r₂.1 r₂.2 (timeAfter r₁.1 r₁.2 ms) =
      timeAfter r₁.1 r₁.2 (timeAfter r₂.1 r₂.2 ms) := by
  obtain ⟨key₁, val₁⟩ := r₁
  obtain ⟨key₂, val₂⟩ := r₂
  cases key₁ with
  | time =>
    cases key₂ with
    | time => exact absurd rfl hkey
    | timeWall => exact max_eq_left (h₁₂ rfl rfl)
    | _ => rfl
  | timeWall =>
    cases key₂ with
    | time => exact (max_eq_left (h₂₁ rfl rfl)).symm
    | timeWall => exact absurd rfl hkey
    | _ => rfl
  | _ => rfl

theorem memoryAfter_comm {r₁ r₂ : MetaKey × Bytes} (hkey : r₁.1 ≠ r₂.1)
    (h₁₂ : r₁.1 = .maxRss → r₂.1 = .cgMem → stoiValue r₁.2 = stoiValue r₂.2)
    (h₂₁ : r₂.1 = .maxRss → r₁.1 = .cgMem → stoiValue r₂.2 = stoiValue r₁.2)
    (kb : Int) : memoryAfter r₂.1 r₂.2 (memoryAfter r₁.1 r₁.2 kb) =
      memoryAfter r₁.1 r₁.2 (memoryAfter r₂.1 r₂.2 kb) := by
  obtain ⟨key₁, val₁⟩ := r₁
  obtain ⟨key₂, val₂⟩ := r₂
  cases key₁ with
  | maxRss =>
    cases key₂ with
    | maxRss => exact absurd rfl hkey
    | cgMem => exact (h₁₂ rfl rfl).symm
    | _ => rfl
  | cgMem =>
    cases key₂ with
    | maxRss => exact h₂₁ rfl rfl
    | cgMem => exact absurd rfl hkey
    | _ => rfl
  | _ => rfl

/-! ## All records -/

variable {content content' : Bytes}

theorem mem_recordValues {key : MetaKey} {val : Bytes} {rs : List (MetaKey × Bytes)} :
    val ∈ recordValues key rs ↔ (key, val) ∈ rs := by
  simp only [recordValues, List.mem_filterMap, Option.ite_none_right_eq_some, Option.some.injEq]
  constructor
  · intro h
    obtain ⟨r, hr, rfl, rfl⟩ := h
    exact hr
  · intro h
    exact ⟨_, h, rfl, rfl⟩

/-- Two records of the same known key are the same record. -/
theorem DistinctKeys.unique (h : DistinctKeys content) {r₁ r₂ : MetaKey × Bytes}
    (hr₁ : r₁ ∈ records content) (hr₂ : r₂ ∈ records content) (hkey : r₁.1 = r₂.1)
    (hother : r₁.1 ≠ .other) : r₁ = r₂ := by
  have hval₁ : r₁.2 ∈ recordValues r₁.1 (records content) := mem_recordValues.mpr hr₁
  have hval₂ : r₂.2 ∈ recordValues r₁.1 (records content) :=
    mem_recordValues.mpr (hkey ▸ hr₂)
  have hval : r₁.2 = r₂.2 := by
    have hlength := h r₁.1 hother
    cases hvals : recordValues r₁.1 (records content) with
    | nil =>
      rw [hvals] at hval₁
      cases hval₁
    | cons val rest =>
      rw [hvals] at hlength hval₁ hval₂
      have hrest : rest = [] :=
        List.length_eq_zero_iff.mp (Nat.le_zero.mp (Nat.le_of_succ_le_succ hlength))
      subst hrest
      exact (List.mem_singleton.mp hval₁).trans (List.mem_singleton.mp hval₂).symm
  exact Prod.ext hkey hval

theorem Reordered.records (h : Reordered content content') :
    (records content').Perm (records content) :=
  h.filterMap _

theorem convertible_of_mem (h : metaConvertible content = true) :
    ∀ r ∈ records content, recordConvertible r.1 r.2 = true :=
  List.all_eq_true.mp h

theorem Reordered.parseMeta_eq (h : Reordered content content')
    (hconvertible : metaConvertible content = true) (metaPath : Bytes) :
    parseMeta metaPath (some content') = .ok ((Sandbox.records content').foldl withRecord {}) :=
  applyRecords_eq (fun r hr => convertible_of_mem hconvertible r (h.records.mem_iff.mp hr)) {}

/-- Without a conflict, all records of a file can change places. -/
theorem NoConflict.comm (h : NoConflict content) (hdistinct : DistinctKeys content)
    (hconvertible : metaConvertible content = true) {r₁ r₂ : MetaKey × Bytes}
    (hr₁ : r₁ ∈ records content) (hr₂ : r₂ ∈ records content) (result : SandboxResult) :
    withRecord (withRecord result r₁) r₂ = withRecord (withRecord result r₂) r₁ := by
  by_cases hkey : r₁.1 = r₂.1
  · by_cases hother : r₁.1 = .other
    · have hother₂ : r₂.1 = .other := hkey.symm.trans hother
      simp [withRecord, hother, hother₂, timeAfter, memoryAfter]
    · have hsame := hdistinct.unique hr₁ hr₂ hkey hother
      rw [hsame]
  · have htime : ∀ {r r' : MetaKey × Bytes}, r ∈ records content → r' ∈ records content →
        r.1 = .time → r'.1 = .timeWall → millisecondsValue r'.2 ≤ millisecondsValue r.2 := by
      intro r r' hr hr' htime hwall
      have hms := convertible_of_mem hconvertible r hr
      have hwallMs := convertible_of_mem hconvertible r' hr'
      rw [htime] at hms
      rw [hwall] at hwallMs
      exact h.time r.2 (mem_recordValues.mpr (htime ▸ hr)) r'.2
        (mem_recordValues.mpr (hwall ▸ hr')) _ _ (milliseconds_eq_ok hms)
        (milliseconds_eq_ok hwallMs)
    have hmemory : ∀ {r r' : MetaKey × Bytes}, r ∈ records content → r' ∈ records content →
        r.1 = .maxRss → r'.1 = .cgMem → stoiValue r.2 = stoiValue r'.2 := by
      intro r r' hr hr' hrss hcg
      have hkb := convertible_of_mem hconvertible r hr
      have hcgKb := convertible_of_mem hconvertible r' hr'
      rw [hrss] at hkb
      rw [hcg] at hcgKb
      exact h.memory r.2 (mem_recordValues.mpr (hrss ▸ hr)) r'.2
        (mem_recordValues.mpr (hcg ▸ hr')) _ _ (stoi_eq_ok hkb) (stoi_eq_ok hcgKb)
    exact withRecord_comm hkey (timeAfter_comm hkey (htime hr₁ hr₂) (htime hr₂ hr₁))
      (memoryAfter_comm hkey (hmemory hr₁ hr₂) (hmemory hr₂ hr₁)) result

/-- Every record comes last in some order. -/
theorem exists_reordered_last {r : MetaKey × Bytes} (h : r ∈ records content) :
    ∃ content' rs, Reordered content content' ∧ records content' = rs ++ [r] := by
  obtain ⟨line, hline, hrecord⟩ := List.mem_filterMap.mp h
  have hperm : ((Bytes.getlines content).erase line ++ [line]).Perm (Bytes.getlines content) :=
    (List.perm_append_singleton _ _).trans (List.perm_cons_erase hline).symm
  have hlines : Bytes.getlines (Bytes.unlines ((Bytes.getlines content).erase line ++ [line])) =
      (Bytes.getlines content).erase line ++ [line] := by
    refine Bytes.getlines_unlines fun l hl => ?_
    exact Bytes.newline_not_mem_getlines content l (hperm.mem_iff.mp hl)
  have hreordered : Reordered content
      (Bytes.unlines ((Bytes.getlines content).erase line ++ [line])) := by
    unfold Reordered
    rw [hlines]
    exact hperm
  refine ⟨_, ((Bytes.getlines content).erase line).filterMap fun l =>
    (Bytes.splitAtFirst colon l).map fun r => (MetaKey.ofBytes r.1, r.2), hreordered, ?_⟩
  unfold records
  rw [hlines, List.filterMap_append, List.filterMap_cons, hrecord]
  rfl

/-- The last record has the last word on the fields of its key. -/
theorem exists_parseMeta_last (hconvertible : metaConvertible content = true)
    {r : MetaKey × Bytes} (h : r ∈ records content) (metaPath : Bytes) :
    ∃ content' result, Reordered content content' ∧
      parseMeta metaPath (some content') = .ok (withRecord result r) := by
  obtain ⟨content', rs, hreordered, hrecords⟩ := exists_reordered_last h
  refine ⟨content', rs.foldl withRecord {}, hreordered, ?_⟩
  rw [hreordered.parseMeta_eq hconvertible, hrecords, List.foldl_append]
  rfl

/-- Records that conflict show in the order in which one or the other comes last. -/
theorem OrderFree.noConflict {content : Bytes} (hconvertible : metaConvertible content = true)
    (hfree : OrderFree content) : NoConflict content where
  time := by
    intro time htime timeWall hwall ms wallMs hms hwallMs
    obtain ⟨content', result, hreordered, hparse⟩ :=
      exists_parseMeta_last hconvertible (mem_recordValues.mp htime) []
    have hmax := hfree.time [] content' _ hreordered hparse time htime timeWall hwall ms wallMs
      hms hwallMs
    have htimeUsed : (withRecord result (.time, time)).timeUsedMs = ms := by
      simp [withRecord, timeAfter, millisecondsValue, hms]
    rw [htimeUsed] at hmax
    exact max_eq_left_iff.mp hmax.symm
  memory := by
    intro maxRss hrss cgMem hcg kb cgKb hkb hcgKb
    obtain ⟨content₁, result₁, hreordered₁, hparse₁⟩ :=
      exists_parseMeta_last hconvertible (mem_recordValues.mp hrss) []
    obtain ⟨content₂, result₂, hreordered₂, hparse₂⟩ :=
      exists_parseMeta_last hconvertible (mem_recordValues.mp hcg) []
    have hsame : withRecord result₁ (.maxRss, maxRss) = withRecord result₂ (.cgMem, cgMem) := by
      have hparse := (hfree.same [] content₁ hreordered₁).trans
        (hfree.same [] content₂ hreordered₂).symm
      rw [hparse₁, hparse₂] at hparse
      exact Except.ok.inj hparse
    have hmemory := congrArg SandboxResult.memoryUsedKb hsame
    simpa [withRecord, memoryAfter, stoiValue, hkb, hcgKb] using hmemory

/-- Without a conflict any two records may change places. -/
theorem NoConflict.foldl_eq {content content' : Bytes} (hdistinct : DistinctKeys content)
    (hconvertible : metaConvertible content = true) (hconflict : NoConflict content)
    (hreordered : Reordered content content') :
    (records content').foldl withRecord {} = (records content).foldl withRecord {} := by
  refine (List.Perm.foldl_eq' hreordered.records.symm ?_ _).symm
  intro r₁ hr₁ r₂ hr₂ result
  exact hconflict.comm hdistinct hconvertible hr₁ hr₂ result

theorem NoConflict.orderFree {content : Bytes} (hdistinct : DistinctKeys content)
    (hconvertible : metaConvertible content = true) (hconflict : NoConflict content) :
    OrderFree content where
  same := by
    intro metaPath content' hreordered
    have hrefl : Reordered content content := .refl _
    rw [hreordered.parseMeta_eq hconvertible, hrefl.parseMeta_eq hconvertible,
      hconflict.foldl_eq hdistinct hconvertible hreordered]
  time := by
    intro metaPath content' result hreordered hparse time htime timeWall hwall ms wallMs hms
      hwallMs
    obtain ⟨last, result', hlast, hparseLast⟩ :=
      exists_parseMeta_last hconvertible (mem_recordValues.mp htime) metaPath
    rw [hreordered.parseMeta_eq hconvertible,
      hconflict.foldl_eq hdistinct hconvertible hreordered] at hparse
    rw [hlast.parseMeta_eq hconvertible,
      hconflict.foldl_eq hdistinct hconvertible hlast] at hparseLast
    have hresult : result = withRecord result' (.time, time) :=
      Except.ok.inj (hparse.symm.trans hparseLast)
    have htimeUsed : (withRecord result' (.time, time)).timeUsedMs = ms := by
      simp [withRecord, timeAfter, millisecondsValue, hms]
    rw [hresult, htimeUsed]
    exact (max_eq_left (hconflict.time time htime timeWall hwall ms wallMs hms hwallMs)).symm

/-- `parse_meta` is independent of the order of the records on the files without a
    conflict between two keys that write the same field. -/
theorem parseMeta_orderFree_iff {content : Bytes} (hdistinct : DistinctKeys content)
    (hconvertible : metaConvertible content = true) : OrderFree content ↔ NoConflict content := by
  constructor
  · exact fun hfree => hfree.noConflict hconvertible
  · exact fun hconflict => hconflict.orderFree hdistinct hconvertible

/-- A program on two cores that has used more time than has passed. -/
def parallelMeta : Bytes :=
  "time:0.300\ntime-wall:0.273\nmax-rss:75876\ncsw-forced:7\nexitcode:0\n"

theorem parallelMeta_records : records parallelMeta =
    ([(.time, "0.300"), (.timeWall, "0.273"), (.maxRss, "75876"), (.other, "7"),
      (.exitcode, "0")] : List (MetaKey × Bytes)) := by
  decide +kernel

theorem parseMeta_orderFree_iff_parallel : OrderFree parallelMeta := by
  have hdistinct : DistinctKeys parallelMeta := by
    intro key hkey
    rw [parallelMeta_records]
    cases key with
    | other => exact absurd rfl hkey
    | _ => decide
  have hconvertible : metaConvertible parallelMeta = true := by
    rw [metaConvertible, parallelMeta_records]
    decide +kernel
  refine (parseMeta_orderFree_iff hdistinct hconvertible).mpr ⟨?_, ?_⟩
  · have hms : milliseconds "0.300" = .ok 300 := by decide +kernel
    have hwallMs : milliseconds "0.273" = .ok 273 := by decide +kernel
    simp [parallelMeta_records, recordValues, hms, hwallMs]
  · simp [parallelMeta_records, recordValues]

/-- The records of a run, in two orders. -/
def timeFirst : Bytes :=
  "time:0.269\ntime-wall:0.273\n"

def wallFirst : Bytes :=
  "time-wall:0.273\ntime:0.269\n"

theorem timeFirst_records :
    records timeFirst = ([(.time, "0.269"), (.timeWall, "0.273")] : List (MetaKey × Bytes)) := by
  decide +kernel

theorem wallFirst_records :
    records wallFirst = ([(.timeWall, "0.273"), (.time, "0.269")] : List (MetaKey × Bytes)) := by
  decide +kernel

/-- The wall time is lost when the time comes behind it. -/
theorem not_always_orderFree :
    ¬ ∀ content, DistinctKeys content → metaConvertible content = true → OrderFree content := by
  intro h
  have hdistinct : DistinctKeys timeFirst := by
    intro key hkey
    rw [timeFirst_records]
    cases key with
    | other => exact absurd rfl hkey
    | _ => decide
  have hconvertible : metaConvertible timeFirst = true := by
    rw [metaConvertible, timeFirst_records]
    decide +kernel
  have hreordered : Reordered timeFirst wallFirst := by
    unfold Reordered
    decide +kernel
  have hsame := (h timeFirst hdistinct hconvertible).same [] wallFirst hreordered
  have hwall : parseMeta [] (some wallFirst) = .ok { timeUsedMs := 269 } := by
    rw [parseMeta, wallFirst_records]
    decide +kernel
  have htime : parseMeta [] (some timeFirst) = .ok { timeUsedMs := 273 } := by
    rw [parseMeta, timeFirst_records]
    decide +kernel
  rw [hwall, htime] at hsame
  exact absurd hsame (by decide)

end Sandbox
