-- SUMMARY: The case indices of a result: which test cases of a message make two of them collide.
import FlowStudyJudge.Judge.Consistency
import FlowStudyJudge.Judge.Format
import Mathlib.Data.List.Nodup

/-! # Case indices

A test case without a positive `case_index` is numbered by its position, once while it is
parsed and once more while it is judged. Neither place looks at the indices that the other
test cases bring along. -/

namespace JudgeEngine

open Json

/-! ## What a message says -/

/-- The positive index that an element of `testcases` gives, as `get<int>` converts it. -/
def explicitIndex (tc : Json) : Option Int :=
  match (tc.lookup "case_index").map getInt with
  | some (.ok n) => if 0 < n then some n else none
  | _ => none

/-- The elements do not get in each other's way. Positions count from 1. -/
structure Separate (xs : List Json) : Prop where
  explicit : ∀ (k l : Nat) (tc tc' : Json) (n : Int), xs[k]? = some tc → xs[l]? = some tc' →
    explicitIndex tc = some n → explicitIndex tc' = some n → k = l
  /-- An explicit index is no position of an element without one. -/
  position : ∀ (k l : Nat) (tc tc' : Json), xs[k]? = some tc → xs[l]? = some tc' →
    explicitIndex tc = some (l + 1 : Int) → explicitIndex tc' ≠ none

/-- The case results can be told apart by their indices. -/
structure Identified (result : JudgeResultInternal) : Prop where
  positive : ∀ case_ ∈ result.caseResults, 0 < case_.caseIndex
  nodup : (result.caseResults.map (·.caseIndex)).Nodup

/-- The index that `judge` gives test case number `i`. -/
def assignedIndex (i : Nat) (tc : TestCase) : Int :=
  if tc.caseIndex > 0 then tc.caseIndex else castInt i + 1

/-- The indices of test cases that start at number `i`. -/
def assignedIndices (i : Nat) : List TestCase → List Int
  | [] => []
  | tc :: rest => assignedIndex i tc :: assignedIndices (i + 1) rest

theorem assignedIndices_getElem? (i : Nat) (tcs : List TestCase) (k : Nat) :
    (assignedIndices i tcs)[k]? = tcs[k]?.map (assignedIndex (i + k)) := by
  induction tcs generalizing i k with
  | nil => rfl
  | cons tc rest ih =>
    cases k with
    | zero => rfl
    | succ k =>
      have hindex : i + 1 + k = i + (k + 1) := by omega
      have hrest := ih (i + 1) k
      rw [hindex] at hrest
      exact hrest

/-- The two fallbacks agree: parsing and judging count the same position. -/
theorem ReadsCase.assignedIndex_eq {size : Nat} {tc : Json} {t : TestCase}
    (h : ReadsCase size tc t) :
    assignedIndex size t = (explicitIndex tc).getD (castInt size + 1) := by
  rcases (value_eq_ok.mp h.caseIndex).2 with ⟨v, hlookup, hget⟩ | ⟨hlookup, hdefault⟩
  · have hexplicit : explicitIndex tc = if 0 < t.caseIndex then some t.caseIndex else none := by
      simp only [explicitIndex, hlookup, Option.map_some, hget]
    rw [hexplicit]
    unfold assignedIndex
    split
    · exact Option.getD_some.symm
    · exact Option.getD_none.symm
  · have hexplicit : explicitIndex tc = none := by
      simp only [explicitIndex, hlookup, Option.map_none]
    rw [hexplicit, Option.getD_none]
    unfold assignedIndex
    split
    · exact hdefault.symm
    · rfl

/-! ## The indices of a result -/

theorem Looped.caseIndices {sandbox : Sandbox} {submission : SubmissionMessage} {i : Nat}
    {p : Progress} {testcases : List TestCase} {tr : Trace Op.Res} {result : JudgeResultInternal}
    (h : Looped sandbox submission i p testcases tr (.ok result)) :
    ∃ indices, indices <+: assignedIndices i testcases ∧
      result.caseResults.map (·.caseIndex) = p.caseResults.map (·.caseIndex) ++ indices := by
  generalize hout : (Except.ok result : Except Abort JudgeResultInternal) = out at h
  induction h with
  | finished =>
    cases hout
    exact ⟨[], List.nil_prefix, (List.append_nil _).symm⟩
  | thrown hrun => cases hout
  | @stopped i p tc rest tr runResult verdict hrun hverdict hstop =>
    cases hout
    refine ⟨[assignedIndex i tc], ⟨assignedIndices (i + 1) rest, rfl⟩, ?_⟩
    exact List.map_append
  | @next i p tc rest tr tr' runResult verdict out hrun hverdict haccepted hrest ih =>
    obtain ⟨indices, hindices, hresult⟩ := ih hout
    refine ⟨assignedIndex i tc :: indices, List.cons_prefix_cons.mpr ⟨rfl, hindices⟩, ?_⟩
    have hrecorded :
        (p.record runResult (caseResult i tc runResult verdict)).caseResults.map (·.caseIndex) =
          p.caseResults.map (·.caseIndex) ++ [assignedIndex i tc] := List.map_append
    rw [hresult, hrecorded, List.append_assoc]
    rfl

/-- A result has the indices of the first test cases. -/
theorem judge_caseIndices {cfg : IsolateConfig} {submission : SubmissionMessage}
    {tr : Trace Op.Res} {result : JudgeResultInternal}
    (h : (judge cfg submission).Runs tr (.ok result)) :
    result.caseResults.map (·.caseIndex) <+: assignedIndices 0 submission.testcases := by
  cases judge_runs h with
  | compileFailed hcompile hexit => exact List.nil_prefix
  | looped hcompile hexit hloop =>
    obtain ⟨indices, hindices, hresult⟩ := hloop.caseIndices
    rw [hresult]
    exact hindices

/-- In an unknown language no test case is run. -/
theorem judge_unsupported {cfg : IsolateConfig} {submission : SubmissionMessage}
    {tr : Trace Op.Res} {result : JudgeResultInternal}
    (hlang : Sandbox.languageOf submission.language = none)
    (h : (judge cfg submission).Runs tr (.ok result)) : result.caseResults = [] := by
  cases judge_runs h with
  | compileFailed hcompile hexit => rfl
  | looped hcompile hexit hloop =>
    cases hcompile with
    | unsupported => cases hexit
    | noDirs hlang' | notWritten hlang' | executed hlang' =>
      rw [hlang] at hlang'
      cases hlang'

/-! ## A run that accepts everything -/

/-- A host on which every program prints what is asked of it. The state has the output of
    the last command in front of those of the commands to come. -/
def accepting : Handler Op.Res (List Bytes) := fun op outputs =>
  match op with
  | .system _ => ((0 : Int), outputs.tail)
  | .ifstream _ .text => (some "max-rss:-2147483648\n", outputs)
  | .ifstream _ .binary => (some (outputs.headD []), outputs)
  | op => ((Host.fixed (fun _ => none) op ()).1, outputs)

/-- No memory limit of a message is below what `accepting` reports. -/
theorem accepting_meta (path : Bytes) :
    Sandbox.parseMeta path (some "max-rss:-2147483648\n") =
      .ok { memoryUsedKb := Bytes.intMin } := by
  have hrecords : Sandbox.applyRecords {} (Sandbox.records "max-rss:-2147483648\n") =
      .ok { memoryUsedKb := Bytes.intMin } := by decide +kernel
  exact hrecords

theorem execute_accepting (sb : Sandbox) (args : List Bytes) (f : Bytes) (outputs : List Bytes) :
    (sb.execute args f).eval accepting outputs =
      (.ok { memoryUsedKb := Bytes.intMin
             stdoutOutput := outputs.tail.headD []
             stderrOutput := outputs.tail.headD [] }, outputs.tail) := by
  unfold Sandbox.execute Host.system Host.ifstream
  rw [Prog.eval_bind]
  have hret : ¬ (0 : Int) = -1 := by decide
  have hsystem : (Prog.perform (X := Abort) (Op.system (sb.commandLine args f))).eval
      accepting outputs = (.ok (0 : Int), outputs.tail) := rfl
  rw [hsystem]
  simp only [if_neg hret]
  rw [Prog.eval_bind]
  have hmeta : (Prog.perform (X := Abort) (Op.ifstream (sb.path f) .text)).eval accepting
      outputs.tail = (.ok (some "max-rss:-2147483648\n"), outputs.tail) := rfl
  rw [hmeta]
  simp only [accepting_meta]
  rfl

theorem run_accepting {language : Bytes} {lang : Sandbox.Language}
    (hlang : Sandbox.languageOf language = some lang) (sb : Sandbox)
    (timeLimitMs memoryLimitKb : Int) (stdinInput : Bytes) (outputs : List Bytes) :
    (sb.run language timeLimitMs memoryLimitKb stdinInput).eval accepting outputs =
      (.ok { memoryUsedKb := Bytes.intMin
             stdoutOutput := outputs.tail.headD []
             stderrOutput := outputs.tail.headD [] }, outputs.tail) := by
  unfold Sandbox.run
  rw [Prog.eval_bind]
  have hwritten : (sb.writeFile "input.txt" stdinInput).eval accepting outputs =
      (.ok true, outputs) := rfl
  rw [hwritten]
  simp only [hlang, Bool.not_true, Bool.false_eq_true, if_false]
  rw [Prog.eval_bind, execute_accepting]
  rfl

theorem compile_accepting {language : Bytes} {lang : Sandbox.Language}
    (hlang : Sandbox.languageOf language = some lang) (sb : Sandbox) (code : Bytes)
    (outputs : List Bytes) :
    ∃ sb' compileResult, compileResult.exitCode = 0 ∧
      (sb.compile language code).eval accepting outputs =
        (.ok (sb', compileResult), outputs.tail) := by
  generalize hsb' : sb.setMainClass lang code = sb'
  have hdirs : (sb'.makeDirs lang).eval accepting outputs = (.ok none, outputs) := by
    cases lang <;> rfl
  have hwritten : (sb'.writeFile (Sandbox.sourceFile code lang) code).eval accepting outputs =
      (.ok true, outputs) := rfl
  have hcompile : (sb.compile language code).eval accepting outputs =
      (do return (sb', ← sb'.compileSource lang code) : Comp _).eval accepting outputs := by
    unfold Sandbox.compile
    simp only [hlang, hsb']
    rw [Prog.eval_bind, hdirs]
  rw [hcompile, Prog.eval_bind]
  unfold Sandbox.compileSource
  rw [Prog.eval_bind, hwritten]
  simp only [Bool.not_true, Bool.false_eq_true, if_false]
  rw [Prog.eval_bind, execute_accepting]
  simp only
  -- The second look at `error.txt` finds what the first one has found.
  by_cases hstderr : outputs.tail.headD [] = []
  · rw [if_pos hstderr]
    exact ⟨sb', _, rfl, rfl⟩
  · rw [if_neg hstderr]
    exact ⟨sb', _, rfl, rfl⟩

theorem judgeTestcases_accepting {submission : SubmissionMessage} {lang : Sandbox.Language}
    (hlang : Sandbox.languageOf submission.language = some lang)
    (hlimit : Bytes.intMin ≤ submission.memoryLimitKb) (sandbox : Sandbox) (i : Nat)
    (p : Progress) (testcases : List TestCase) (output : Bytes) :
    ∃ result, ((judgeTestcases sandbox submission i p testcases).eval accepting
        (output :: testcases.map (·.expectedOutput))).1 = .ok result ∧
      result.caseResults.map (·.caseIndex) =
        p.caseResults.map (·.caseIndex) ++ assignedIndices i testcases := by
  induction testcases generalizing i p output with
  | nil => exact ⟨_, rfl, (List.append_nil _).symm⟩
  | cons tc rest ih =>
    unfold judgeTestcases
    rw [Prog.eval_bind, run_accepting hlang]
    generalize hrun : ({ memoryUsedKb := Bytes.intMin
                         stdoutOutput := tc.expectedOutput
                         stderrOutput := tc.expectedOutput } : SandboxResult) = runResult
    have hverdict : caseVerdict submission.memoryLimitKb i tc.expectedOutput runResult =
        (.accepted, []) := by
      have hmemory : ¬ Bytes.intMin > submission.memoryLimitKb := Int.not_lt.mpr hlimit
      have hstatus : ¬ ([] : Bytes) = "TO" := by decide
      rw [← hrun]
      simp [caseVerdict, hmemory, hstatus]
    simp only [List.map_cons, List.tail_cons, List.headD_cons, hrun, hverdict, if_true]
    obtain ⟨result, heval, hindices⟩ :=
      ih (i + 1) (p.record runResult (caseResult i tc runResult (.accepted, []))) tc.expectedOutput
    refine ⟨result, heval, ?_⟩
    have hrecorded :
        (p.record runResult (caseResult i tc runResult (.accepted, []))).caseResults.map
          (·.caseIndex) = p.caseResults.map (·.caseIndex) ++ [assignedIndex i tc] :=
      List.map_append
    rw [hindices, hrecorded, List.append_assoc]
    rfl

/-- All test cases of a message in a known language can be accepted. -/
theorem judge_accepting {submission : SubmissionMessage} {lang : Sandbox.Language}
    (hlang : Sandbox.languageOf submission.language = some lang)
    (hlimit : Bytes.intMin ≤ submission.memoryLimitKb) (cfg : IsolateConfig) :
    ∃ tr result, (judge cfg submission).Runs tr (.ok result) ∧
      result.caseResults.map (·.caseIndex) = assignedIndices 0 submission.testcases := by
  generalize hstart : ([] : Bytes) :: [] :: submission.testcases.map (·.expectedOutput) = outputs
  obtain ⟨sb', compileResult, hexit, hcompile⟩ :=
    compile_accepting hlang (Sandbox.make 1 cfg) submission.code outputs
  obtain ⟨result, hresult, hindices⟩ :=
    judgeTestcases_accepting hlang hlimit sb' 0 {} submission.testcases []
  have heval : ((judge cfg submission).eval accepting outputs).1 = .ok result := by
    unfold judge Host.acquire
    rw [Prog.eval_bind]
    have hacquire : (Prog.perform (X := Abort) Op.acquire).eval accepting outputs =
        (.ok (1 : Int), outputs) := rfl
    rw [hacquire]
    simp only
    rw [Prog.eval_bind, hcompile]
    simp only [hexit, ne_eq, not_true_eq_false, if_false]
    rw [← hstart]
    exact hresult
  exact ⟨_, result, Prog.runs_trace_of_eval heval, hindices⟩

/-! ## Elements and indices -/

theorem explicitIndex_pos {tc : Json} {n : Int} (h : explicitIndex tc = some n) : 0 < n := by
  unfold explicitIndex at h
  split at h
  · split at h
    · cases h
      assumption
    · cases h
  · cases h

/-- What identifies an element at position `k`, counted from 0. -/
def numberOf (k : Nat) (tc : Json) : Int :=
  (explicitIndex tc).getD (k + 1)

theorem numberOf_pos (k : Nat) (tc : Json) : 0 < numberOf k tc := by
  unfold numberOf
  cases hexplicit : explicitIndex tc with
  | none =>
    rw [Option.getD_none]
    omega
  | some n => exact explicitIndex_pos hexplicit

/-- Behind a parsed list, an element is known by its explicit index or its position. -/
theorem readTestcases_indices {xs : List Json} {ts : List TestCase}
    (h : readTestcases 0 xs = .ok ts) (hcount : ts.length < 2 ^ 31) (k : Nat) :
    (assignedIndices 0 ts)[k]? = xs[k]?.map (numberOf k) := by
  obtain ⟨hlength, hcases⟩ := readTestcases_getElem h
  rw [assignedIndices_getElem?, Nat.zero_add]
  by_cases hk : k < ts.length
  · have hk' : k < xs.length := hlength ▸ hk
    have ht : ts[k]? = some ts[k] := List.getElem?_eq_getElem hk
    have htc : xs[k]? = some xs[k] := List.getElem?_eq_getElem hk'
    have hreads : ReadsCase (0 + k) xs[k] ts[k] := hcases k _ _ htc ht
    rw [Nat.zero_add] at hreads
    have hindex := hreads.assignedIndex_eq
    rw [castInt_of_lt (Nat.lt_trans hk hcount)] at hindex
    rw [ht, htc, Option.map_some, Option.map_some, hindex, numberOf]
  · have ht : ts[k]? = none := List.getElem?_eq_none (Nat.not_lt.mp hk)
    have htc : xs[k]? = none := List.getElem?_eq_none (hlength ▸ Nat.not_lt.mp hk)
    rw [ht, htc]
    rfl

/-- Separate elements are numbered differently. -/
theorem Separate.numberOf_inj {xs : List Json} (h : Separate xs) {k l : Nat} {tc tc' : Json}
    (htc : xs[k]? = some tc) (htc' : xs[l]? = some tc') (hsame : numberOf k tc = numberOf l tc') :
    k = l := by
  unfold numberOf at hsame
  cases hn : explicitIndex tc with
  | none =>
    cases hn' : explicitIndex tc' with
    | none =>
      rw [hn, hn', Option.getD_none, Option.getD_none] at hsame
      omega
    | some n' =>
      rw [hn, hn', Option.getD_none, Option.getD_some] at hsame
      exact absurd hn (h.position l k tc' tc htc' htc (hn'.trans (congrArg some hsame.symm)))
  | some n =>
    cases hn' : explicitIndex tc' with
    | none =>
      rw [hn, hn', Option.getD_some, Option.getD_none] at hsame
      exact absurd hn' (h.position k l tc tc' htc htc' (hn.trans (congrArg some hsame)))
    | some n' =>
      rw [hn, hn', Option.getD_some, Option.getD_some] at hsame
      exact h.explicit k l tc tc' n htc htc' hn (hn'.trans (congrArg some hsame.symm))

/-- Elements that are numbered differently are separate. -/
theorem Separate.of_inj {xs : List Json} (h : ∀ (k l : Nat) (tc tc' : Json), xs[k]? = some tc →
    xs[l]? = some tc' → numberOf k tc = numberOf l tc' → k = l) : Separate xs where
  explicit := by
    intro k l tc tc' n htc htc' hn hn'
    refine h k l tc tc' htc htc' ?_
    rw [numberOf, numberOf, hn, hn', Option.getD_some, Option.getD_some]
  position := by
    intro k l tc tc' htc htc' hn hnone
    have hsame : k = l := by
      refine h k l tc tc' htc htc' ?_
      rw [numberOf, numberOf, hn, hnone, Option.getD_some, Option.getD_none]
    subst hsame
    cases htc.symm.trans htc'
    cases hn.symm.trans hnone

section

variable {xs : List Json} {indices : List Int}

theorem indices_pos (h : ∀ k : Nat, indices[k]? = xs[k]?.map (numberOf k)) {n : Int}
    (hmem : n ∈ indices) : 0 < n := by
  obtain ⟨k, hk⟩ := List.mem_iff_getElem?.mp hmem
  rw [h k] at hk
  obtain ⟨tc, -, rfl⟩ := Option.map_eq_some_iff.mp hk
  exact numberOf_pos k tc

/-- The numbers of a list are distinct when no explicit index meets another one or a
    position in use. -/
theorem indices_nodup_iff (h : ∀ k : Nat, indices[k]? = xs[k]?.map (numberOf k)) :
    indices.Nodup ↔ Separate xs := by
  have hsome : ∀ {k : Nat} {tc : Json}, xs[k]? = some tc →
      indices[k]? = some (numberOf k tc) := by
    intro k tc htc
    rw [h k, htc, Option.map_some]
  constructor
  · intro hnodup
    refine .of_inj ?_
    intro k l tc tc' htc htc' hsame
    have hk : k < indices.length := (List.getElem?_eq_some_iff.mp (hsome htc)).1
    refine (List.getElem?_inj hk hnodup).mp ?_
    rw [hsome htc, hsome htc', hsame]
  · intro hseparate
    refine List.nodup_iff_getElem?_ne_getElem?.mpr ?_
    intro k l hkl hl hsame
    have hget := List.getElem?_eq_getElem hl
    rw [h l] at hget
    obtain ⟨tc', htc', -⟩ := Option.map_eq_some_iff.mp hget
    rw [hsome htc', h k] at hsame
    obtain ⟨tc, htc, hnumber⟩ := Option.map_eq_some_iff.mp hsame
    exact Nat.ne_of_lt hkl (hseparate.numberOf_inj htc htc' hnumber)

end

theorem Reads.memoryLimitKb_ge {j : Json} {msg : SubmissionMessage} (h : Reads j msg) :
    Bytes.intMin ≤ msg.memoryLimitKb := by
  rcases (value_eq_ok.mp h.memoryLimitKb).2 with ⟨v, -, hget⟩ | ⟨-, hdefault⟩
  · exact (getInt_bounds hget).1
  · rw [← hdefault]
    decide

/-! ## Messages -/

/-- The case results of a message can always be told apart if its explicit indices are
    distinct and none of them is the position of a test case without one; else they
    cannot, unless the language is unknown and nothing is run. -/
theorem judge_identified_iff {parse : Bytes → Option Json} {jsonStr : Bytes} {j v : Json}
    {msg : SubmissionMessage} (hparse : parse jsonStr = some j)
    (htestcases : j.lookup "testcases" = some v) (hmsg : parseMessage parse jsonStr = some msg)
    (hcount : msg.testcases.length < 2 ^ 31) :
    (∀ cfg tr result, (judge cfg msg).Runs tr (.ok result) → Identified result) ↔
      Sandbox.languageOf msg.language = none ∨ Separate v.elements := by
  obtain ⟨j', hj, hreads⟩ := parseMessage_eq_some.mp hmsg
  cases hparse.symm.trans hj
  obtain ⟨v', hv, hts⟩ := hreads.testcases
  cases htestcases.symm.trans hv
  have hindices := readTestcases_indices hts hcount
  constructor
  · intro h
    cases hlang : Sandbox.languageOf msg.language with
    | none => exact .inl rfl
    | some lang =>
      obtain ⟨tr, result, hruns, hresult⟩ := judge_accepting hlang hreads.memoryLimitKb_ge {}
      have hnodup := (h {} tr result hruns).nodup
      rw [hresult] at hnodup
      exact .inr ((indices_nodup_iff hindices).mp hnodup)
  · intro h cfg tr result hruns
    rcases h with hlang | hseparate
    · have hnone := judge_unsupported hlang hruns
      refine ⟨?_, ?_⟩
      · intro case_ hmem
        rw [hnone] at hmem
        cases hmem
      · rw [hnone]
        exact .nil
    · have hfirst := judge_caseIndices hruns
      refine ⟨?_, ?_⟩
      · intro case_ hmem
        exact indices_pos hindices (hfirst.subset (List.mem_map_of_mem hmem))
      · exact hfirst.sublist.nodup ((indices_nodup_iff hindices).mpr hseparate)

/-- The text of a submission whose first test case has the index `n`, and whose second one
    has none. -/
def mixedBody (n : Int) : Bytes :=
  "\x7b\"submission_id\":7,\"problem_id\":3,\"language\":\"python\",\"code\":\"print(1)\",\"testcases\":[\x7b\"case_index\":" ++
    Bytes.ofInt n ++
    ",\"input\":\"\",\"expected_output\":\"1\"\x7d,\x7b\"input\":\"\",\"expected_output\":\"1\"\x7d]\x7d"

def mixedCases (n : Int) : List Json :=
  [.object [("case_index", .integer n), ("input", .string ""), ("expected_output", .string "1")],
    .object [("input", .string ""), ("expected_output", .string "1")]]

/-- The value of that text. -/
def mixedJson (n : Int) : Json :=
  .object
    [("submission_id", .integer 7), ("problem_id", .integer 3), ("language", .string "python"),
      ("code", .string "print(1)"), ("testcases", .array (mixedCases n))]

def mixedParse (n : Int) (jsonStr : Bytes) : Option Json :=
  if jsonStr = mixedBody n then some (mixedJson n) else none

def mixedMessage (n : Int) : SubmissionMessage :=
  { sampleMessage with
    testcases := [{ caseIndex := n, input := "", expectedOutput := "1" },
      { caseIndex := 2, input := "", expectedOutput := "1" }] }

theorem mixedCases_getElem? {n : Int} {k : Nat} {tc : Json} (h : (mixedCases n)[k]? = some tc) :
    k = 0 ∨ k = 1 ∧ explicitIndex tc = none := by
  match k with
  | 0 => exact .inl rfl
  | 1 =>
    cases h
    exact .inr ⟨rfl, rfl⟩
  | k + 2 => cases h

theorem mixedCases_explicit {n : Int} {k l : Nat} {tc tc' : Json} {m : Int}
    (htc : (mixedCases n)[k]? = some tc) (htc' : (mixedCases n)[l]? = some tc')
    (hm : explicitIndex tc = some m) (hm' : explicitIndex tc' = some m) : k = l := by
  rcases mixedCases_getElem? htc with hk | ⟨-, hnone⟩
  · rcases mixedCases_getElem? htc' with hl | ⟨-, hnone⟩
    · exact hk.trans hl.symm
    · cases hm'.symm.trans hnone
  · cases hm.symm.trans hnone

/-- With the index 5 in front, the second test case can keep its position. -/
theorem judge_identified_iff_five :
    Separate (mixedCases 5) ∧ ∀ cfg tr result,
      (judge cfg (mixedMessage 5)).Runs tr (.ok result) → Identified result := by
  have hread : readMessage (mixedJson 5) = .ok (mixedMessage 5) := by decide +kernel
  have hparse : mixedParse 5 (mixedBody 5) = some (mixedJson 5) := if_pos rfl
  have hseparate : Separate (mixedCases 5) := by
    refine ⟨fun k l tc tc' n => mixedCases_explicit, ?_⟩
    intro k l tc tc' htc htc' hn hnone
    have hl : l < (mixedCases 5).length := (List.getElem?_eq_some_iff.mp htc').1
    have hlength : (mixedCases 5).length = 2 := rfl
    rcases mixedCases_getElem? htc with hk | ⟨-, hnone'⟩
    · subst hk
      cases htc
      have hfive : (5 : Int) = l + 1 := Option.some.inj hn
      omega
    · cases hn.symm.trans hnone'
  have hiff := judge_identified_iff hparse (show (mixedJson 5).lookup "testcases" =
      some (.array (mixedCases 5)) from rfl)
    (parseMessage_of_some hparse hread) (by decide)
  exact ⟨hseparate, hiff.mpr (.inr hseparate)⟩

/-- The second of these test cases gets the index 2 that the first one has. -/
theorem not_always_identified :
    ¬ ∀ (parse : Bytes → Option Json) (jsonStr : Bytes) (j v : Json) (msg : SubmissionMessage),
      parse jsonStr = some j → j.lookup "testcases" = some v →
      parseMessage parse jsonStr = some msg → msg.testcases.length < 2 ^ 31 →
      (∀ (k l : Nat) (tc tc' : Json) (n : Int), v.elements[k]? = some tc →
        v.elements[l]? = some tc' → explicitIndex tc = some n → explicitIndex tc' = some n →
        k = l) →
      ∀ cfg tr result, (judge cfg msg).Runs tr (.ok result) → Identified result := by
  intro h
  have hread : readMessage (mixedJson 2) = .ok (mixedMessage 2) := by decide +kernel
  have hparse : mixedParse 2 (mixedBody 2) = some (mixedJson 2) := if_pos rfl
  have hlang : Sandbox.languageOf (mixedMessage 2).language = some .python := by decide +kernel
  obtain ⟨tr, result, hruns, hindices⟩ := judge_accepting hlang (by decide) {}
  have hidentified := h (mixedParse 2) (mixedBody 2) (mixedJson 2) (.array (mixedCases 2))
    (mixedMessage 2) hparse rfl (parseMessage_of_some hparse hread) (by decide)
    (fun k l tc tc' n => mixedCases_explicit) {} tr result hruns
  have hnodup := hidentified.nodup
  rw [hindices] at hnodup
  exact absurd hnodup (by decide)

end JudgeEngine
