-- SUMMARY: What the tables are for: the last result of each submission and run, and how often each problem was solved.
import FlowStudyJudge.Db.Redelivery

/-! # The scoreboard -/

/-- It is an accepted submission of the problem. -/
def JudgeResult.solves (problem : UInt64) (r : JudgeResult) : Bool :=
  r.status = "ACCEPTED" ∧ r.problemId ≠ 0 ∧ r.problemId = problem

/-- A stored result. -/
inductive Posting where
  | submission (r : JudgeResult)
  | run (r : JudgeResult)

namespace Posting

/-- The transaction that stores it. -/
def stmts : Posting → List Stmt
  | .submission r => r.submissionStmts
  | .run r => r.codeRunStmts

def asSubmission : Posting → Option JudgeResult
  | .submission r => some r
  | .run _ => none

def asRun : Posting → Option JudgeResult
  | .submission _ => none
  | .run r => some r

theorem asSubmission_eq_some {p : Posting} {r : JudgeResult} :
    p.asSubmission = some r ↔ p = .submission r := by
  cases p <;> simp [asSubmission]

theorem asRun_eq_some {p : Posting} {r : JudgeResult} : p.asRun = some r ↔ p = .run r := by
  cases p <;> simp [asRun]

end Posting

/-- The last result posted for each id, and how often each problem was solved. -/
structure Scoreboard where
  submissions : UInt64 → Option JudgeResult := fun _ => none
  runs : UInt64 → Option JudgeResult := fun _ => none
  solved : UInt64 → Nat := fun _ => 0

namespace Scoreboard

def post (b : Scoreboard) : Posting → Scoreboard
  | .submission r =>
    { b with
      submissions := Function.update b.submissions r.submissionId (some r)
      solved := fun problem =>
        if r.solves problem then b.solved problem + 1 else b.solved problem }
  | .run r => { b with runs := Function.update b.runs r.runId (some r) }

def postAll (postings : List Posting) : Scoreboard :=
  postings.foldl post {}

end Scoreboard

/-- The columns of the row of a run that an update sets, `updated_at` apart. -/
def Db.runVerdictOf (db : Db) (id : UInt64) : Option RunVerdict :=
  (db.fsCodeRun id).map (·.verdict)

theorem CodeRunStored.runVerdictOf_eq {r : JudgeResult} {db db' : Db}
    (h : CodeRunStored r db db') :
    db'.runVerdictOf r.runId = (db.runVerdictOf r.runId).map fun _ => r.runVerdict := by
  unfold Db.runVerdictOf
  rw [h.row.row, Option.map_map]
  rfl

/-- The tables hold what the board shows, on top of what they held at first. An id without
    a row never gets one. -/
structure Shows (initial : Db) (b : Scoreboard) (db : Db) : Prop where
  verdict : ∀ id, db.verdictOf id =
    (b.submissions id).elim (initial.verdictOf id) fun r =>
      (initial.verdictOf id).map fun _ => r.submissionVerdict
  cases : ∀ id, db.rowsOf .fsJudgeCaseResult id =
    (b.submissions id).elim (initial.rowsOf .fsJudgeCaseResult id) fun r =>
      r.caseResults.map (JudgeResult.caseRow id)
  runVerdict : ∀ id, db.runVerdictOf id =
    (b.runs id).elim (initial.runVerdictOf id) fun r =>
      (initial.runVerdictOf id).map fun _ => r.runVerdict
  runCases : ∀ id, db.rowsOf .fsCodeRunCaseResult id =
    (b.runs id).elim (initial.rowsOf .fsCodeRunCaseResult id) fun r =>
      r.caseResults.map (JudgeResult.caseRow id)
  solved : ∀ problem, db.fsProblem problem =
    (initial.fsProblem problem).map fun count => count + (b.solved problem : Int)

namespace Shows

variable {initial db : Db} {b : Scoreboard} {ss : List (Nat × Stmt)}

theorem start (initial : Db) : Shows initial {} initial where
  verdict _ := rfl
  cases _ := rfl
  runVerdict _ := rfl
  runCases _ := rfl
  solved problem := by
    cases initial.fsProblem problem <;> simp

/-- A row that was updated any number of times still stands where there was one at first. -/
theorem map_last {V : Type} {current first : Option V} {posted : Option JudgeResult}
    {f : JudgeResult → V} (h : current = posted.elim first fun r => first.map fun _ => f r) (v : V) :
    (current.map fun _ => v) = first.map fun _ => v := by
  subst h
  cases posted <;> cases first <;> rfl

theorem postSubmission {r : JudgeResult} (h : Shows initial b db)
    (hss : ss.map (·.2) = r.submissionStmts) :
    Shows initial (b.post (.submission r)) (db.execAll ss) := by
  have hstored := execAll_submissionStored hss db
  constructor
  · intro id
    simp only [Scoreboard.post]
    by_cases hid : id = r.submissionId
    · subst hid
      rw [Function.update_self, hstored.verdictOf_eq]
      exact map_last (h.verdict _) _
    · rw [Function.update_of_ne hid, ← h.verdict id]
      unfold Db.verdictOf
      rw [hstored.row.otherRows id hid]
  · intro id
    simp only [Scoreboard.post]
    by_cases hid : id = r.submissionId
    · subst hid
      rw [Function.update_self]
      exact hstored.cases.rows
    · rw [Function.update_of_ne hid, ← h.cases id]
      exact hstored.cases.rowsOf_eq fun _ => hid
  · intro id
    rw [← show b.runs = (b.post (.submission r)).runs from rfl, ← h.runVerdict id]
    unfold Db.runVerdictOf
    rw [hstored.codeRuns]
  · intro id
    rw [← show b.runs = (b.post (.submission r)).runs from rfl, ← h.runCases id]
    exact hstored.cases.rowsOf_eq nofun
  · intro problem
    rw [hstored.problem_eq problem, h.solved problem, Option.map_map]
    congr 1
    funext count
    simp only [Function.comp_apply, Scoreboard.post, JudgeResult.gain, JudgeResult.solves,
      decide_eq_true_eq]
    split <;> omega

theorem postRun {r : JudgeResult} (h : Shows initial b db)
    (hss : ss.map (·.2) = r.codeRunStmts) : Shows initial (b.post (.run r)) (db.execAll ss) := by
  have hstored := execAll_codeRunStored hss db
  constructor
  · intro id
    rw [← show b.submissions = (b.post (.run r)).submissions from rfl, ← h.verdict id]
    unfold Db.verdictOf
    rw [hstored.submissions]
  · intro id
    rw [← show b.submissions = (b.post (.run r)).submissions from rfl, ← h.cases id]
    exact hstored.cases.rowsOf_eq nofun
  · intro id
    simp only [Scoreboard.post]
    by_cases hid : id = r.runId
    · subst hid
      rw [Function.update_self, hstored.runVerdictOf_eq]
      exact map_last (h.runVerdict _) _
    · rw [Function.update_of_ne hid, ← h.runVerdict id]
      unfold Db.runVerdictOf
      rw [hstored.row.otherRows id hid]
  · intro id
    simp only [Scoreboard.post]
    by_cases hid : id = r.runId
    · subst hid
      rw [Function.update_self]
      exact hstored.cases.rows
    · rw [Function.update_of_ne hid, ← h.runCases id]
      exact hstored.cases.rowsOf_eq fun _ => hid
  · intro problem
    rw [hstored.problems]
    exact h.solved problem

/-- A transaction that stores a result posts it. -/
theorem post {posting : Posting} (h : Shows initial b db) (hss : ss.map (·.2) = posting.stmts) :
    Shows initial (b.post posting) (db.execAll ss) := by
  cases posting with
  | submission r => exact h.postSubmission hss
  | run r => exact h.postRun hss

/-- Any number of transactions, each of which stores a result. -/
theorem postAll {txs : List (List (Nat × Stmt))} {postings : List Posting}
    (h : List.Forall₂ (fun ss posting => ss.map (·.2) = Posting.stmts posting) txs postings)
    (hshows : Shows initial b db) :
    Shows initial (postings.foldl Scoreboard.post b) (db.execAll txs.flatten) := by
  induction h generalizing b db with
  | nil => exact hshows
  | cons hss _ ih =>
    rw [List.flatten_cons, Db.execAll_append]
    exact ih (hshows.post hss)

end Shows

/-! ## What a board shows -/

namespace Scoreboard

theorem postAll_append (postings : List Posting) (posting : Posting) :
    postAll (postings ++ [posting]) = (postAll postings).post posting := by
  simp [postAll]

/-- What is shown under an id is what the last of the postings that `sel` selects for it
    says. -/
theorem last_cases (shown : List Posting → Option JudgeResult) (sel : Posting → Option JudgeResult)
    (key : JudgeResult → UInt64) {id : UInt64} (hnil : shown [] = none)
    (hother : ∀ postings posting, (∀ r, sel posting = some r → key r ≠ id) →
      shown (postings ++ [posting]) = shown postings)
    (hown : ∀ postings posting r, sel posting = some r → key r = id →
      shown (postings ++ [posting]) = some r)
    (postings : List Posting) :
    shown postings = none ∧ (∀ posting ∈ postings, ∀ r, sel posting = some r → key r ≠ id) ∨
      ∃ posting ∈ postings, ∃ r, sel posting = some r ∧ key r = id ∧ shown postings = some r := by
  induction postings using List.reverseRecOn with
  | nil => exact .inl ⟨hnil, by simp⟩
  | append_singleton postings posting ih =>
    by_cases hsel : ∃ r, sel posting = some r ∧ key r = id
    · obtain ⟨r, hr, hid⟩ := hsel
      exact .inr ⟨posting, by simp, r, hr, hid, hown postings posting r hr hid⟩
    · have hnot : ∀ r, sel posting = some r → key r ≠ id := fun r hr hid => hsel ⟨r, hr, hid⟩
      rw [hother postings posting hnot]
      rcases ih with ⟨hnone, hnever⟩ | ⟨p, hp, r, hr⟩
      · refine .inl ⟨hnone, fun p hp => ?_⟩
        rcases List.mem_append.mp hp with hold | hnew
        · exact hnever p hold
        · rw [List.mem_singleton.mp hnew]
          exact hnot
      · exact .inr ⟨p, List.mem_append_left _ hp, r, hr⟩

/-- Nothing was posted for the submission, or the board shows something that was. -/
theorem submissions_cases (postings : List Posting) (id : UInt64) :
    (postAll postings).submissions id = none ∧
        (∀ r, .submission r ∈ postings → r.submissionId ≠ id) ∨
      ∃ r, (postAll postings).submissions id = some r ∧ .submission r ∈ postings ∧
        r.submissionId = id := by
  have hother : ∀ ps p, (∀ r, Posting.asSubmission p = some r → r.submissionId ≠ id) →
      (postAll (ps ++ [p])).submissions id = (postAll ps).submissions id := by
    intro ps p hnot
    rw [postAll_append]
    cases p with
    | submission r => exact Function.update_of_ne (Ne.symm (hnot r rfl)) ..
    | run r => rfl
  have hown : ∀ ps p r, Posting.asSubmission p = some r → r.submissionId = id →
      (postAll (ps ++ [p])).submissions id = some r := by
    intro ps p r hr hid
    rw [postAll_append, Posting.asSubmission_eq_some.mp hr, ← hid]
    exact Function.update_self ..
  rcases last_cases (fun ps => (postAll ps).submissions id) Posting.asSubmission (·.submissionId)
    rfl hother hown postings with ⟨hnone, hnever⟩ | ⟨p, hp, r, hr, hid, hshown⟩
  · exact .inl ⟨hnone, fun r hr => hnever _ hr r rfl⟩
  · exact .inr ⟨r, hshown, Posting.asSubmission_eq_some.mp hr ▸ hp, hid⟩

/-- The same for runs. -/
theorem runs_cases (postings : List Posting) (id : UInt64) :
    (postAll postings).runs id = none ∨
      ∃ r, (postAll postings).runs id = some r ∧ .run r ∈ postings ∧ r.runId = id := by
  have hother : ∀ ps p, (∀ r, Posting.asRun p = some r → r.runId ≠ id) →
      (postAll (ps ++ [p])).runs id = (postAll ps).runs id := by
    intro ps p hnot
    rw [postAll_append]
    cases p with
    | submission r => rfl
    | run r => exact Function.update_of_ne (Ne.symm (hnot r rfl)) ..
  have hown : ∀ ps p r, Posting.asRun p = some r → r.runId = id →
      (postAll (ps ++ [p])).runs id = some r := by
    intro ps p r hr hid
    rw [postAll_append, Posting.asRun_eq_some.mp hr, ← hid]
    exact Function.update_self ..
  rcases last_cases (fun ps => (postAll ps).runs id) Posting.asRun (·.runId) rfl hother hown
    postings with ⟨hnone, -⟩ | ⟨p, hp, r, hr, hid, hshown⟩
  · exact .inl hnone
  · exact .inr ⟨r, hshown, Posting.asRun_eq_some.mp hr ▸ hp, hid⟩

end Scoreboard
