-- SUMMARY: Repeated deliveries of one submission: what the tables hold after any number of them, among the transactions of other submissions.
import FlowStudyJudge.Db.Transactions

/-! # Redelivery

A message can be handled several times: an acknowledgement or the answer to a `COMMIT`
gets lost, or the broker delivers again. `Schedule` runs through the transactions in
the order they commit. -/

/-- A server with a log, whose answers may get lost. -/
abbrev Store.world : World Op.Res (Server Store) :=
  Server.world Store.commit true Eq

namespace DbCall

/-- A call through some client, on a connection outside of any transaction. -/
def Handles (call : DbCall) (st st' : Store) : Prop :=
  ∃ (c c' : MySQLClient) (b : Bool) (tr : Trace Op.Res) (s s' : Server Store),
    s.Idle ∧ s.data = st ∧ s'.data = st' ∧ (call.run c).Runs tr (.ok (c', b)) ∧
      Store.world.Path s tr s'

/-- The call stores the result of something other than the submission `id`. -/
def isOther (id : UInt64) : DbCall → Bool
  | .updateSubmission r => r.submissionId != id
  | .updateCodeRun _ => true
  | .connect | .ping => false

/-- What a call adds to the `accepted_count` of a problem when it commits. -/
def gain (problem : UInt64) : DbCall → Int
  | .updateSubmission r => r.gain problem
  | .updateCodeRun _ | .connect | .ping => 0

end DbCall

/-- The store goes from `st` to `st'` while the result `r` is committed `n` times and
    the calls `others` are committed in between; handlings of `r` that fail may
    occur anywhere. -/
inductive Schedule (r : JudgeResult) (st : Store) : Nat → List DbCall → Store → Prop where
  | nil : Schedule r st 0 [] st
  | own {n : Nat} {others : List DbCall} {st₁ st₂ : Store} (h : Schedule r st n others st₁)
      (hcall : (DbCall.updateSubmission r).Handles st₁ st₂) (hcommit : st₂.log ≠ st₁.log) :
      Schedule r st (n + 1) others st₂
  | failed {n : Nat} {others : List DbCall} {st₁ st₂ : Store} (h : Schedule r st n others st₁)
      (hcall : (DbCall.updateSubmission r).Handles st₁ st₂) (hlog : st₂.log = st₁.log) :
      Schedule r st n others st₂
  | other {n : Nat} {others : List DbCall} {call : DbCall} {st₁ st₂ : Store}
      (h : Schedule r st n others st₁) (hother : call.isOther r.submissionId = true)
      (hcall : call.Handles st₁ st₂) (hcommit : st₂.log ≠ st₁.log) :
      Schedule r st n (others ++ [call]) st₂

/-! ## One transaction -/

namespace DbCall

variable {call : DbCall} {st st' : Store}

/-- What a call changes: nothing, or one transaction. -/
theorem Handles.cases (h : call.Handles st st') :
    st' = st ∨ ∃ ss, st' = Store.commit ss st ∧
      ((∃ r, call = .updateSubmission r ∧ ss.map (·.2) = r.submissionStmts) ∨
        ∃ r, call = .updateCodeRun r ∧ ss.map (·.2) = r.codeRunStmts) := by
  obtain ⟨c, c', b, tr, s, s', hidle, rfl, rfl, hruns, hpath⟩ := h
  have hends : ∀ {stmts : List Stmt}, c.Transacted stmts tr (.ok b) →
      s'.data = s.data ∨ ∃ ss, s'.data = Store.commit ss s.data ∧ ss.map (·.2) = stmts := by
    intro stmts htx
    have hcommits : Server.Commits Store.commit Eq stmts s.data s'.data →
        ∃ ss, s'.data = Store.commit ss s.data ∧ ss.map (·.2) = stmts := by
      intro ⟨ss, d, hss, hd, hdata⟩
      rw [← hd] at hdata
      exact ⟨ss, hdata.symm, hss⟩
    have hend := (Server.transacted_path htx hpath hidle).2
    cases b with
    | true => exact .inr (hcommits hend)
    | false => exact hend.imp Eq.symm fun hlost => hcommits hlost.2
  cases call with
  | connect =>
    obtain ⟨res, -, hconnected⟩ := MySQLClient.connect_runs hruns
    exact .inl (Server.path_quiet hpath hconnected.noQuery hidle).1.symm
  | ping =>
    obtain ⟨res, -, hpinged⟩ := MySQLClient.ping_runs hruns
    exact .inl (Server.path_quiet hpath hpinged.noQuery hidle).1.symm
  | updateSubmission r =>
    refine (hends (transaction_runs hruns)).imp_right fun ⟨ss, hdata, hss⟩ => ?_
    exact ⟨ss, hdata, .inl ⟨r, rfl, hss⟩⟩
  | updateCodeRun r =>
    refine (hends (transaction_runs hruns)).imp_right fun ⟨ss, hdata, hss⟩ => ?_
    exact ⟨ss, hdata, .inr ⟨r, rfl, hss⟩⟩

theorem Handles.unchanged (h : call.Handles st st') (hlog : st'.log = st.log) : st' = st := by
  rcases h.cases with rfl | ⟨ss, rfl, -⟩
  · rfl
  · simp [Store.commit] at hlog

/-- A call that commits has had the effect that a successful one has. -/
theorem Handles.effect (h : call.Handles st st') (hcommit : st'.log ≠ st.log) :
    call.Effect st.db st'.db true := by
  rcases h.cases with rfl | ⟨ss, rfl, ⟨r, rfl, hss⟩ | ⟨r, rfl, hss⟩⟩
  · exact absurd rfl hcommit
  · exact execAll_submissionStored hss st.db
  · exact execAll_codeRunStored hss st.db

end DbCall

/-! ## The whole schedule -/

/-- The case rows of an owner. -/
def Db.rowsOf (db : Db) (table : CaseTable) (owner : UInt64) : List CaseRow :=
  (db.caseResults table).filter (·.owner = owner)

/-- The columns of the row of a submission that an update sets, `updated_at` apart. -/
def Db.verdictOf (db : Db) (id : UInt64) : Option SubmissionVerdict :=
  (db.fsSubmission id).map (·.verdict)

/-- Replacing the rows of one owner leaves those of the others in their order. -/
theorem CasesStored.rowsOf_eq {table t : CaseTable} {owner id : UInt64}
    {items : List JudgeCaseResult} {db db' : Db} (h : CasesStored table owner items db db')
    (hne : t = table → id ≠ owner) : db'.rowsOf t id = db.rowsOf t id := by
  unfold Db.rowsOf
  by_cases htable : t = table
  · subst htable
    have hothers : ∀ rows : List CaseRow, rows.filter (·.owner = id) =
        (rows.filter (·.owner ≠ owner)).filter (·.owner = id) := by
      intro rows
      rw [List.filter_filter]
      refine List.filter_congr fun row _ => ?_
      by_cases hrow : row.owner = id
      · simp [hrow, hne rfl]
      · simp [hrow]
    rw [hothers, h.otherRows, ← hothers]
  · rw [h.otherTable t htable]

theorem SubmissionStored.verdictOf_eq {r : JudgeResult} {db db' : Db}
    (h : SubmissionStored r db db') : db'.verdictOf r.submissionId =
      (db.verdictOf r.submissionId).map fun _ => r.submissionVerdict := by
  have hverdict : r.submissionVerdict = _ := JudgeResult.submissionVerdict_eq r
  unfold Db.verdictOf
  rw [h.row.row, hverdict, Option.map_map]
  rfl

theorem SubmissionStored.problem_eq {r : JudgeResult} {db db' : Db}
    (h : SubmissionStored r db db') (p : UInt64) :
    db'.fsProblem p = (db.fsProblem p).map (· + r.gain p) := by
  rw [h.problem p]
  simp only [JudgeResult.gain, eq_comm]
  split
  · rfl
  · simp

/-- The commit of something else leaves the submission alone. -/
theorem DbCall.Effect.other {call : DbCall} {id : UInt64} {db db' : Db}
    (h : call.Effect db db' true) (hother : call.isOther id = true) :
    db'.verdictOf id = db.verdictOf id ∧
      db'.rowsOf .fsJudgeCaseResult id = db.rowsOf .fsJudgeCaseResult id ∧
      ∀ p, db'.fsProblem p = (db.fsProblem p).map (· + call.gain p) := by
  cases call with
  | connect | ping => cases hother
  | updateSubmission r =>
    have hstored : SubmissionStored r db db' := h
    have hne : r.submissionId ≠ id := by simpa [isOther] using hother
    refine ⟨?_, hstored.cases.rowsOf_eq fun _ => hne.symm, hstored.problem_eq⟩
    unfold Db.verdictOf
    rw [hstored.row.otherRows id hne.symm]
  | updateCodeRun r =>
    have hstored : CodeRunStored r db db' := h
    refine ⟨?_, hstored.cases.rowsOf_eq (fun heq => nomatch heq), fun p => ?_⟩
    · unfold Db.verdictOf
      rw [hstored.submissions]
    · rw [hstored.problems]
      simp [DbCall.gain]

/-- What the first commit of `r` fixes and every further one adds. -/
structure Stored (r : JudgeResult) (db : Db) (n : Nat) (others : List DbCall) (db' : Db) :
    Prop where
  isSome : (db'.verdictOf r.submissionId).isSome = (db.verdictOf r.submissionId).isSome
  verdict : n ≠ 0 → db'.verdictOf r.submissionId =
    (db.verdictOf r.submissionId).map fun _ => r.submissionVerdict
  cases : n ≠ 0 → db'.rowsOf .fsJudgeCaseResult r.submissionId =
    r.caseResults.map (JudgeResult.caseRow r.submissionId)
  problem : ∀ p, db'.fsProblem p =
    (db.fsProblem p).map (· + (n * r.gain p + (others.map (DbCall.gain p)).sum))

theorem map_const_of_isSome {α β : Type} {o o' : Option α} (b : β) (h : o.isSome = o'.isSome) :
    o.map (fun _ => b) = o'.map fun _ => b := by
  cases o <;> cases o' <;> first | rfl | cases h

theorem Schedule.stored {r : JudgeResult} {st st' : Store} {n : Nat} {others : List DbCall}
    (h : Schedule r st n others st') : Stored r st.db n others st'.db := by
  induction h with
  | nil => exact ⟨rfl, fun h => absurd rfl h, fun h => absurd rfl h, fun p => by simp⟩
  | @own n others st₁ st₂ _ hcall hcommit ih =>
    have hstored : SubmissionStored r st₁.db st₂.db := hcall.effect hcommit
    refine ⟨?_, fun _ => ?_, fun _ => hstored.cases.rows, fun p => ?_⟩
    · rw [hstored.verdictOf_eq, Option.isSome_map, ih.isSome]
    · rw [hstored.verdictOf_eq]
      exact map_const_of_isSome _ ih.isSome
    · rw [hstored.problem_eq p, ih.problem p, Option.map_map]
      congr 1
      funext count
      have hsucc : ((n + 1 : Nat) : Int) * r.gain p = n * r.gain p + r.gain p := by
        rw [Int.natCast_add, Int.add_mul]
        simp
      simp only [Function.comp_apply]
      omega
  | failed _ hcall hlog ih =>
    rw [hcall.unchanged hlog]
    exact ih
  | @other n others call st₁ st₂ _ hother hcall hcommit ih =>
    obtain ⟨hverdict, hcases, hproblem⟩ := (hcall.effect hcommit).other hother
    refine ⟨?_, fun hn => ?_, fun hn => ?_, fun p => ?_⟩
    · rw [hverdict, ih.isSome]
    · rw [hverdict, ih.verdict hn]
    · rw [hcases, ih.cases hn]
    · rw [hproblem p, ih.problem p, Option.map_map]
      congr 1
      funext count
      simp only [Function.comp_apply, List.map_append, List.map_cons, List.map_nil,
        List.sum_append, List.sum_cons, List.sum_nil]
      omega

/-- Two ways to handle a submission leave the same behind: its row, its case rows, and
    the counters of the problems. -/
structure SameOutcome (r : JudgeResult) (db₁ db₂ : Db) : Prop where
  verdict : db₁.verdictOf r.submissionId = db₂.verdictOf r.submissionId
  cases : db₁.rowsOf .fsJudgeCaseResult r.submissionId =
    db₂.rowsOf .fsJudgeCaseResult r.submissionId
  problem : ∀ p, db₁.fsProblem p = db₂.fsProblem p

/-- Handling a submission `n` times leaves behind what handling it once does exactly when
    nothing is counted for it, or it is counted once. -/
theorem redelivery_same_iff {r : JudgeResult} {st st₁ st₂ : Store} {n : Nat}
    {others : List DbCall} (hn : 1 ≤ n) (h₁ : Schedule r st n others st₁)
    (h₂ : Schedule r st 1 others st₂) :
    SameOutcome r st₁.db st₂.db ↔
      n = 1 ∨ r.status ≠ "ACCEPTED" ∨ r.problemId = 0 ∨ st.db.fsProblem r.problemId = none := by
  have hn₀ : n ≠ 0 := by omega
  have hstored₁ := h₁.stored
  have hstored₂ := h₂.stored
  have hverdict : st₁.db.verdictOf r.submissionId = st₂.db.verdictOf r.submissionId :=
    (hstored₁.verdict hn₀).trans (hstored₂.verdict one_ne_zero).symm
  have hcases : st₁.db.rowsOf .fsJudgeCaseResult r.submissionId =
      st₂.db.rowsOf .fsJudgeCaseResult r.submissionId :=
    (hstored₁.cases hn₀).trans (hstored₂.cases one_ne_zero).symm
  refine ⟨fun h => ?_, fun h => ⟨hverdict, hcases, fun p => ?_⟩⟩
  · by_contra hcounted
    simp only [not_or, ne_eq, not_not] at hcounted
    obtain ⟨hone, haccepted, hproblem, hrow⟩ := hcounted
    obtain ⟨count, hcount⟩ := Option.ne_none_iff_exists'.mp hrow
    have hgain : r.gain r.problemId = 1 := by
      simp [JudgeResult.gain, haccepted, hproblem]
    have hsame := h.problem r.problemId
    rw [hstored₁.problem, hstored₂.problem, hcount, hgain] at hsame
    simp only [Option.map_some, Option.some.injEq] at hsame
    omega
  · rw [hstored₁.problem p, hstored₂.problem p]
    cases hrow : st.db.fsProblem p with
    | none => rfl
    | some count =>
      have hgain : n = 1 ∨ r.gain p = 0 := by
        rcases h with hone | hstatus | hproblem | hnone
        · exact .inl hone
        · exact .inr (if_neg fun hcond => hstatus hcond.1)
        · exact .inr (if_neg fun hcond => hcond.2.1 hproblem)
        · refine .inr (if_neg fun hcond => ?_)
          rw [hcond.2.2, hrow] at hnone
          cases hnone
      rcases hgain with rfl | hgain
      · rfl
      · rw [hgain]
        simp

/-! ## Deliveries on a server that works -/

/-- The server of a store, with one connection that is up. -/
def connectedStore (st : Store) : Server Store :=
  { data := st, sessions := fun _ => .up none }

/-- The store after one more handling of `r`. -/
def redeliver (r : JudgeResult) (st : Store) : Store :=
  (((DbCall.updateSubmission r).run sampleClient).eval
    (Server.reliable Store.commit fun _ => none) (connectedStore st)).2.data

theorem redeliver_handles {r : JudgeResult} {st : Store}
    (heval : (((DbCall.updateSubmission r).run sampleClient).eval
      (Server.reliable Store.commit fun _ => none) (connectedStore st)).1 =
        .ok (sampleClient, true)) :
    (DbCall.updateSubmission r).Handles st (redeliver r st) :=
  ⟨sampleClient, sampleClient, true, _, connectedStore st, _, fun _ => .up, rfl, rfl,
    Prog.runs_trace_of_eval heval, Prog.path_trace _ Server.reliable_world _⟩

/-- One handling, and a second one after it. -/
theorem redeliver_schedule (r : JudgeResult) (st : Store)
    (heval : ∀ st, (((DbCall.updateSubmission r).run sampleClient).eval
      (Server.reliable Store.commit fun _ => none) (connectedStore st)).1 =
        .ok (sampleClient, true))
    (hlog : ∀ st : Store, (redeliver r st).log = st.log ++ [r.submissionStmts]) :
    Schedule r st 1 [] (redeliver r st) ∧
      Schedule r st 2 [] (redeliver r (redeliver r st)) := by
  have hcommit : ∀ st : Store, (redeliver r st).log ≠ st.log := by
    intro st
    rw [hlog st]
    simp
  have hone : Schedule r st 1 [] (redeliver r st) :=
    .own .nil (redeliver_handles (heval st)) (hcommit st)
  exact ⟨hone, .own hone (redeliver_handles (heval _)) (hcommit _)⟩

/-- A wrong answer of the same submission. -/
def wrongResult : JudgeResult :=
  { sampleResult with status := "WRONG_ANSWER" }

theorem redelivery_same_iff_wrong :
    SameOutcome wrongResult
      (redeliver wrongResult (redeliver wrongResult ⟨sampleDb, []⟩)).db
      (redeliver wrongResult ⟨sampleDb, []⟩).db := by
  obtain ⟨hone, htwo⟩ := redeliver_schedule wrongResult ⟨sampleDb, []⟩ (fun _ => rfl)
    (fun _ => rfl)
  exact (redelivery_same_iff (by decide) htwo hone).mpr (.inr (.inl (by decide)))

/-- An accepted submission that is delivered twice is counted twice. -/
theorem redelivery_not_always_same :
    ¬ ∀ (r : JudgeResult) (st st₁ st₂ : Store) (n : Nat) (others : List DbCall), 1 ≤ n →
      Schedule r st n others st₁ → Schedule r st 1 others st₂ → SameOutcome r st₁.db st₂.db := by
  intro h
  obtain ⟨hone, htwo⟩ := redeliver_schedule sampleResult ⟨sampleDb, []⟩ (fun _ => rfl)
    (fun _ => rfl)
  have hsame := h _ _ _ _ _ _ (by decide) htwo hone
  have hproblem := hsame.problem 3
  revert hproblem
  decide +kernel
