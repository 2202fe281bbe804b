-- SUMMARY: What the tables of the deployment hold in every reachable state: the last result of each submission, and nothing that was not judged.
import FlowStudyJudge.Db.Scoreboard
import FlowStudyJudge.Worker.Integrity

/-! # Standings -/

namespace Deployment

variable {parse : Bytes → Option Json} {s : Deployment}

/-- The result of judging a message. -/
def posting (submission : SubmissionMessage) (result : JudgeResultInternal) : Posting :=
  let r := Worker.dbResult submission result
  if submission.isRun then .run r else .submission r

theorem posting_stmts (submission : SubmissionMessage) (result : JudgeResultInternal) :
    (posting submission result).stmts =
      Worker.resultStmts submission (Worker.dbResult submission result) := by
  unfold posting Worker.resultStmts
  split <;> rfl

/-- The transaction stores the result of judging a message that was published. -/
inductive Posted (parse : Bytes → Option Json) (published : List Message) (c : Commit) :
    Posting → Prop where
  | judged {m : Message} {submission : SubmissionMessage} {cfg : IsolateConfig}
      {tr : Trace Op.Res} {result : JudgeResultInternal} (hm : m ∈ published)
      (hmessage : c.message = some m)
      (hparse : JudgeEngine.parseMessage parse m.body = some submission)
      (hjudge : (JudgeEngine.judge cfg submission).Runs tr (.ok result))
      (hstmts : c.stmts.map (·.2) = (posting submission result).stmts) :
      Posted parse published c (posting submission result)

theorem Genuine.posted {published : List Message} {c : Commit} (h : Genuine parse published c) :
    ∃ p, Posted parse published c p := by
  obtain ⟨m, hm, hmessage, submission, cfg, tr, result, hparse, hjudge, hstmts⟩ := h
  rw [← posting_stmts] at hstmts
  exact ⟨_, .judged hm hmessage hparse hjudge hstmts⟩

theorem Posted.stmts {published : List Message} {c : Commit} {p : Posting}
    (h : Posted parse published c p) : c.stmts.map (·.2) = p.stmts := by
  cases h with
  | judged _ _ _ _ hstmts => exact hstmts

/-- Each transaction of the ledger is a posting. -/
theorem Honest.postings (h : Honest parse s) :
    ∃ postings, List.Forall₂ (Posted parse s.published) s.ledger.commits postings := by
  have hall := h.genuine
  generalize s.ledger.commits = commits at hall
  induction commits with
  | nil => exact ⟨[], .nil⟩
  | cons c commits ih =>
    obtain ⟨p, hp⟩ := (hall c List.mem_cons_self).posted
    obtain ⟨postings, hpostings⟩ := ih fun c' hc' => hall c' (List.mem_cons_of_mem _ hc')
    exact ⟨p :: postings, .cons hp hpostings⟩

/-- The tables show what the postings add up to. -/
theorem shows_of_posted {published : List Message} {l : Ledger} {postings : List Posting}
    (h : List.Forall₂ (Posted parse published) l.commits postings) :
    Shows l.initial (Scoreboard.postAll postings) l.tables := by
  have htxs : List.Forall₂ (fun ss p => ss.map (·.2) = Posting.stmts p)
      (l.commits.map (·.stmts)) postings :=
    List.forall₂_map_left_iff.mpr (h.imp fun _ _ hposted => hposted.stmts)
  have hshows := (Shows.start l.initial).postAll htxs
  rw [← List.flatMap_def] at hshows
  exact hshows

theorem Posted.submission {published : List Message} {c : Commit} {r : JudgeResult}
    (h : Posted parse published c (.submission r)) :
    ∃ m ∈ published, ∃ submission cfg tr result,
      JudgeEngine.parseMessage parse m.body = some submission ∧ submission.isRun = false ∧
        (JudgeEngine.judge cfg submission).Runs tr (.ok result) ∧
          r = Worker.dbResult submission result := by
  generalize hp : Posting.submission r = p at h
  cases h with
  | @judged m submission cfg tr result hm hmessage hparse hjudge hstmts =>
    unfold posting at hp
    cases hrun : submission.isRun with
    | true =>
      simp only [hrun, if_true] at hp
      cases hp
    | false =>
      simp only [hrun, Bool.false_eq_true, if_false, Posting.submission.injEq] at hp
      exact ⟨m, hm, submission, cfg, tr, result, hparse, hrun, hjudge, hp⟩

/-- Behind each posting there is a transaction. -/
theorem posted_of_mem {published : List Message} {commits : List Commit}
    {postings : List Posting} {p : Posting}
    (h : List.Forall₂ (Posted parse published) commits postings) (hp : p ∈ postings) :
    ∃ c ∈ commits, Posted parse published c p := by
  induction h with
  | nil => cases hp
  | @cons c p' commits postings hposted _ ih =>
    rcases List.mem_cons.mp hp with rfl | hrest
    · exact ⟨c, List.mem_cons_self, hposted⟩
    · obtain ⟨c', hc', hposted'⟩ := ih hrest
      exact ⟨c', List.mem_cons_of_mem _ hc', hposted'⟩

/-- The postings for a submission come from messages that name it. -/
theorem posted_submission {published : List Message} {commits : List Commit}
    {postings : List Posting} {r : JudgeResult}
    (h : List.Forall₂ (Posted parse published) commits postings)
    (hr : .submission r ∈ postings) :
    ∃ m ∈ published, ∃ submission cfg tr result,
      JudgeEngine.parseMessage parse m.body = some submission ∧ submission.isRun = false ∧
        (JudgeEngine.judge cfg submission).Runs tr (.ok result) ∧
          r = Worker.dbResult submission result := by
  obtain ⟨c, -, hposted⟩ := posted_of_mem h hr
  exact hposted.submission

theorem posting_of_mem {published : List Message} {commits : List Commit}
    {postings : List Posting} {c : Commit}
    (h : List.Forall₂ (Posted parse published) commits postings) (hc : c ∈ commits) :
    ∃ p ∈ postings, Posted parse published c p := by
  induction h with
  | nil => cases hc
  | @cons c' p commits postings hposted _ ih =>
    rcases List.mem_cons.mp hc with rfl | hrest
    · exact ⟨p, List.mem_cons_self, hposted⟩
    · obtain ⟨p', hp', hposted'⟩ := ih hrest
      exact ⟨p', List.mem_cons_of_mem _ hp', hposted'⟩

/-! ## Results -/

/-- In every reachable state the tables hold, for each submission and each run, the result
    committed last for it, and for each problem how often it was solved on top of the count
    it began with; and all of it comes from judging published messages. -/
theorem Reachable.standings (h : Reachable parse s) :
    ∃ postings, List.Forall₂ (Posted parse s.published) s.ledger.commits postings ∧
      Shows s.ledger.initial (Scoreboard.postAll postings) s.ledger.tables := by
  obtain ⟨postings, hposted⟩ := h.honest.postings
  exact ⟨postings, hposted, shows_of_posted hposted⟩

theorem standings_sample : ∃ s, Reachable JudgeEngine.sampleParse s ∧ ∃ postings,
    List.Forall₂ (Posted JudgeEngine.sampleParse [sampleQueued]) s.ledger.commits postings ∧
      Shows s.ledger.initial (Scoreboard.postAll postings) s.ledger.tables := by
  obtain ⟨s, h, hpublished, -⟩ := sample_judged
  rw [← hpublished]
  exact ⟨s, h, h.standings⟩

/-- A submission that no published message names is left alone. -/
theorem Reachable.untouched (h : Reachable parse s) {id : UInt64}
    (hid : ∀ m ∈ s.published, ∀ submission,
      JudgeEngine.parseMessage parse m.body = some submission → submission.isRun = false →
        submission.submissionId ≠ id) :
    s.ledger.tables.verdictOf id = s.ledger.initial.verdictOf id ∧
      s.ledger.tables.rowsOf .fsJudgeCaseResult id =
        s.ledger.initial.rowsOf .fsJudgeCaseResult id := by
  obtain ⟨postings, hposted⟩ := h.honest.postings
  have hshows := shows_of_posted hposted
  rcases Scoreboard.submissions_cases postings id with ⟨hnone, -⟩ | ⟨r, -, hr, rfl⟩
  · rw [hshows.verdict id, hshows.cases id, hnone]
    exact ⟨rfl, rfl⟩
  · obtain ⟨m, hm, submission, cfg, tr, result, hparse, hrun, -, rfl⟩ :=
      posted_submission hposted hr
    exact absurd rfl (hid m hm submission hparse hrun)

theorem untouched_sample : ∃ s, Reachable JudgeEngine.sampleParse s ∧
    s.published = [sampleQueued] ∧ s.ledger.tables.verdictOf 8 = s.ledger.initial.verdictOf 8 := by
  obtain ⟨s, h, hpublished, -⟩ := sample_judged
  have hother : ∀ m ∈ s.published, ∀ submission,
      JudgeEngine.parseMessage JudgeEngine.sampleParse m.body = some submission →
        submission.isRun = false → submission.submissionId ≠ 8 := by
    intro m hm submission hparse _
    rw [hpublished, List.mem_singleton] at hm
    rw [hm, sampleQueued_parses] at hparse
    cases hparse
    decide
  exact ⟨s, h, hpublished, (h.untouched hother).1⟩

/-- A submission with a message that the broker is done with shows a result of judging, its
    own or that of another message that names the same submission. -/
theorem Reachable.settled_shows (h : Reachable parse s) {m : Message} {submission : SubmissionMessage}
    (hm : m ∈ s.published) (hparse : JudgeEngine.parseMessage parse m.body = some submission)
    (hrun : submission.isRun = false) (hsettled : ¬ s.broker.Held m) :
    ∃ m' ∈ s.published, ∃ submission' cfg tr result,
      JudgeEngine.parseMessage parse m'.body = some submission' ∧ submission'.isRun = false ∧
        submission'.submissionId = submission.submissionId ∧
          (JudgeEngine.judge cfg submission').Runs tr (.ok result) ∧
            s.ledger.tables.verdictOf submission.submissionId =
              (s.ledger.initial.verdictOf submission.submissionId).map (fun _ =>
                (Worker.dbResult submission' result).submissionVerdict) ∧
            s.ledger.tables.rowsOf .fsJudgeCaseResult submission.submissionId =
              (Worker.dbResult submission' result).caseResults.map
                (JudgeResult.caseRow submission.submissionId) := by
  obtain ⟨postings, hposted⟩ := h.honest.postings
  have hshows := shows_of_posted hposted
  -- some transaction was committed for the message, so something was posted for the id
  have hown : ∃ r, .submission r ∈ postings ∧ r.submissionId = submission.submissionId := by
    obtain ⟨-, -, -, c, -, hc, hmessage, -⟩ :=
      (h.inv.kept m hm submission hparse).resolve_left hsettled
    obtain ⟨p, hp, hjudged⟩ := posting_of_mem hposted hc
    cases hjudged with
    | @judged m' submission' cfg tr result _ hmessage' hparse' hjudge _ =>
      rw [hmessage] at hmessage'
      cases hmessage'
      rw [hparse] at hparse'
      cases hparse'
      refine ⟨Worker.dbResult submission result, ?_, rfl⟩
      simpa [posting, hrun] using hp
  rcases Scoreboard.submissions_cases postings submission.submissionId with
    ⟨-, hnot⟩ | ⟨r, hlast, hr, hid⟩
  · obtain ⟨r, hr, hid⟩ := hown
    exact absurd hid (hnot r hr)
  · obtain ⟨m', hm', submission', cfg, tr, result, hparse', hrun', hjudge, rfl⟩ :=
      posted_submission hposted hr
    refine ⟨m', hm', submission', cfg, tr, result, hparse', hrun', hid, hjudge, ?_, ?_⟩
    · rw [hshows.verdict, hlast]
      rfl
    · rw [hshows.cases, hlast]
      rfl

theorem settled_shows_sample : ∃ s, Reachable JudgeEngine.sampleParse s ∧
    ∃ m ∈ s.published, ∃ submission cfg tr result,
      JudgeEngine.parseMessage JudgeEngine.sampleParse m.body = some submission ∧
        (JudgeEngine.judge cfg submission).Runs tr (.ok result) ∧
          s.ledger.tables.verdictOf 7 = (s.ledger.initial.verdictOf 7).map fun _ =>
            (Worker.dbResult submission result).submissionVerdict := by
  obtain ⟨s, h, hpublished, hsettled, -⟩ := sample_judged
  have hm : sampleQueued ∈ s.published := by
    rw [hpublished]
    exact List.mem_singleton_self _
  have hrun : JudgeEngine.sampleMessage.isRun = false := by decide
  obtain ⟨m, hm', submission, cfg, tr, result, hparse, -, -, hjudge, hverdict, -⟩ :=
    h.settled_shows hm sampleQueued_parses hrun hsettled
  exact ⟨s, h, m, hm', submission, cfg, tr, result, hparse, hjudge, hverdict⟩

end Deployment
