-- SUMMARY: A message is stored twice only if the broker has put it back: one transaction for each time it was in the queue.
import FlowStudyJudge.Storage.Exclusive
import FlowStudyJudge.Worker.Recovery
import FlowStudyJudge.Worker.Standings
import Mathlib.Data.Finset.Card

/-! # Duplicates

An activity commits its message at most once, and a message is taken by one process at a
time. So only a redelivery makes a second transaction possible. -/

namespace Deployment

variable {parse : Bytes → Option Json} {m : Message} {n n' : Nat} {s s' : Deployment}

/-! ## One copy of each message -/

/-- What a step makes the broker do, if anything. A published message has a new number. -/
theorem Step.broker (h : Step parse s s') :
    s'.broker = s.broker ∨ ∃ a, s.broker.Step a s'.broker ∧
      ∀ m, a = .publish m → m.number = s.published.length := by
  cases h with
  | publish hbroker =>
    refine .inr ⟨_, hbroker, ?_⟩
    rintro m ⟨⟩
    rfl
  | connectMq _ _ _ _ hbroker | deliver hbroker | consume _ _ _ hbroker | disconnect hbroker
  | crash hbroker => exact .inr ⟨_, hbroker, by simp⟩
  | spawn | connectDb | finish => exact .inl rfl
  | operation _ _ heffect =>
    rcases effect_broker heffect with heq | ⟨tag, -, hbroker⟩ | ⟨tag, -, hbroker⟩
    · exact .inl heq
    · exact .inr ⟨_, hbroker, by simp⟩
    · exact .inr ⟨_, hbroker, by simp⟩

theorem Step.published (h : Step parse s s') :
    s'.published = s.published ∨
      ∃ body, s'.published = s.published ++ [⟨s.published.length, body⟩] := by
  cases h with
  | publish => exact .inr ⟨_, rfl⟩
  | _ => exact .inl rfl

/-- Messages are numbered in the order in which they are published. -/
theorem Reachable.numbered (h : Reachable parse s) :
    ∀ m ∈ s.published, m.number < s.published.length := by
  induction h with
  | start => exact nofun
  | step _ hstep ih =>
    rcases hstep.published with heq | ⟨body, heq⟩
    · rw [heq]
      exact ih
    · rw [heq, List.length_append]
      intro m hm
      rcases List.mem_append.mp hm with hold | hnew
      · exact Nat.lt_succ_of_lt (ih m hold)
      · rw [List.mem_singleton.mp hnew]
        exact Nat.lt_succ_self _

theorem Reachable.exclusive (h : Reachable parse s) : s.broker.Exclusive := by
  induction h with
  | start =>
    refine ⟨fun c => List.nodup_nil, ?_⟩
    rintro c c' m ⟨⟩
  | step h hstep ih =>
    rcases hstep.broker with heq | ⟨a, hbroker, hnumber⟩
    · rw [heq]
      exact ih
    · refine hbroker.exclusive ih fun m ha hheld => ?_
      have hlt := h.numbered m (h.honest.held m hheld)
      rw [hnumber m ha] at hlt
      exact lt_irrefl _ hlt

/-! ## Histories -/

/-- The transactions that have stored a result of the message. -/
def commitsOf (s : Deployment) (m : Message) : List Commit :=
  s.ledger.commits.filter (·.message = some m)

/-- The broker puts the message back: it was sent and not acknowledged, and is in the queue. -/
def PutBack (m : Message) (s s' : Deployment) : Prop :=
  s.broker.Unacknowledged m ∧ m ∈ s'.broker.ready

/-- A history of the system in which the broker has put the message back `n` times. -/
inductive Requeued (parse : Bytes → Option Json) (m : Message) : Nat → Deployment → Prop where
  | start {tables : Db} : Requeued parse m 0 (start tables)
  | back {n : Nat} {s s' : Deployment} (h : Requeued parse m n s) (hstep : Step parse s s')
      (hback : PutBack m s s') : Requeued parse m (n + 1) s'
  | step {n : Nat} {s s' : Deployment} (h : Requeued parse m n s) (hstep : Step parse s s')
      (hkept : ¬ PutBack m s s') : Requeued parse m n s'

theorem Requeued.reachable (h : Requeued parse m n s) : Reachable parse s := by
  induction h with
  | start => exact .start
  | back _ hstep _ ih | step _ hstep _ ih => exact ih.step hstep

/-- Every history has a number. -/
theorem Reachable.requeued (h : Reachable parse s) (m : Message) : ∃ n, Requeued parse m n s := by
  induction h with
  | start => exact ⟨0, .start⟩
  | @step s s' _ hstep ih =>
    obtain ⟨n, hn⟩ := ih
    by_cases hback : PutBack m s s'
    · exact ⟨n + 1, hn.back hstep hback⟩
    · exact ⟨n, hn.step hstep hback⟩

/-- Of the processes that handle the message, only those of `pending` may have yet to commit. -/
def Owed (parse : Bytes → Option Json) (m : Message) (pending : Finset Nat)
    (processes : Nat → Option Process) : Prop :=
  ∀ pid p a, processes pid = some p → p.activity = some a → a.job.message? = some m →
    ∃ own, Busy parse p a own ∧ (own = [] → pid ∈ pending)

theorem Owed.update {processes : Nat → Option Process} {pending pending' : Finset Nat} {pid : Nat}
    {p : Option Process} (h : Owed parse m pending processes)
    (hothers : ∀ pid', pid' ≠ pid → pid' ∈ pending → pid' ∈ pending')
    (hself : ∀ p' a, p = some p' → p'.activity = some a → a.job.message? = some m →
      ∃ own, Busy parse p' a own ∧ (own = [] → pid ∈ pending')) :
    Owed parse m pending' (Function.update processes pid p) := by
  intro pid' p' a hp' ha hm
  by_cases hpid : pid' = pid
  · subst hpid
    rw [Function.update_self] at hp'
    exact hself p' a hp' ha hm
  · rw [Function.update_of_ne hpid] at hp'
    obtain ⟨own, hbusy, hown⟩ := h pid' p' a hp' ha hm
    exact ⟨own, hbusy, fun hnil => hothers pid' hpid (hown hnil)⟩

/-- The transactions of the message, those that may come, and the message itself where it has
    still to be taken, are as many as the message has been in the queue. -/
structure Balance (m : Message) (n : Nat) (pending : Finset Nat) (s : Deployment) : Prop where
  total : (s.commitsOf m).length + pending.card ≤ n + 1
  waiting : s.broker.Waiting m ∨ m ∉ s.published → (s.commitsOf m).length + pending.card ≤ n

def Accounted (parse : Bytes → Option Json) (m : Message) (n : Nat) (s : Deployment) : Prop :=
  ∃ pending, Owed parse m pending s.processes ∧ Balance m n pending s

/-- A step makes the message wait only by publishing it or putting it back. -/
theorem Step.waiting_before (hstep : Step parse s s') (h : Reachable parse s)
    (hm : s'.broker.Waiting m ∨ m ∉ s'.published) :
    (s.broker.Waiting m ∨ m ∉ s.published) ∨ PutBack m s s' := by
  rcases hm with hwaits | hnew
  · rcases hstep.broker with heq | ⟨a, hbroker, hnumber⟩
    · rw [heq] at hwaits
      exact .inl (.inl hwaits)
    · rcases hbroker.waiting_before hwaits with hold | hpublish | hback
      · exact .inl (.inl hold)
      · refine .inl (.inr fun hin => ?_)
        have hlt := h.numbered m hin
        rw [hnumber m hpublish] at hlt
        exact lt_irrefl _ hlt
      · exact .inr hback
  · refine .inl (.inr fun hin => hnew ?_)
    rcases hstep.published with heq | ⟨body, heq⟩
    · exact heq ▸ hin
    · exact heq ▸ List.mem_append_left _ hin

/-- A step that neither takes nor commits the message. -/
theorem Balance.step {pending : Finset Nat} (h : Balance m n pending s) (hn : n ≤ n')
    (hcommits : s'.commitsOf m = s.commitsOf m)
    (hwaiting : s'.broker.Waiting m ∨ m ∉ s'.published →
      (s.broker.Waiting m ∨ m ∉ s.published) ∨ n < n') : Balance m n' pending s' where
  total := by
    have htotal := h.total
    rw [hcommits]
    omega
  waiting hm := by
    rw [hcommits]
    rcases hwaiting hm with hbefore | hlt
    · exact (h.waiting hbefore).trans hn
    · have htotal := h.total
      omega

theorem Balance.takes {pending : Finset Nat} {pid : Nat} (h : Balance m n pending s) (hn : n ≤ n')
    (hcommits : s'.commitsOf m = s.commitsOf m) (hbefore : s.broker.Waiting m)
    (hafter : ¬ (s'.broker.Waiting m ∨ m ∉ s'.published)) :
    Balance m n' (insert pid pending) s' where
  total := by
    have hcard := Finset.card_insert_le pid pending
    have hwaiting := h.waiting (.inl hbefore)
    rw [hcommits]
    omega
  waiting hm := absurd hm hafter

theorem Balance.commits {pending : Finset Nat} {pid : Nat} (h : Balance m n pending s) (hn : n ≤ n')
    (hcommits : (s'.commitsOf m).length = (s.commitsOf m).length + 1) (hpid : pid ∈ pending)
    (hwaiting : s'.broker.Waiting m ∨ m ∉ s'.published →
      (s.broker.Waiting m ∨ m ∉ s.published) ∨ n < n') : Balance m n' (pending.erase pid) s' := by
  have hcard := Finset.card_erase_add_one hpid
  have htotal := h.total
  refine ⟨by omega, fun hm => ?_⟩
  rcases hwaiting hm with hbefore | hlt
  · have hold := h.waiting hbefore
    omega
  · omega

/-- An operation of a process that handles another message, or none. -/
theorem commitsOf_other {pid : Nat} {message : Option Message} {v v' : View} {e : Event Op.Res}
    (h : View.Effect pid message v e v') (hm : message ≠ some m) :
    v'.server.data.commits.filter (·.message = some m) =
      v.server.data.commits.filter (·.message = some m) := by
  obtain ⟨s₁, hidles, hserves⟩ := effect_server h
  rw [hidles.data]
  rcases hserves.data with heq | ⟨ss, heq⟩
  · rw [heq]
  · rw [heq, Ledger.commit, List.filter_append]
    simp [hm]

theorem Accounted.step (h : Accounted parse m n s) (hs : Reachable parse s)
    (hstep : Step parse s s') (hn : n ≤ n') (hback : PutBack m s s' → n < n') :
    Accounted parse m n' s' := by
  obtain ⟨pending, howed, hbalance⟩ := h
  have hwaiting := fun hm => (hstep.waiting_before hs hm).imp_right hback
  cases hstep with
  | publish | deliver | disconnect => exact ⟨pending, howed, hbalance.step hn rfl hwaiting⟩
  | spawn hp =>
    refine ⟨pending, howed.update (fun _ _ hin => hin) ?_, hbalance.step hn rfl hwaiting⟩
    rintro p' a ⟨⟩ ⟨⟩
  | crash hbroker =>
    refine ⟨pending, howed.update (fun _ _ hin => hin) ?_, hbalance.step hn rfl hwaiting⟩
    rintro p' a ⟨⟩
  | finish hp hactivity =>
    refine ⟨pending, howed.update (fun _ _ hin => hin) ?_, hbalance.step hn rfl hwaiting⟩
    rintro p' a ⟨⟩ ⟨⟩
  | connectDb hp hidle hmq =>
    refine ⟨pending, howed.update (fun _ _ hin => hin) ?_, hbalance.step hn rfl hwaiting⟩
    rintro p' a ⟨⟩ ⟨⟩ ⟨⟩
  | @connectMq pid p broker hp hidle hdb hmq hbroker =>
    refine ⟨pending, howed.update (fun _ _ hin => hin) ?_, hbalance.step hn rfl hwaiting⟩
    rintro p' a ⟨⟩ ha
    change p.activity = some a at ha
    rw [hidle] at ha
    cases ha
  | @consume pid p d broker hp hidle hmq hbroker =>
    by_cases hd : d.message = m
    · subst hd
      obtain ⟨hbefore, hafter⟩ := hbroker.takes hs.exclusive
      refine ⟨insert pid pending,
        howed.update (fun _ _ hin => Finset.mem_insert_of_mem hin) ?_,
        hbalance.takes hn rfl hbefore ?_⟩
      · rintro p' a ⟨⟩ ⟨⟩ -
        exact ⟨[], Busy.begin (.message d) ((hs.inv.sound pid p hp).idle hidle),
          fun _ => Finset.mem_insert_self ..⟩
      · rintro (hwaits | hnew)
        · exact hafter hwaits
        · exact hnew (hs.honest.held _ hbefore.held)
    · refine ⟨pending, howed.update (fun _ _ hin => hin) ?_, hbalance.step hn rfl hwaiting⟩
      rintro p' a ⟨⟩ ⟨⟩ hm
      exact absurd (Option.some.inj hm) hd
  | @operation pid p job op k r v hp hactivity heffect =>
    by_cases hm : job.message? = some m
    · obtain ⟨own, hbusy, hown⟩ := howed pid p _ hp hactivity hm
      let p' : Process := { p with sessions := v.server.sessions, activity := some ⟨job, k r⟩ }
      obtain ⟨own', hbusy', halike⟩ := hbusy.operation p' (effect_server heffect) rfl rfl
      have hmq : ∀ d, job = .message d → p.worker.mq.connected = true :=
        fun d hd => ((hs.inv.sound pid p hp).handles _ d hactivity hd).1
      have hledger : (s.proceed pid p ⟨job, k r⟩ v).ledger = v.server.data := rfl
      generalize v.server.data = l at halike hledger
      cases halike with
      | nothing =>
        have hcommits : (s.proceed pid p ⟨job, k r⟩ v).commitsOf m = s.commitsOf m := by
          rw [commitsOf, hledger]
          rfl
        refine ⟨pending, howed.update (fun _ _ hin => hin) ?_, hbalance.step hn hcommits hwaiting⟩
        rintro _ a ⟨⟩ ⟨⟩ -
        exact ⟨own, hbusy', hown⟩
      | commit ss =>
        -- it is the first transaction of this activity, so the process was still to commit
        have hpid : pid ∈ pending := hown (Busy.committed hbusy' hmq).first.1
        have hcommits : ((s.proceed pid p ⟨job, k r⟩ v).commitsOf m).length =
            (s.commitsOf m).length + 1 := by
          rw [commitsOf, hledger]
          simp [Ledger.commit, List.filter_append, hm, commitsOf]
        refine ⟨pending.erase pid, howed.update ?_ ?_, hbalance.commits hn hcommits hpid hwaiting⟩
        · exact fun pid' hpid' hin => Finset.mem_erase.mpr ⟨hpid', hin⟩
        · rintro _ a ⟨⟩ ⟨⟩ -
          exact ⟨_, hbusy', fun hnil => by simp [Server.record] at hnil⟩
    · have hcommits : (s.proceed pid p ⟨job, k r⟩ v).commitsOf m = s.commitsOf m :=
        commitsOf_other heffect hm
      refine ⟨pending, howed.update (fun _ _ hin => hin) ?_, hbalance.step hn hcommits hwaiting⟩
      rintro p' a ⟨⟩ ⟨⟩ hm'
      exact absurd hm' hm

theorem Requeued.accounted (h : Requeued parse m n s) : Accounted parse m n s := by
  induction h with
  | start => exact ⟨∅, nofun, ⟨Nat.zero_le _, fun _ => Nat.le_refl _⟩⟩
  | back h hstep hback ih =>
    exact ih.step h.reachable hstep (Nat.le_succ _) fun _ => Nat.lt_succ_self _
  | step h hstep hkept ih =>
    exact ih.step h.reachable hstep (Nat.le_refl _) fun hback => absurd hback hkept

/-- A message is stored at most once more than the broker has put it back, and at least once
    when the broker has it no longer. -/
theorem Requeued.commits_bounded (h : Requeued parse m n s) :
    (s.commitsOf m).length ≤ n + 1 ∧
    (m ∈ s.published → ¬ s.broker.Held m →
      ∀ submission, JudgeEngine.parseMessage parse m.body = some submission →
        0 < (s.commitsOf m).length) := by
  obtain ⟨pending, -, hbalance⟩ := h.accounted
  refine ⟨(Nat.le_add_right _ _).trans hbalance.total, fun hm hheld submission hparse => ?_⟩
  obtain ⟨cfg, tr, result, c, -, hc, hmessage, -⟩ :=
    (h.reachable.inv.kept m hm submission hparse).resolve_left hheld
  exact List.length_pos_of_mem (List.mem_filter.mpr ⟨hc, by simpa using hmessage⟩)

/-- The acknowledgement of a stored message can get lost, and then the message is stored
    again. -/
theorem sample_repeated : ∃ s, Reachable JudgeEngine.sampleParse s ∧
    (s.commitsOf sampleQueued).length = 2 := by
  obtain ⟨tr, result, hjudge, hbox⟩ := JudgeEngine.judge_can_return {} JudgeEngine.sampleMessage
  have hsent : sampleBroker.Held sampleQueued :=
    .inr ⟨0, sampleDelivery, by simp [sampleBroker, Queue.Channel.outstanding], rfl⟩
  obtain ⟨s₁, ss₁, hlater₁, -, hledger₁, -, hheld⟩ :=
    Later.stored true (s := solo sampleBroker _ sampleProcess) hsent sampleQueued_parses hjudge
      (one_candidate hbox)
  obtain ⟨s₂, ss₂, hlater₂, -, hledger₂, -⟩ :=
    Later.stored false (hheld rfl) sampleQueued_parses hjudge (one_candidate hbox)
  refine ⟨s₂, (sample_reachable.later hlater₁).later hlater₂, ?_⟩
  rw [commitsOf, hledger₂, hledger₁]
  simp [Ledger.commit, solo]

theorem commits_sample :
    (∃ n s, Requeued JudgeEngine.sampleParse sampleQueued n s ∧
      (s.commitsOf sampleQueued).length = 2 ∧ 2 ≤ n + 1) ∧
    ∃ n s, Requeued JudgeEngine.sampleParse sampleQueued n s ∧
      0 < (s.commitsOf sampleQueued).length := by
  obtain ⟨s, hs, hlength⟩ := sample_repeated
  obtain ⟨n, h⟩ := hs.requeued sampleQueued
  obtain ⟨s', hs', hpublished, hsettled, -⟩ := sample_judged
  obtain ⟨n', h'⟩ := hs'.requeued sampleQueued
  refine ⟨⟨n, s, h, hlength, ?_⟩, n', s', h', ?_⟩
  · rw [← hlength]
    exact h.commits_bounded.1
  · refine h'.commits_bounded.2 ?_ hsettled JudgeEngine.sampleMessage sampleQueued_parses
    rw [hpublished]
    exact List.mem_singleton_self _

end Deployment
