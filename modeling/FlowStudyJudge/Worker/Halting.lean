-- SUMMARY: How far `on_message` gets: a delivery is settled exactly when it has a box, no meta file throws and the database client is left with a handle.
import FlowStudyJudge.Judge.Waiting
import FlowStudyJudge.Worker.Pool

/-! # Deliveries to their end

`on_message` can fail to settle its delivery in three ways: it waits for a box for ever, an
exception leaves it, or the database client ends the process. -/

open Host

namespace MySQLClient

variable {c db : MySQLClient} {tr : Trace Op.Res}

/-- A result transaction ends the process exactly where the client is up without a handle. -/
theorem Transacted.toBool_eq_false_iff {stmts : List Stmt} {out : Except Abort Bool}
    (h : c.Transacted stmts tr out) :
    out.toBool = false ↔ c.connected = true ∧ c.conn = none := by
  cases h with
  | notConnected hconnected => simp [Except.toBool, hconnected]
  | noHandle hconnected hconn => simp [Except.toBool, hconnected, hconn]
  | notStarted hconnected hconn | started hconnected hconn => simp [Except.toBool, hconn]

/-- `ping` leaves it so when `mysql_init` fails while the flag of an earlier connection is
    set. -/
theorem Pinged.noHandle_iff {pinged : Bool} (h : c.Pinged tr (db, pinged)) :
    db.connected = true ∧ db.conn = none ↔ c.connected = true ∧ ⟨.mysqlInit, none⟩ ∈ tr := by
  have hconnect : ∀ {tr' : Trace Op.Res} {res : MySQLClient × Bool}, c.Connected tr' res →
      (res.1.connected = true ∧ res.1.conn = none ↔
        c.connected = true ∧ ⟨.mysqlInit, none⟩ ∈ tr') := by
    intro tr' res hc
    cases hc <;> simp
  cases h with
  | alive hconn hconnected => simp [hconn]
  | lost hconn hconnected hc => simpa using hconnect hc
  | notConnected hc => exact hconnect hc

theorem Transacted.noInit {stmts : List Stmt} {out : Except Abort Bool}
    (h : c.Transacted stmts tr out) : ⟨.mysqlInit, none⟩ ∉ tr := by
  have hsent : ∀ {conn : Handle} {stmts : List Stmt} {tr' : Trace Op.Res} {b : Bool},
      Sent conn stmts tr' b → ⟨.mysqlInit, none⟩ ∉ tr' := by
    intro conn stmts tr' b hs
    induction hs with
    | stmt hrest ih => simpa using ih
    | _ => simp
  cases h with
  | started hconnected hconn hs => simpa using hsent hs
  | _ => simp

end MySQLClient

namespace Worker

variable {parse : Bytes → Option Json} {w : Worker} {tag : UInt64} {body : Bytes}
  {submission : SubmissionMessage} {tr : Trace Op.Res}

/-! ## Whole runs -/

/-- A run on an accepted message begins with a box, and takes no other. -/
theorem Handled.acquires {out : Except Abort Worker} (h : w.Handled tag submission tr out) :
    ∃ boxId rest, tr = ⟨.acquire, boxId⟩ :: rest ∧ acquired rest = [] := by
  have hjudged : ∀ {judged : Trace Op.Res} (rest : Trace Op.Res)
      {out : Except Abort JudgeResultInternal},
      (JudgeEngine.judge w.isolate submission).Runs judged out → acquired rest = [] →
        ∃ boxId rest', judged ++ rest = ⟨.acquire, boxId⟩ :: rest' ∧ acquired rest' = [] := by
    intro judged rest out hjudge hrest
    obtain ⟨-, boxId, hacquired, -⟩ := JudgeEngine.judge_pool hjudge
    obtain ⟨first, tail, rfl⟩ : ∃ first tail, judged = ⟨.acquire, first⟩ :: tail := by
      cases JudgeEngine.judge_runs hjudge <;> exact ⟨_, _, rfl⟩
    have hnone : acquired tail = [] := (List.cons.inj hacquired).2
    exact ⟨first, tail ++ rest, rfl, by rw [acquired_append, hnone, hrest, List.append_nil]⟩
  cases h with
  | thrown hjudge =>
    obtain ⟨boxId, rest, htr, hnone⟩ := hjudged [] hjudge rfl
    rw [List.append_nil] at htr
    exact ⟨boxId, rest, htr, hnone⟩
  | acked hjudge hping hupdate | nacked hjudge hping hupdate =>
    refine hjudged _ hjudge ?_
    rw [acquired_append, acquired_append, (inner_database hping.only).acquired,
      (inner_database hupdate.only).acquired]
    rfl
  | crashed hjudge hping hupdate =>
    refine hjudged _ hjudge ?_
    rw [acquired_append, (inner_database hping.only).acquired,
      (inner_database hupdate.only).acquired]
    rfl

/-- What keeps a run on an accepted message from its settlement. -/
theorem Handled.toBool_eq {out : Except Abort Worker} (h : w.Handled tag submission tr out) :
    out.toBool = true ↔ allConvertible tr = true ∧
      (w.db.connected = true → ⟨.mysqlInit, none⟩ ∉ tr) := by
  have hquiet : ∀ {judged : Trace Op.Res} {out : Except Abort JudgeResultInternal},
      (JudgeEngine.judge w.isolate submission).Runs judged out → ⟨.mysqlInit, none⟩ ∉ judged := by
    intro judged out hjudge hmem
    have hnot := JudgeEngine.judge_noDatabase hjudge _ hmem
    cases hnot
  have hafter : ∀ {judged ping update : Trace Op.Res} (rest : Trace Op.Res)
      {result : JudgeResultInternal} {db : MySQLClient} {pinged : Bool}
      {stored : Except Abort Bool},
      (JudgeEngine.judge w.isolate submission).Runs judged (.ok result) →
      w.db.Pinged ping (db, pinged) →
      db.Transacted (resultStmts submission (dbResult submission result)) update stored →
      allConvertible rest = true → ⟨.mysqlInit, none⟩ ∉ rest →
      (stored.toBool = true ↔ allConvertible (judged ++ (ping ++ (update ++ rest))) = true ∧
        (w.db.connected = true →
          ⟨.mysqlInit, none⟩ ∉ judged ++ (ping ++ (update ++ rest)))) := by
    intro judged ping update rest result db pinged stored hjudge hping hupdate hrest hnone
    have hconvertible : allConvertible (judged ++ (ping ++ (update ++ rest))) = true := by
      rw [allConvertible_append, allConvertible_append, allConvertible_append,
        ← JudgeEngine.judge_toBool_eq hjudge, allConvertible_database hping.only,
        allConvertible_database hupdate.only, hrest]
      rfl
    have hmem : ⟨.mysqlInit, none⟩ ∈ judged ++ (ping ++ (update ++ rest)) ↔
        (⟨.mysqlInit, none⟩ : Event Op.Res) ∈ ping := by
      simp only [List.mem_append, hquiet hjudge, hupdate.noInit, hnone, false_or, or_false]
    rw [hmem, ← Bool.not_eq_false, hupdate.toBool_eq_false_iff, hping.noHandle_iff]
    simp [hconvertible]
  cases h with
  | thrown hjudge =>
    rw [← JudgeEngine.judge_toBool_eq hjudge]
    exact ⟨nofun, fun h => absurd h.1 nofun⟩
  | acked hjudge hping hupdate =>
    exact hafter _ hjudge hping hupdate rfl (by simp)
  | nacked hjudge hping hupdate =>
    exact hafter _ hjudge hping hupdate rfl (by simp)
  | crashed hjudge hping hupdate =>
    have hall := hafter [] hjudge hping hupdate rfl (by simp)
    rw [List.append_nil] at hall
    exact hall

/-- A run that returns has settled the delivery once and given back the box that it took. -/
theorem onMessage_returns {w' : Worker} (hmq : w.mq.connected = true)
    (h : (w.onMessage parse tag body).Runs tr (.ok w')) :
    (settlements tr = [.basicAck tag] ∨ settlements tr = [.basicNack tag]) ∧
      released tr = acquired tr := by
  cases hparse : JudgeEngine.parseMessage parse body with
  | none =>
    obtain ⟨b, rfl, -⟩ := onMessage_rejected_runs hmq hparse h
    exact ⟨.inl rfl, rfl⟩
  | some submission =>
    generalize hout : (Except.ok w' : Except Abort Worker) = out at h
    cases onMessage_accepted_runs hmq hparse h with
    | thrown | crashed => cases hout
    | acked hjudge hping hupdate | nacked hjudge hping hupdate =>
      obtain ⟨hsettled, boxId, hacquired, hreleased⟩ := JudgeEngine.judge_pool hjudge
      have hpingInner := inner_database hping.only
      have hupdateInner := inner_database hupdate.only
      simp only [settlements_append, acquired_append, released_append, hsettled, hacquired,
        hreleased, hpingInner.settlements, hpingInner.acquired, hpingInner.released,
        hupdateInner.settlements, hupdateInner.acquired, hupdateInner.released]
      simp [Except.toBool, settlements, acquired, released]

/-! ## Runs as far as they get -/

/-- `on_message` waits for a box, if at all, before it has done anything. -/
theorem onMessage_acquires (hmq : w.mq.connected = true) {k : Int → Comp Worker}
    (h : (w.onMessage parse tag body).Reaches tr (.exec .acquire k)) :
    tr = [] ∧ (JudgeEngine.parseMessage parse body).isSome := by
  obtain ⟨rest, out, hruns⟩ := (h.snoc (0 : Int)).completes (Host.fixed fun _ => none) ()
  cases hparse : JudgeEngine.parseMessage parse body with
  | none =>
    obtain ⟨b, htr, -⟩ := onMessage_rejected_runs hmq hparse hruns
    have hnone := congrArg acquired htr
    rw [acquired_append, acquired_append] at hnone
    have hlength := congrArg List.length hnone
    simp [acquired] at hlength
  | some submission =>
    obtain ⟨boxId, tail, htr, hnone⟩ := (onMessage_accepted_runs hmq hparse hruns).acquires
    refine ⟨?_, rfl⟩
    cases tr with
    | nil => rfl
    | cons e tr =>
      obtain ⟨-, rfl⟩ := List.cons.inj htr
      change acquired ((tr ++ [⟨.acquire, (0 : Int)⟩]) ++ rest) = [] at hnone
      rw [acquired_append, acquired_append] at hnone
      have hlength := congrArg List.length hnone
      simp [acquired] at hlength

/-- The delivery is settled: `on_message` has returned, it has issued one settlement, of this
    delivery, and every box it took is back in the pool. -/
structure Settled (tag : UInt64) (tr : Trace Op.Res) (q : Comp Worker) : Prop where
  returned : ∃ w', q = .done w'
  once : settlements tr = [.basicAck tag] ∨ settlements tr = [.basicNack tag]
  released : released tr = acquired tr

/-- What it takes to settle a delivery, from a pool with the given boxes. -/
structure Clear (parse : Bytes → Option Json) (w : Worker) (body : Bytes) (available : List Int)
    (tr : Trace Op.Res) : Prop where
  /-- There is a box for a message that is to be judged. -/
  box : (JudgeEngine.parseMessage parse body).isSome → available ≠ []
  /-- The meta files that are read convert. -/
  convertible : ∀ content ∈ metaContents tr, Sandbox.metaConvertible content = true
  /-- `mysql_init` does not fail while a lost connection is to be replaced. -/
  handle : w.db.connected = true → ⟨.mysqlInit, none⟩ ∉ tr

theorem clear_iff {available : List Int} :
    Clear parse w body available tr ↔
      ((JudgeEngine.parseMessage parse body).isSome → available ≠ []) ∧
        allConvertible tr = true ∧ (w.db.connected = true → ⟨.mysqlInit, none⟩ ∉ tr) := by
  rw [allConvertible, List.all_eq_true]
  exact ⟨fun h => ⟨h.box, h.convertible, h.handle⟩, fun h => ⟨h.1, h.2.1, h.2.2⟩⟩

/-- A whole run settles the delivery exactly when nothing was in its way. -/
theorem onMessage_settled_of_runs {out : Except Abort Worker} {available available' : List Int}
    (hmq : w.mq.connected = true) (h : (w.onMessage parse tag body).Runs tr out)
    (hpool : World.Path BoxPool.Serves available tr available') :
    Settled tag tr (.ofExcept id out) ↔ Clear parse w body available tr := by
  have hreturned : Settled tag tr (.ofExcept id out) ↔ out.toBool = true := by
    cases out with
    | ok w' =>
      obtain ⟨honce, hreleased⟩ := onMessage_returns hmq h
      exact ⟨fun _ => rfl, fun _ => ⟨⟨w', rfl⟩, honce, hreleased⟩⟩
    | error x =>
      refine ⟨fun hsettled => ?_, nofun⟩
      obtain ⟨w', hw'⟩ := hsettled.returned
      cases hw'
  rw [hreturned, clear_iff]
  cases hparse : JudgeEngine.parseMessage parse body with
  | none =>
    obtain ⟨b, rfl, rfl⟩ := onMessage_rejected_runs hmq hparse h
    exact ⟨fun _ => ⟨nofun, rfl, by simp⟩, fun _ => rfl⟩
  | some submission =>
    have hhandled := onMessage_accepted_runs hmq hparse h
    rw [hhandled.toBool_eq]
    refine ⟨fun hclear => ⟨fun _ => ?_, hclear⟩, And.right⟩
    -- a run that has taken a box began where there was one
    obtain ⟨boxId, rest, rfl, -⟩ := hhandled.acquires
    obtain ⟨s, hserves, -⟩ := World.path_cons.mp hpool
    rintro rfl
    cases hserves with
    | other hacquire => exact hacquire rfl

/-- A host on which a delivery goes through both meta files. -/
def cleanHost : Handler Op.Res Unit :=
  Host.fixed (Sandbox.boxFiles "time:0.020\nexitcode:0\n" "max-rss:9000\nexitcode:0\n" "1\n")

end Worker
