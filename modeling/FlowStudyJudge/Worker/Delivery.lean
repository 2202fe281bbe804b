-- SUMMARY: A delivery as the database server sees it: quiet up to the result transaction, and no transaction open behind it.
import FlowStudyJudge.Worker.Behaviour
import FlowStudyJudge.Db.Server

namespace Worker

theorem noQuery_of_noDatabase {tr : Trace Op.Res}
    (h : Trace.Only (fun op => !op.isDatabase) tr) :
    ∀ e ∈ tr, ∀ conn q, e.op ≠ .mysqlQuery conn q := by
  intro e he conn q hop
  have hnot := h e he
  rw [hop] at hnot
  cases hnot

section

variable {D : Type} {apply : List (Nat × Stmt) → D → D} {answerLost : Bool} {env : D → D → Prop}
  [IsPreorder D env] {w : Worker} {submission : SubmissionMessage} {result : JudgeResult}
  {judged ping update : Trace Op.Res} {db : MySQLClient} {pinged b : Bool}
  {out : Except Abort JudgeResultInternal} {s s' : Server D}

/-- Nothing changes before the transaction, which starts and ends with no transaction open. -/
theorem update_path (hjudge : (JudgeEngine.judge w.isolate submission).Runs judged out)
    (hping : w.db.Pinged ping (db, pinged))
    (hupdate : db.Transacted (resultStmts submission result) update (.ok b))
    (hpath : (Server.world apply answerLost env).Path s (judged ++ (ping ++ update)) s')
    (hidle : s.Idle) :
    s'.Idle ∧
      Server.Ends apply answerLost env (resultStmts submission result) s.data s'.data b := by
  obtain ⟨s₁, h₁, hrest₁⟩ := World.path_append.mp hpath
  obtain ⟨s₂, h₂, h₃⟩ := World.path_append.mp hrest₁
  have hjudgeQuiet := noQuery_of_noDatabase (JudgeEngine.judge_noDatabase hjudge)
  obtain ⟨henv₁, hidle₁⟩ := Server.path_quiet h₁ hjudgeQuiet hidle
  obtain ⟨henv₂, hidle₂⟩ := Server.path_quiet h₂ hping.noQuery hidle₁
  obtain ⟨hidle₃, hends⟩ := Server.transacted_path hupdate h₃ hidle₂
  exact ⟨hidle₃, hends.after (trans_of env henv₁ henv₂)⟩

/-- A delivery on which the client ends the process changes nothing. -/
theorem crashed_path {x : Abort} (hjudge : (JudgeEngine.judge w.isolate submission).Runs judged out)
    (hping : w.db.Pinged ping (db, pinged))
    (hupdate : db.Transacted (resultStmts submission result) update (.error x))
    (hpath : (Server.world apply answerLost env).Path s (judged ++ (ping ++ update)) s')
    (hidle : s.Idle) : s'.Idle ∧ env s.data s'.data := by
  obtain ⟨s₁, h₁, hrest₁⟩ := World.path_append.mp hpath
  obtain ⟨s₂, h₂, h₃⟩ := World.path_append.mp hrest₁
  have hjudgeQuiet := noQuery_of_noDatabase (JudgeEngine.judge_noDatabase hjudge)
  obtain ⟨henv₁, hidle₁⟩ := Server.path_quiet h₁ hjudgeQuiet hidle
  obtain ⟨henv₂, hidle₂⟩ := Server.path_quiet h₂ hping.noQuery hidle₁
  obtain ⟨hidle₃, henv₃⟩ := Server.crashed_path hupdate h₃ hidle₂
  exact ⟨hidle₃, trans_of env (trans_of env henv₁ henv₂) henv₃⟩

/-- A transaction that ends, with the settlement of the delivery behind it. -/
theorem delivery_path {settle : Event Op.Res}
    (hjudge : (JudgeEngine.judge w.isolate submission).Runs judged out)
    (hping : w.db.Pinged ping (db, pinged))
    (hupdate : db.Transacted (resultStmts submission result) update (.ok b))
    (hsettle : settle.op.isDatabase = false)
    (hpath : (Server.world apply answerLost env).Path s
      (judged ++ (ping ++ (update ++ [settle]))) s') (hidle : s.Idle) :
    s'.Idle ∧
      Server.Ends apply answerLost env (resultStmts submission result) s.data s'.data b := by
  rw [← List.append_assoc ping, ← List.append_assoc judged] at hpath
  obtain ⟨s₁, h₁, h₂⟩ := World.path_append.mp hpath
  obtain ⟨hidle₁, hends⟩ := update_path hjudge hping hupdate h₁ hidle
  have hquiet : ∀ e ∈ [settle], ∀ conn q, e.op ≠ .mysqlQuery conn q := by
    intro e he conn q hop
    obtain rfl := List.mem_singleton.mp he
    rw [hop] at hsettle
    cases hsettle
  obtain ⟨henv, hidle₂⟩ := Server.path_quiet h₂ hquiet hidle₁
  exact ⟨hidle₂, hends.before henv⟩

end

end Worker
