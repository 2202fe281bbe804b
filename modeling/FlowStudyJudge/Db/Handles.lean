-- SUMMARY: The handles of the MySQL client over its whole life: which of them are used, and which are closed.
import FlowStudyJudge.Db.Behaviour

/-! # Handles

A client lives through any calls of its methods and is destroyed then, unless one of them
ends the process. No method closes a handle; the destructor closes the one that the client
holds in the end. -/

namespace MySQLClient

inductive Call where
  | connect
  | ping
  | updateSubmission (result : JudgeResult)
  | updateCodeRun (result : JudgeResult)

/-- One call, and the object afterwards. -/
def perform (c : MySQLClient) : Call → Comp MySQLClient
  | .connect => do return (← c.connect).1
  | .ping => do return (← c.ping).1
  | .updateSubmission result => do
    let _ ← c.updateSubmission result
    return c
  | .updateCodeRun result => do
    let _ ← c.updateCodeRun result
    return c

def performAll (c : MySQLClient) : List Call → Comp MySQLClient
  | [] => return c
  | call :: rest => do performAll (← c.perform call) rest

/-- The destructor: the handles that it closes. -/
def destroy (c : MySQLClient) : List Handle :=
  c.conn.toList

/-! ## The life of a client -/

/-- The assignments of `connect`: `conn` with the answer of `mysql_init`, `connected` when
    `mysql_real_connect` has succeeded. -/
def assign (c : MySQLClient) (e : Event Op.Res) : MySQLClient :=
  match e with
  | ⟨.mysqlInit, conn⟩ => { c with conn }
  | ⟨.mysqlRealConnect _, true⟩ => { c with connected := true }
  | _ => c

/-- The object behind the events of `tr`, counted from its construction. -/
def fields (tr : Trace Op.Res) : MySQLClient :=
  tr.foldl assign {}

/-- The handles that `mysql_init` has returned. -/
def obtained (tr : Trace Op.Res) : List Handle :=
  tr.filterMap fun e =>
    match e with
    | ⟨.mysqlInit, conn⟩ => conn
    | _ => none

/-- The handles on which `mysql_real_connect` has succeeded. -/
def established (tr : Trace Op.Res) : List Handle :=
  tr.filterMap fun e =>
    match e with
    | ⟨.mysqlRealConnect conn, true⟩ => some conn
    | _ => none

/-- What should hold of a life with the events `tr` that ends as `out` says: with the
    destruction of a client, or with the process. -/
structure Sound (tr : Trace Op.Res) (out : Except Abort MySQLClient) : Prop where
  /-- `connected` means a handle that is connected, at any time. -/
  connected : ∀ before, before <+: tr → (fields before).connected = true →
    ∃ conn, (fields before).conn = some conn ∧ conn ∈ established before
  statements : ∀ before conn query ok after,
    tr = before ++ ⟨.mysqlQuery conn query, ok⟩ :: after →
    ∃ handle, conn = some handle ∧ handle ∈ established before
  /-- Before the destruction all handles that were obtained are open. -/
  single : ∀ before, before <+: tr → (obtained before).length ≤ 1
  closed : ∀ c, out = .ok c → c.destroy.Perm (obtained tr)

/-- `connect` is not entered while the client holds a handle. -/
def NeverReplaced (tr : Trace Op.Res) : Prop :=
  ∀ before conn after, tr = before ++ ⟨.mysqlInit, conn⟩ :: after → (fields before).conn = none

/-- What the methods do in the state `c`: they use the handle of the object, and send
    statements only when `connected` is set. -/
inductive Uses : World Op.Res MySQLClient where
  | init {c : MySQLClient} {conn : Option Handle} :
      Uses c ⟨.mysqlInit, conn⟩ (c.assign ⟨.mysqlInit, conn⟩)
  | realConnect {c : MySQLClient} {conn : Handle} {ok : Bool} (hconn : c.conn = some conn) :
      Uses c ⟨.mysqlRealConnect conn, ok⟩ (c.assign ⟨.mysqlRealConnect conn, ok⟩)
  | ping {c : MySQLClient} {conn : Handle} {ok : Bool} : Uses c ⟨.mysqlPing conn, ok⟩ c
  | query {c : MySQLClient} {query : Query} {ok : Bool} (hconnected : c.connected = true) :
      Uses c ⟨.mysqlQuery c.conn query, ok⟩ c

section

variable {c c' : MySQLClient} {tr : Trace Op.Res}

theorem Uses.eq {e : Event Op.Res} (h : Uses c e c') : c' = c.assign e := by
  cases h <;> rfl

theorem Uses.query_inv {conn : Option Handle} {query : Query} {ok : Bool}
    (h : Uses c ⟨.mysqlQuery conn query, ok⟩ c') : conn = c.conn ∧ c.connected = true := by
  cases h with
  | query hconnected => exact ⟨rfl, hconnected⟩

theorem Connected.uses {res : MySQLClient × Bool} (h : c.Connected tr res) :
    World.Path Uses c tr res.1 := by
  cases h with
  | noHandle => exact .cons .init .nil
  | refused => exact .cons .init (.cons (.realConnect rfl) .nil)
  | connected => exact .cons .init (.cons (.realConnect rfl) .nil)

theorem Pinged.uses {res : MySQLClient × Bool} (h : c.Pinged tr res) :
    World.Path Uses c tr res.1 := by
  cases h with
  | alive hconn hconnected => exact .cons .ping .nil
  | lost hconn hconnected hconnect => exact .cons .ping hconnect.uses
  | notConnected hconnect => exact hconnect.uses

theorem Sent.uses {conn : Handle} {stmts : List Stmt} {ok : Bool} (h : Sent conn stmts tr ok)
    (hquery : ∀ query ok, Uses c ⟨.mysqlQuery (some conn) query, ok⟩ c) :
    World.Path Uses c tr c := by
  induction h with
  | committed => exact .cons (hquery _ _) .nil
  | commitFailed | stmtFailed => exact .cons (hquery _ _) (.cons (hquery _ _) .nil)
  | stmt hrest ih => exact .cons (hquery _ _) ih

/-- From the state `c` on the client lives as the events say, and is then in the state of the
    outcome, or has ended the process with a query through a null handle. -/
inductive Lives (c : MySQLClient) : Trace Op.Res → Except Abort MySQLClient → Prop where
  | returned {c' : MySQLClient} {tr : Trace Op.Res} (huses : World.Path Uses c tr c') :
      Lives c tr (.ok c')
  | crashed {c' : MySQLClient} {tr : Trace Op.Res} {query : Query} {ok : Bool}
      (huses : World.Path Uses c (tr ++ [⟨.mysqlQuery none query, ok⟩]) c') :
      Lives c (tr ++ [⟨.mysqlQuery none query, ok⟩]) (.error .segfault)

theorem Lives.uses {out : Except Abort MySQLClient} (h : c.Lives tr out) :
    ∃ c', World.Path Uses c tr c' ∧ ∀ c'', out = .ok c'' → c'' = c' := by
  cases h with
  | returned huses => exact ⟨_, huses, fun _ hc => (Except.ok.inj hc).symm⟩
  | crashed huses => exact ⟨_, huses, nofun⟩

theorem Lives.after {tr₁ tr₂ : Trace Op.Res} {c₁ : MySQLClient} {out : Except Abort MySQLClient}
    (huses : World.Path Uses c tr₁ c₁) (h : c₁.Lives tr₂ out) : c.Lives (tr₁ ++ tr₂) out := by
  cases h with
  | returned hrest => exact .returned (World.path_append.mpr ⟨c₁, huses, hrest⟩)
  | crashed hrest =>
    have hall := World.path_append.mpr ⟨c₁, huses, hrest⟩
    rw [← List.append_assoc] at hall ⊢
    exact .crashed hall

theorem Transacted.lives {stmts : List Stmt} {out : Except Abort Bool}
    (h : c.Transacted stmts tr out) : c.Lives tr (out.map fun _ => c) := by
  have hquery : ∀ {conn}, c.connected = true → c.conn = conn → ∀ query ok,
      Uses c ⟨.mysqlQuery conn query, ok⟩ c := by
    rintro conn hconnected rfl query ok
    exact .query hconnected
  cases h with
  | notConnected h => exact .returned .nil
  | @noHandle b hconnected hconn =>
    have huses : World.Path Uses c ([] ++ [⟨.mysqlQuery none .startTransaction, b⟩]) c :=
      .cons (hquery hconnected hconn _ _) .nil
    exact .crashed huses
  | notStarted hconnected hconn => exact .returned (.cons (hquery hconnected hconn _ _) .nil)
  | started hconnected hconn hsent =>
    exact .returned
      (.cons (hquery hconnected hconn _ _) (hsent.uses (hquery hconnected hconn)))

/-- A call is its method, and a look at the object behind it. -/
theorem method_lives {α : Type} {method : Comp α} {object : α → MySQLClient}
    {out : Except Abort MySQLClient}
    (hmethod : ∀ {tr out}, method.Runs tr out → c.Lives tr (out.map object))
    (h : (method >>= fun a => Prog.done (object a)).Runs tr out) : c.Lives tr out := by
  rcases Prog.runs_bind.mp h with ⟨a, tr₁, tr₂, hruns, hdone, rfl⟩ | ⟨x, hruns, rfl⟩
  · obtain ⟨rfl, rfl⟩ := Prog.runs_done.mp hdone
    rw [List.append_nil]
    exact hmethod hruns
  · exact hmethod hruns

theorem perform_lives {call : Call} {out : Except Abort MySQLClient}
    (h : (c.perform call).Runs tr out) : c.Lives tr out := by
  cases call with
  | connect =>
    refine method_lives ?_ h
    intro tr out hruns
    obtain ⟨res, rfl, hconnected⟩ := connect_runs hruns
    exact .returned hconnected.uses
  | ping =>
    refine method_lives ?_ h
    intro tr out hruns
    obtain ⟨res, rfl, hpinged⟩ := ping_runs hruns
    exact .returned hpinged.uses
  | updateSubmission result | updateCodeRun result =>
    exact method_lives (fun hruns => (transaction_runs hruns).lives) h

theorem performAll_lives {calls : List Call} {out : Except Abort MySQLClient}
    (h : (c.performAll calls).Runs tr out) : c.Lives tr out := by
  induction calls generalizing c tr with
  | nil =>
    obtain ⟨rfl, rfl⟩ := Prog.runs_done.mp h
    exact .returned .nil
  | cons call rest ih =>
    rcases Prog.runs_bind.mp h with ⟨c₁, tr₁, tr₂, hcall, hrest, rfl⟩ | ⟨x, hcall, rfl⟩
    · obtain ⟨c₁', huses, hc₁⟩ := (perform_lives hcall).uses
      obtain rfl := hc₁ c₁ rfl
      exact .after huses (ih hrest)
    · exact perform_lives hcall

/-! ## Along a life -/

theorem path_fields {c₀ : MySQLClient} (h : World.Path Uses c₀ tr c) :
    c = tr.foldl assign c₀ := by
  induction h with
  | nil => rfl
  | cons hstep _ ih => rw [ih, hstep.eq, List.foldl_cons]

theorem fields_append (tr tr' : Trace Op.Res) :
    fields (tr ++ tr') = tr'.foldl assign (fields tr) :=
  List.foldl_append

theorem obtained_append (tr tr' : Trace Op.Res) :
    obtained (tr ++ tr') = obtained tr ++ obtained tr' :=
  List.filterMap_append

theorem established_append (tr tr' : Trace Op.Res) :
    established (tr ++ tr') = established tr ++ established tr' :=
  List.filterMap_append

/-- A handle that the object holds is an answer of `mysql_init`. -/
theorem conn_obtained {c₀ : MySQLClient} {handle : Handle}
    (h : (tr.foldl assign c₀).conn = some handle) :
    c₀.conn = some handle ∨ handle ∈ obtained tr := by
  induction tr generalizing c₀ with
  | nil => exact .inl h
  | cons e tr ih =>
    rcases ih h with hconn | hmem
    · obtain ⟨op, res⟩ := e
      cases op with
      | mysqlInit =>
        refine .inr ?_
        have hres : res = some handle := hconn
        subst hres
        exact List.mem_cons_self ..
      | mysqlRealConnect conn =>
        cases res <;> exact .inl hconn
      | _ => exact .inl hconn
    · refine .inr ?_
      rw [← List.singleton_append, obtained_append]
      exact List.mem_append_right _ hmem

/-- Where `mysql_init` returns no handle, the object comes to none. -/
theorem conn_none {c₀ : MySQLClient} (hconn : c₀.conn = none) (htr : obtained tr = []) :
    (tr.foldl assign c₀).conn = none := by
  cases hlast : (tr.foldl assign c₀).conn with
  | none => rfl
  | some handle =>
    rcases conn_obtained hlast with hfirst | hmem
    · cases hconn.symm.trans hfirst
    · rw [htr] at hmem
      cases hmem

/-- Each event of a life meets the object as the events in front of it have left it. -/
theorem uses_at {before after : Trace Op.Res} {e : Event Op.Res}
    (h : World.Path Uses {} (before ++ e :: after) c) :
    Uses (fields before) e (fields (before ++ [e])) := by
  obtain ⟨c₁, hbefore, hrest⟩ := World.path_append.mp h
  obtain ⟨c₂, hstep, hafter⟩ := World.path_cons.mp hrest
  have hc₁ : c₁ = fields before := path_fields hbefore
  have hc₂ : c₂ = fields (before ++ [e]) := by
    rw [hstep.eq, hc₁, fields_append]
    rfl
  rw [← hc₁, ← hc₂]
  exact hstep

/-- As long as no handle is replaced: the client holds all that it has obtained, and is
    connected on it when it says so. -/
structure Kept (tr : Trace Op.Res) (c : MySQLClient) : Prop where
  held : obtained tr = c.conn.toList
  established : c.connected = true → ∃ conn, c.conn = some conn ∧ conn ∈ established tr

theorem Kept.step {e : Event Op.Res} (h : Kept tr c) (hstep : Uses c e c')
    (hinit : e.op = .mysqlInit → c.conn = none) : Kept (tr ++ [e]) c' := by
  cases hstep with
  | @init _ conn =>
    have hnone := hinit rfl
    refine ⟨?_, ?_⟩
    · rw [obtained_append, h.held, hnone]
      cases conn <;> rfl
    · intro hconnected
      obtain ⟨conn, hconn, -⟩ := h.established hconnected
      rw [hnone] at hconn
      cases hconn
  | @realConnect _ conn ok hconn =>
    have hheld : obtained (tr ++ [⟨.mysqlRealConnect conn, ok⟩]) = c.conn.toList := by
      rw [obtained_append, h.held]
      exact List.append_nil _
    cases ok with
    | true =>
      refine ⟨hheld, fun _ => ⟨conn, hconn, ?_⟩⟩
      rw [established_append]
      exact List.mem_append_right _ (List.mem_cons_self ..)
    | false =>
      refine ⟨hheld, fun hconnected => ?_⟩
      obtain ⟨conn', hconn', hmem⟩ := h.established hconnected
      rw [established_append]
      exact ⟨conn', hconn', List.mem_append_left _ hmem⟩
  | ping | query =>
    refine ⟨?_, fun hconnected => ?_⟩
    · rw [obtained_append, h.held]
      exact List.append_nil _
    · obtain ⟨conn', hconn', hmem⟩ := h.established hconnected
      rw [established_append]
      exact ⟨conn', hconn', List.mem_append_left _ hmem⟩

theorem NeverReplaced.kept (h : NeverReplaced tr) (hpath : World.Path Uses {} tr c)
    {before : Trace Op.Res} (hbefore : before <+: tr) : Kept before (fields before) := by
  induction before using List.reverseRecOn with
  | nil =>
    refine ⟨rfl, fun hconnected => ?_⟩
    cases hconnected
  | append_singleton before e ih =>
    obtain ⟨after, rfl⟩ := hbefore
    rw [List.append_assoc] at h hpath
    have hkept := ih (List.append_assoc .. ▸ List.prefix_append ..)
    refine hkept.step (uses_at hpath) fun hinit => ?_
    obtain ⟨op, res⟩ := e
    cases hinit
    exact h before res after rfl

theorem NeverReplaced.sound {out : Except Abort MySQLClient} (h : NeverReplaced tr)
    (hpath : World.Path Uses {} tr c) (hout : ∀ c', out = .ok c' → c' = c) : Sound tr out := by
  refine ⟨?_, ?_, ?_, ?_⟩
  · intro before hbefore hconnected
    exact (h.kept hpath hbefore).established hconnected
  · intro before conn query ok after htr
    subst htr
    have hkept := h.kept hpath (List.prefix_append before _)
    obtain ⟨rfl, hconnected⟩ := (uses_at hpath).query_inv
    exact hkept.established hconnected
  · intro before hbefore
    rw [(h.kept hpath hbefore).held]
    exact Option.length_toList_le
  · rintro c' hc
    obtain rfl := hout c' hc
    have hfields : c' = fields tr := path_fields hpath
    rw [(h.kept hpath List.prefix_rfl).held, ← hfields]
    exact .refl _

/-- A handle that is replaced stays open: alone, with nothing left to close it, or beside
    another one. -/
theorem Sound.neverReplaced (h : Sound tr (.ok c)) (hfields : c = fields tr) :
    NeverReplaced tr := by
  intro before conn after htr
  cases hheld : (fields before).conn with
  | none => rfl
  | some handle =>
    exfalso
    have hmem : handle ∈ obtained before :=
      (conn_obtained hheld).resolve_left (fun hnone => by cases hnone)
    have hall : obtained tr = obtained before ++ obtained (⟨.mysqlInit, conn⟩ :: after) := by
      rw [htr, obtained_append]
    have hlater : obtained (⟨.mysqlInit, conn⟩ :: after) = [] := by
      have hsingle := h.single tr List.prefix_rfl
      rw [hall, List.length_append] at hsingle
      have hpos : 0 < (obtained before).length := List.length_pos_of_mem hmem
      exact List.length_eq_zero_iff.mp (by omega)
    have hconn : c.conn = none := by
      cases conn with
      | some conn => cases hlater
      | none =>
        rw [hfields, htr, fields_append, List.foldl_cons]
        exact conn_none rfl hlater
    have hclosed := h.closed c rfl
    rw [destroy, hconn, hall, hlater, List.append_nil] at hclosed
    rw [List.nil_perm.mp hclosed] at hmem
    cases hmem

/-- A query through a null handle is not sound. -/
theorem Sound.not_crashed {query : Query} {ok : Bool} {out : Except Abort MySQLClient}
    (h : Sound (tr ++ [⟨.mysqlQuery none query, ok⟩]) out) : False := by
  obtain ⟨_, hnone, -⟩ := h.statements tr none query ok [] rfl
  cases hnone

end

/-- The connection state is sound in the lives in which `connect` never meets a handle, and
    only in these. -/
theorem performAll_sound_iff {calls : List Call} {tr : Trace Op.Res}
    {out : Except Abort MySQLClient} (h : (performAll {} calls).Runs tr out) :
    Sound tr out ↔ NeverReplaced tr := by
  constructor
  · intro hsound
    cases performAll_lives h with
    | returned huses => exact hsound.neverReplaced (path_fields huses)
    | crashed => exact hsound.not_crashed.elim
  · intro hreplaced
    obtain ⟨c, huses, hout⟩ := (performAll_lives h).uses
    exact hreplaced.sound huses hout

theorem NeverReplaced.of_once {conn : Option Handle} {tr : Trace Op.Res}
    (h : Op.mysqlInit ∉ tr.map (·.op)) : NeverReplaced (⟨.mysqlInit, conn⟩ :: tr) := by
  intro before conn' after htr
  cases before with
  | nil => rfl
  | cons e before =>
    rw [List.cons_append, List.cons.injEq] at htr
    refine absurd ?_ h
    rw [htr.2, List.map_append]
    exact List.mem_append_right _ (List.mem_cons_self ..)

/-- A worker that connects and stores one verdict. -/
def storeOnce : Comp MySQLClient :=
  performAll {} [.connect, .ping, .updateCodeRun {}]

theorem performAll_sound_iff_storeOnce :
    Sound (storeOnce.trace (Host.fixed fun _ => none) ())
      (.ok { conn := some 0, connected := true }) :=
  (performAll_sound_iff (Prog.runs_trace_of_eval rfl)).mpr (.of_once (by decide))

/-- A server that is gone after the first connection. -/
def lostServer : Handler Op.Res Handle := fun op next =>
  match op with
  | .mysqlInit => (some next, next + 1)
  | .mysqlRealConnect conn => (conn == 0, next)
  | .mysqlPing _ => (false, next)
  | op => ((Host.fixed (fun _ => none) op ()).1, next)

/-- The ping fails, so does the connection that replaces the lost one, and the verdict is
    sent on a handle that was never connected. -/
theorem not_always_sound :
    ¬ ∀ (calls : List Call) (tr : Trace Op.Res) (out : Except Abort MySQLClient),
      (performAll {} calls).Runs tr out → Sound tr out := by
  intro h
  have hsound := h [.connect, .ping, .updateCodeRun {}] (storeOnce.trace lostServer 0)
    (.ok { conn := some 1, connected := true }) (Prog.runs_trace_of_eval rfl)
  obtain ⟨conn, hconn, hestablished⟩ := hsound.connected _ List.prefix_rfl rfl
  cases hconn
  have hfirst : established (storeOnce.trace lostServer 0) = [0] := rfl
  rw [hfirst] at hestablished
  exact absurd hestablished (by decide)

end MySQLClient
