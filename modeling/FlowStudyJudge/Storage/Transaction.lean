-- SUMMARY: Transactional storage behind unreliable connections: what a request does, what its failure leaves behind, and when a connection is idle.
import Mathlib.Init

/-! # Transactions over unreliable connections

Clients reach a store of type `D` through connections. A connection holds the
statements of its open transaction until they are committed together; their joint
effect on the store is `apply`. A request fails without effect, or with the loss of
the connection, which discards the open transaction. Where `answerLost` is allowed
the answer to a request that was carried out may also get lost. -/

namespace Tx

/-- A connection as the server and the client library see it together. -/
inductive Session (S : Type) where
  /-- The connection is up; `tx` holds the statements of the open transaction. -/
  | up (tx : Option (List S))
  /-- The connection is lost. `inTx` says whether the library still takes it to be
      inside a transaction, where it does not reconnect. -/
  | lost (inTx : Bool)

inductive Request (S : Type) where
  | start
  | commit
  | rollback
  | stmt (s : S)

variable {D S : Type}

/-- A request carried out on a connection with open transaction `tx`: the new store
    and the new open transaction. Outside of a transaction a statement commits by
    itself, and `start` commits a transaction that is still open. -/
def Request.serve (apply : List S → D → D) : Request S → D → Option (List S) →
    D × Option (List S)
  | .start, d, none => (d, some [])
  | .start, d, some ss => (apply ss d, some [])
  | .commit, d, none => (d, none)
  | .commit, d, some ss => (apply ss d, none)
  | .rollback, d, _ => (d, none)
  | .stmt s, d, none => (apply [s] d, none)
  | .stmt s, d, some ss => (d, some (ss ++ [s]))

/-- The answers to a request, with the store and the connection they leave. -/
inductive Answered (apply : List S → D → D) (answerLost : Bool) :
    D → Session S → Request S → Bool → D → Session S → Prop where
  | served {d d' : D} {tx tx' : Option (List S)} {q : Request S}
      (h : q.serve apply d tx = (d', tx')) :
      Answered apply answerLost d (.up tx) q true d' (.up tx')
  /-- Outside of a transaction the library reconnects silently. -/
  | reconnected {d d' : D} {tx' : Option (List S)} {q : Request S}
      (h : q.serve apply d none = (d', tx')) :
      Answered apply answerLost d (.lost false) q true d' (.up tx')
  /-- A request fails without effect; `rollback` never does so. -/
  | failed {d : D} {tx : Option (List S)} {q : Request S} (h : q ≠ .rollback) :
      Answered apply answerLost d (.up tx) q false d (.up tx)
  | dropped {d : D} {c : Session S} {q : Request S} :
      Answered apply answerLost d c q false d (.lost false)
  /-- The request was carried out, but the connection broke before the answer. -/
  | unanswered {d d' : D} {tx tx' : Option (List S)} {q : Request S} (h : answerLost = true)
      (hserve : q.serve apply d tx = (d', tx')) :
      Answered apply answerLost d (.up tx) q false d' (.lost false)

namespace Session

/-- A connection may break between two requests. -/
inductive Drops : Session S → Session S → Prop where
  | stays {c : Session S} : Drops c c
  | breaks {tx : Option (List S)} : Drops (.up tx) (.lost tx.isSome)

theorem Drops.trans {c₁ c₂ c₃ : Session S} (h : Drops c₁ c₂) (h' : Drops c₂ c₃) :
    Drops c₁ c₃ := by
  cases h with
  | stays => exact h'
  | breaks =>
    cases h'
    exact .breaks

/-- No transaction is open, and the library knows. -/
inductive Idle : Session S → Prop where
  | up : Idle (.up none)
  | lost : Idle (.lost false)

/-- The transaction with the statements `ss` is open, or the connection has been
    lost since it was opened. -/
inductive Open (ss : List S) : Session S → Prop where
  | up : Open ss (.up (some ss))
  | lost : Open ss (.lost true)

theorem Idle.drops {c c' : Session S} (h : Idle c) (hdrop : Drops c c') : Idle c' := by
  cases hdrop with
  | stays => exact h
  | breaks =>
    cases h
    exact .lost

theorem Open.drops {ss : List S} {c c' : Session S} (h : Open ss c) (hdrop : Drops c c') :
    Open ss c' := by
  cases hdrop with
  | stays => exact h
  | breaks =>
    cases h
    exact .lost

end Session

/-! ## Rules

What the client can conclude from an answer, request by request. -/

/-- A request leaves the store alone or applies one transaction to it. -/
theorem Request.serve_data {apply : List S → D → D} {q : Request S} {d d' : D}
    {tx tx' : Option (List S)} (h : q.serve apply d tx = (d', tx')) :
    d' = d ∨ ∃ ss, d' = apply ss d := by
  cases q with
  | start | commit =>
    cases tx with
    | none =>
      cases h
      exact .inl rfl
    | some ss =>
      cases h
      exact .inr ⟨ss, rfl⟩
  | rollback =>
    cases h
    exact .inl rfl
  | stmt s =>
    cases tx with
    | none =>
      cases h
      exact .inr ⟨[s], rfl⟩
    | some ss =>
      cases h
      exact .inl rfl

namespace Answered

variable {apply : List S → D → D} {answerLost : Bool} {d d' : D} {c c' : Session S}

theorem data {q : Request S} {b : Bool} (h : Answered apply answerLost d c q b d' c') :
    d' = d ∨ ∃ ss, d' = apply ss d := by
  cases h with
  | served hserve => exact Request.serve_data hserve
  | reconnected hserve => exact Request.serve_data hserve
  | failed | dropped => exact .inl rfl
  | unanswered hlost hserve => exact Request.serve_data hserve

/-- Opening a transaction on an idle connection leaves the store alone. -/
theorem start (h : Answered apply answerLost d c .start true d' c') (hc : c.Idle) :
    d' = d ∧ c'.Open [] := by
  cases h with
  | served hserve =>
    cases hc
    cases hserve
    exact ⟨rfl, .up⟩
  | reconnected hserve =>
    cases hserve
    exact ⟨rfl, .up⟩

theorem start_failed (h : Answered apply answerLost d c .start false d' c') (hc : c.Idle) :
    d' = d ∧ c'.Idle := by
  cases h with
  | failed => exact ⟨rfl, hc⟩
  | dropped => exact ⟨rfl, .lost⟩
  | unanswered hlost hserve =>
    cases hc
    cases hserve
    exact ⟨rfl, .lost⟩

/-- A statement that succeeds joins the open transaction: a lost connection would
    have failed it. -/
theorem stmt {ss : List S} {s : S} (h : Answered apply answerLost d c (.stmt s) true d' c')
    (hc : c.Open ss) : d' = d ∧ c'.Open (ss ++ [s]) := by
  cases h with
  | served hserve =>
    cases hc
    cases hserve
    exact ⟨rfl, .up⟩
  | reconnected hserve => cases hc

/-- After a failed statement the transaction is as it was, or the connection is idle. -/
theorem stmt_failed {ss : List S} {s : S}
    (h : Answered apply answerLost d c (.stmt s) false d' c') (hc : c.Open ss) :
    d' = d ∧ (c'.Open ss ∨ c'.Idle) := by
  cases h with
  | failed => exact ⟨rfl, .inl hc⟩
  | dropped => exact ⟨rfl, .inr .lost⟩
  | unanswered hlost hserve =>
    cases hc
    cases hserve
    exact ⟨rfl, .inr .lost⟩

/-- A commit that succeeds applies the whole transaction. -/
theorem commit {ss : List S} (h : Answered apply answerLost d c .commit true d' c')
    (hc : c.Open ss) : d' = apply ss d ∧ c'.Idle := by
  cases h with
  | served hserve =>
    cases hc
    cases hserve
    exact ⟨rfl, .up⟩
  | reconnected hserve => cases hc

/-- A commit that fails has applied nothing, unless answers can get lost. -/
theorem commit_failed {ss : List S} (h : Answered apply answerLost d c .commit false d' c')
    (hc : c.Open ss) :
    (d' = d ∨ answerLost = true ∧ d' = apply ss d) ∧ (c'.Open ss ∨ c'.Idle) := by
  cases h with
  | failed => exact ⟨.inl rfl, .inl hc⟩
  | dropped => exact ⟨.inl rfl, .inr .lost⟩
  | unanswered hlost hserve =>
    cases hc
    cases hserve
    exact ⟨.inr ⟨hlost, rfl⟩, .inr .lost⟩

/-- A rollback that succeeds leaves an idle connection; it fails only with the
    connection, which is then idle as well. -/
theorem rollback {b : Bool} {ss : List S}
    (h : Answered apply answerLost d c .rollback b d' c') (hc : c.Open ss ∨ c.Idle) :
    d' = d ∧ c'.Idle := by
  cases h with
  | served hserve =>
    cases hserve
    exact ⟨rfl, .up⟩
  | reconnected hserve =>
    cases hserve
    exact ⟨rfl, .up⟩
  | failed hq => exact absurd rfl hq
  | dropped => exact ⟨rfl, .lost⟩
  | unanswered hlost hserve =>
    cases hserve
    exact ⟨rfl, .lost⟩

end Answered

end Tx
