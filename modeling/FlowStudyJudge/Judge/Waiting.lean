-- SUMMARY: Calls of `judge` that share the pool come to an end: a call waits only for boxes that others will release, unless exceptions have taken them all.
import FlowStudyJudge.Effects.Rest
import FlowStudyJudge.Judge.BoxPool

/-! # Waiting for boxes -/

namespace BoxPool

open Threads

variable {ι : Type} [DecidableEq ι] {cfg : IsolateConfig} {boxIds : List Int} {c c' : Calls ι}
  {i : ι}

/-- Every operation but `acquire` can be answered, whatever the pool has. -/
theorem serves_other {op : Op} (h : op ≠ .acquire) (available : List Int) :
    ∃ r available', Serves available ⟨op, r⟩ available' := by
  by_cases hrelease : ∃ boxId, op = .release boxId
  · obtain ⟨boxId, rfl⟩ := hrelease
    exact ⟨(), _, .release⟩
  · exact ⟨(Host.fixed (fun _ => none) op ()).1, _,
      .other h fun boxId hop => hrelease ⟨boxId, hop⟩⟩

/-- A call goes on, or an exception has left it, or it waits in `acquire` for a box. -/
theorem Reachable.goes_or_waits (h : Reachable cfg boxIds c)
    {t : Thread Op.Res Abort JudgeResultInternal} (hi : c.thread i = some t) :
    Raised c i ∨ (∃ c', Goes Serves i c c') ∨ (heldBy c i = [] ∧ c.world = []) := by
  obtain ⟨issued, rest⟩ := t
  cases rest with
  | done result => exact .inr (.inl ⟨_, .return hi⟩)
  | raise x => exact .inl ⟨issued, x, hi⟩
  | exec op k =>
    by_cases hop : op = .acquire
    · subst hop
      obtain ⟨-, ⟨submission, rfl⟩, hreaches⟩ := h.sound i _ hi
      have hnil : issued = [] := judge_acquires hreaches
      subst hnil
      cases hworld : c.world with
      | nil => exact .inr (.inr ⟨by simp [heldBy, held, hi, Host.acquired], rfl⟩)
      | cons boxId available =>
        have hserves : Serves c.world ⟨.acquire, boxId⟩ available := by
          rw [hworld]
          exact .acquire
        exact .inr (.inl ⟨_, .exec hi hserves⟩)
    · obtain ⟨r, available', hserves⟩ := serves_other hop c.world
      exact .inr (.inl ⟨_, .exec hi hserves⟩)

/-- Where no call goes on, every call has been left by an exception, or calls that were have
    all the boxes. -/
theorem Reachable.at_rest (hnodup : boxIds.Nodup) (h : Reachable cfg boxIds c)
    (hrest : ∀ i c', ¬ Goes Serves i c c') :
    (∀ i t, c.thread i = some t → Raised c i) ∨
      ∀ boxId ∈ boxIds, ∃ i, Raised c i ∧ boxId ∈ heldBy c i := by
  have hstuck : ∀ i t, c.thread i = some t → Raised c i ∨ (heldBy c i = [] ∧ c.world = []) := by
    intro i t hi
    rcases h.goes_or_waits hi with hraised | ⟨c', hgoes⟩ | hwaits
    · exact .inl hraised
    · exact absurd hgoes (hrest i c')
    · exact .inr hwaits
  by_cases hall : ∀ i t, c.thread i = some t → Raised c i
  · exact .inl hall
  · -- some call waits, so the pool is empty, and whoever has a box does not wait
    simp only [not_forall] at hall
    obtain ⟨i, t, hi, hnot⟩ := hall
    have hempty : c.world = [] := ((hstuck i t hi).resolve_left hnot).2
    refine .inr fun boxId hbox => ?_
    rcases ((h.conserved hnodup).complete boxId).mp hbox with havailable | ⟨j, hj⟩
    · rw [hempty] at havailable
      cases havailable
    · refine ⟨j, ?_, hj⟩
      cases hthread : c.thread j with
      | none => simp [heldBy, held, hthread] at hj
      | some t' =>
        refine (hstuck j t' hthread).resolve_right ?_
        rintro ⟨hnone, -⟩
        rw [hnone] at hj
        cases hj

/-- Calls of `judge` come to an end under every schedule: they do not go on for ever, and
    when none of them can go on, all have returned or thrown, or there is no box that a call
    that threw has not taken with it. -/
theorem Reachable.calls_end {count : Int} {tr : Trace Op.Res}
    (hmake : (make cfg count).Runs tr (.ok boxIds)) (h : Reachable cfg boxIds c) :
    Acc (fun c₂ c₁ => ∃ i, Goes Serves i c₁ c₂) c ∧
    ∀ c', Relation.ReflTransGen (fun c₁ c₂ => ∃ i, Goes Serves i c₁ c₂) c c' →
      (∀ i c'', ¬ Goes Serves i c' c'') →
      (∀ i t, c'.thread i = some t → Raised c' i) ∨
        ∀ boxId ∈ boxIds, ∃ i, Raised c' i ∧ boxId ∈ heldBy c' i := by
  constructor
  · obtain ⟨S, hidle⟩ := Threads.Reachable.idleOutside h
    exact hidle.acc
  · intro c' hlater hrest
    have hreach : Reachable cfg boxIds c' := by
      clear hrest
      induction hlater with
      | refl => exact h
      | tail _ hgoes ih =>
        obtain ⟨i, hgoes⟩ := hgoes
        exact ih.step hgoes.step
    obtain rfl : boxIds = initialised cfg count tr := Except.ok.inj (make_runs hmake)
    exact hreach.at_rest (initialised_nodup cfg count tr) hrest

theorem calls_end_bothAcquired :
    Acc (fun c₂ c₁ => ∃ i, Goes Serves i c₁ c₂) bothAcquired ∧
    ∀ c', Relation.ReflTransGen (fun c₁ c₂ => ∃ i, Goes Serves i c₁ c₂) bothAcquired c' →
      (∀ i c'', ¬ Goes Serves i c' c'') →
      (∀ i t, c'.thread i = some t → Raised c' i) ∨
        ∀ boxId ∈ ([1, 3] : List Int), ∃ i, Raised c' i ∧ boxId ∈ heldBy c' i :=
  bothAcquired_reachable.calls_end make_three

end BoxPool
