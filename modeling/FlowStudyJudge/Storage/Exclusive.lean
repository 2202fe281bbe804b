-- SUMMARY: A queue has one copy of each message: in the queue, or sent and outstanding on one channel.
import FlowStudyJudge.Storage.Queue
import Mathlib.Data.List.Perm.Subperm

/-! # One copy of each message

As long as no message is published twice, the broker never has two copies of one, and what
a consumer has taken is not sent again before the broker has put it back. -/

namespace Queue

variable {C T M : Type}

def Channel.messages (ch : Channel T M) : List M :=
  ch.outstanding.map (·.message)

namespace Broker

/-- The queue and any one channel hold a message once, and so do any two channels. -/
structure Exclusive (b : Broker C T M) : Prop where
  nodup : ∀ c, (b.ready ++ (b.channels c).messages).Nodup
  channels : ∀ c c' m, m ∈ (b.channels c).messages → m ∈ (b.channels c').messages → c = c'

/-- Not yet taken by a consumer. -/
def Waiting (b : Broker C T M) (m : M) : Prop :=
  m ∈ b.ready ∨ ∃ c, ∃ d ∈ (b.channels c).inbox, d.message = m

theorem Waiting.held {b : Broker C T M} {m : M} (h : b.Waiting m) : b.Held m := by
  rcases h with hready | ⟨c, d, hd, hm⟩
  · exact .inl hready
  · exact .inr ⟨c, d, List.mem_append_left _ hd, hm⟩

variable [DecidableEq C] [DecidableEq T] [DecidableEq M] {b b' : Broker C T M}
  {a : Action C T M} {c : C} {m : M}

omit [DecidableEq C] [DecidableEq T] [DecidableEq M] in
theorem mem_messages : m ∈ (b.channels c).messages ↔
    ∃ d ∈ (b.channels c).outstanding, d.message = m :=
  List.mem_map

omit [DecidableEq T] [DecidableEq M] in
/-- An update of the queue and of one channel that brings no new copy of anything. -/
theorem Exclusive.set {ready : List M} {ch : Channel T M} (h : b.Exclusive)
    (hsub : (ready ++ ch.messages).Subperm (b.ready ++ (b.channels c).messages)) :
    (Broker.set { b with ready } c ch).Exclusive := by
  have hold : ∀ m, m ∈ ready ∨ m ∈ ch.messages → m ∈ b.ready ∨ m ∈ (b.channels c).messages :=
    fun m hm => List.mem_append.mp (hsub.subset (List.mem_append.mpr hm))
  have hnew : (ready ++ ch.messages).Nodup := by
    obtain ⟨l, hperm, hsublist⟩ := hsub
    exact hperm.nodup_iff.mp ((h.nodup c).sublist hsublist)
  have hready : ready.Nodup := hnew.sublist (List.sublist_append_left ..)
  have hother : ∀ c' m, c' ≠ c → m ∈ (b.channels c').messages →
      ¬ (m ∈ ready ∨ m ∈ ch.messages) := by
    intro c' m hc' hm hin
    rcases hold m hin with hin | hin
    · exact List.disjoint_of_nodup_append (h.nodup c') hin hm
    · exact hc' (h.channels c' c m hm hin)
  constructor
  · intro c'
    by_cases hc' : c' = c
    · subst hc'
      rw [set_same]
      exact hnew
    · rw [set_ne _ ch hc']
      refine List.nodup_append'.mpr
        ⟨hready, (h.nodup c').sublist (List.sublist_append_right ..), ?_⟩
      exact fun m hin hm => hother c' m hc' hm (.inl hin)
  · intro c₁ c₂ m h₁ h₂
    by_cases hc₁ : c₁ = c <;> by_cases hc₂ : c₂ = c
    · rw [hc₁, hc₂]
    · rw [hc₁, set_same] at h₁
      rw [set_ne _ ch hc₂] at h₂
      exact absurd (.inr h₁) (hother c₂ m hc₂ h₂)
    · rw [hc₂, set_same] at h₂
      rw [set_ne _ ch hc₁] at h₁
      exact absurd (.inr h₂) (hother c₁ m hc₁ h₁)
    · rw [set_ne _ ch hc₁] at h₁
      rw [set_ne _ ch hc₂] at h₂
      exact h.channels c₁ c₂ m h₁ h₂

/-- Only the publication of a message that the broker has makes a second copy. -/
theorem Step.exclusive (h : Step b a b') (hb : b.Exclusive)
    (hfresh : ∀ m, a = .publish m → ¬ b.Held m) : b'.Exclusive := by
  cases h with
  | @publish m =>
    have hnot := hfresh m rfl
    refine ⟨fun c => ?_, hb.channels⟩
    have hperm : (m :: (b.ready ++ (b.channels c).messages)).Perm
        ((b.ready ++ [m]) ++ (b.channels c).messages) := by
      rw [List.append_assoc]
      exact List.perm_middle.symm
    refine hperm.nodup_iff.mp (List.nodup_cons.mpr ⟨fun hin => hnot ?_, hb.nodup c⟩)
    exact (List.mem_append.mp hin).imp_right fun hm => ⟨c, mem_messages.mp hm⟩
  | @openChannel c hclosed => exact hb.set (List.Subperm.refl _)
  | @deliver c tag m hopened hready hfresh =>
    let d : Delivery T M := ⟨tag, m⟩
    have hsent : (((b.channels c).inbox ++ [d]) ++ (b.channels c).unsettled).Perm
        (d :: (b.channels c).outstanding) := by
      rw [List.append_assoc]
      exact List.perm_middle
    have hready' : (m :: b.ready.erase m).Perm b.ready := (List.perm_cons_erase hready).symm
    exact hb.set (((((hsent.map (·.message)).append_left _).trans List.perm_middle).trans
      (hready'.append_right _)).subperm)
  | @take c d rest hinbox =>
    exact hb.set (((Channel.take_perm hinbox).map _).append_left _).subperm
  | @ack c tag =>
    exact hb.set (((Channel.settle_sublist _ _).map _).append_left _).subperm
  | @nack c tag =>
    have hparts : ((b.channels c).unsettled.filter (·.tag = tag) ++
        (b.channels c).unsettled.filter (·.tag ≠ tag)).Perm (b.channels c).unsettled := by
      simpa only [decide_not] using List.filter_append_perm (·.tag = tag) (b.channels c).unsettled
    have hback : ((b.channels c).unsettled.filter (·.tag = tag) ++
        ((b.channels c).settle tag).outstanding).Perm (b.channels c).outstanding :=
      (List.perm_append_comm_assoc ..).trans (hparts.append_left _)
    refine hb.set (List.Perm.subperm ?_)
    have hmessages := hback.map (·.message)
    rw [List.map_append] at hmessages
    rw [List.append_assoc]
    exact hmessages.append_left _
  | @close c =>
    refine hb.set (List.Perm.subperm ?_)
    simp [Channel.messages, Channel.outstanding]

/-! ## Deliveries -/

omit [DecidableEq T] [DecidableEq M] in
theorem Waiting.of_set {ready : List M} {ch : Channel T M}
    (h : (Broker.set { b with ready } c ch).Waiting m) :
    m ∈ ready ∨ (∃ d ∈ ch.inbox, d.message = m) ∨
      ∃ c', c' ≠ c ∧ ∃ d ∈ (b.channels c').inbox, d.message = m := by
  rcases h with hready | ⟨c', d, hd, hm⟩
  · exact .inl hready
  · by_cases hc' : c' = c
    · subst hc'
      rw [set_same] at hd
      exact .inr (.inl ⟨d, hd, hm⟩)
    · rw [set_ne _ ch hc'] at hd
      exact .inr (.inr ⟨c', hc', d, hd, hm⟩)

/-- A message waits because it waited before, has been published, or has been put back. -/
theorem Step.waiting_before (h : Step b a b') (hm : b'.Waiting m) :
    b.Waiting m ∨ a = .publish m ∨ (b.Unacknowledged m ∧ m ∈ b'.ready) := by
  have hother : ∀ {c : C}, (∃ c', c' ≠ c ∧ ∃ d ∈ (b.channels c').inbox, d.message = m) →
      b.Waiting m := fun ⟨c', _, hd⟩ => .inr ⟨c', hd⟩
  cases h with
  | @publish m₀ =>
    rcases hm with hready | hinbox
    · rcases List.mem_append.mp hready with hold | hnew
      · exact .inl (.inl hold)
      · exact .inr (.inl (congrArg _ (List.mem_singleton.mp hnew).symm))
    · exact .inl (.inr hinbox)
  | @openChannel c =>
    rcases hm.of_set with hready | hinbox | hrest
    · exact .inl (.inl hready)
    · exact .inl (.inr ⟨c, hinbox⟩)
    · exact .inl (hother hrest)
  | @deliver c tag m₀ hopened hready hfresh =>
    left
    rcases hm.of_set with hin | ⟨d, hd, rfl⟩ | hrest
    · exact .inl (List.mem_of_mem_erase hin)
    · rcases List.mem_append.mp hd with hold | hnew
      · exact .inr ⟨c, d, hold, rfl⟩
      · rw [List.mem_singleton.mp hnew]
        exact .inl hready
    · exact hother hrest
  | @take c d rest hinbox =>
    left
    rcases hm.of_set with hready | ⟨d', hd', hm'⟩ | hrest
    · exact .inl hready
    · refine .inr ⟨c, d', ?_, hm'⟩
      rw [hinbox]
      exact List.mem_cons_of_mem _ hd'
    · exact hother hrest
  | @ack c tag =>
    left
    rcases hm.of_set with hready | hinbox | hrest
    · exact .inl hready
    · exact .inr ⟨c, hinbox⟩
    · exact hother hrest
  | @nack c tag =>
    rcases hm.of_set with hready | hinbox | hrest
    · rcases List.mem_append.mp hready with hold | hback
      · exact .inl (.inl hold)
      · obtain ⟨d, hd, hdm⟩ := List.mem_map.mp hback
        have hunsettled : d ∈ (b.channels c).outstanding :=
          List.mem_append_right _ (List.mem_filter.mp hd).1
        exact .inr (.inr ⟨⟨c, d, hunsettled, hdm⟩, hready⟩)
    · exact .inl (.inr ⟨c, hinbox⟩)
    · exact .inl (hother hrest)
  | @close c =>
    rcases hm.of_set with hready | ⟨d, hd, -⟩ | hrest
    · rcases List.mem_append.mp hready with hold | hback
      · exact .inl (.inl hold)
      · obtain ⟨d, hd, hdm⟩ := List.mem_map.mp hback
        exact .inr (.inr ⟨⟨c, d, hd, hdm⟩, hready⟩)
    · cases hd
    · exact .inl (hother hrest)

/-- What a consumer takes has waited, and waits no longer. -/
theorem Step.takes {d : Delivery T M} (h : Step b (.take c d) b') (hb : b.Exclusive) :
    b.Waiting d.message ∧ ¬ b'.Waiting d.message := by
  cases h with
  | @take _ _ rest hinbox =>
    have hd : d ∈ (b.channels c).inbox := by
      rw [hinbox]
      exact List.mem_cons_self
    have hout : d.message ∈ (b.channels c).messages :=
      mem_messages.mpr ⟨d, List.mem_append_left _ hd, rfl⟩
    refine ⟨.inr ⟨c, d, hd, rfl⟩, fun hm => ?_⟩
    have hnodup := hb.nodup c
    rcases hm.of_set with hready | ⟨d', hd', heq⟩ | ⟨c', hc', d', hd', heq⟩
    · exact List.disjoint_of_nodup_append hnodup hready hout
    · have hmessages : (b.channels c).messages =
          d.message :: (rest ++ (b.channels c).unsettled).map (·.message) := by
        simp only [Channel.messages, Channel.outstanding, hinbox, List.cons_append, List.map_cons]
      rw [hmessages] at hnodup
      have htwice := (List.nodup_cons.mp hnodup.of_append_right).1
      exact htwice (List.mem_map.mpr ⟨d', List.mem_append_left _ hd', heq⟩)
    · refine hc' (hb.channels c' c d.message ?_ hout)
      exact mem_messages.mpr ⟨d', List.mem_append_left _ hd', heq⟩

end Broker

end Queue
