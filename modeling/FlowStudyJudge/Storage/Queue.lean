-- SUMMARY: A durable queue with manual acknowledgement: deliveries, settlements, redelivery, and the rule that only an acknowledgement takes a message away.
import Mathlib.Data.List.Nodup
import Mathlib.Logic.Function.Basic

/-! # Queues with manual acknowledgement

A broker keeps every message until a consumer acknowledges it. A delivery stays with the
channel it was sent on, first on its way to the consumer and then unsettled; when the
channel closes, the broker puts the messages of these deliveries back into the queue.
In which order messages are delivered is left open. -/

namespace Queue

structure Delivery (T M : Type) where
  tag : T
  message : M
  deriving DecidableEq

/-- The channel of one consumer, as the broker sees it. -/
structure Channel (T M : Type) where
  opened : Bool := false
  /-- Sent, but not yet taken by the consumer. -/
  inbox : List (Delivery T M) := []
  /-- Taken, but not yet acknowledged or rejected. -/
  unsettled : List (Delivery T M) := []
  /-- The tags given out since the channel was opened. -/
  used : List T := []

structure Broker (C T M : Type) where
  ready : List M
  channels : C → Channel T M

inductive Action (C T M : Type) where
  | publish (m : M)
  | openChannel (c : C)
  | deliver (c : C) (tag : T) (m : M)
  | take (c : C) (d : Delivery T M)
  | ack (c : C) (tag : T)
  /-- A rejection that asks for requeueing. -/
  | nack (c : C) (tag : T)
  | close (c : C)

variable {C T M : Type}

namespace Channel

def outstanding (ch : Channel T M) : List (Delivery T M) :=
  ch.inbox ++ ch.unsettled

/-- The unsettled deliveries but those with the tag. -/
def settle [DecidableEq T] (ch : Channel T M) (tag : T) : Channel T M :=
  { ch with unsettled := ch.unsettled.filter (·.tag ≠ tag) }

/-- No two outstanding deliveries have the same tag, and a closed channel has none. -/
structure Proper (ch : Channel T M) : Prop where
  closed : ch.opened = false → ch.outstanding = []
  distinct : (ch.outstanding.map (·.tag)).Nodup
  used : ∀ d ∈ ch.outstanding, d.tag ∈ ch.used

/-- A channel that keeps the tags and loses deliveries stays proper. -/
theorem Proper.sublist {ch ch' : Channel T M} (h : ch.Proper)
    (hsub : ch'.outstanding.Sublist ch.outstanding) (hused : ch'.used = ch.used)
    (hopened : ch'.opened = false → ch.opened = false ∨ ch'.outstanding = []) :
    ch'.Proper where
  closed hclosed := by
    refine (hopened hclosed).elim (fun hold => ?_) id
    rw [h.closed hold] at hsub
    exact List.sublist_nil.mp hsub
  distinct := h.distinct.sublist (hsub.map _)
  used d hd := by
    rw [hused]
    exact h.used d (hsub.subset hd)

theorem settle_sublist [DecidableEq T] (ch : Channel T M) (tag : T) :
    (ch.settle tag).outstanding.Sublist ch.outstanding :=
  List.filter_sublist.append_left _

/-- Taking a delivery moves it from the inbox. -/
theorem take_perm {ch : Channel T M} {d : Delivery T M} {rest : List (Delivery T M)}
    (h : ch.inbox = d :: rest) :
    (rest ++ d :: ch.unsettled).Perm ch.outstanding := by
  simp only [outstanding, h]
  exact List.perm_middle

end Channel

namespace Broker

variable [DecidableEq C]

def set (b : Broker C T M) (c : C) (ch : Channel T M) : Broker C T M :=
  { b with channels := Function.update b.channels c ch }

@[simp] theorem set_same (b : Broker C T M) (c : C) (ch : Channel T M) :
    (b.set c ch).channels c = ch := by
  simp [set]

theorem set_ne (b : Broker C T M) {c c' : C} (ch : Channel T M) (h : c' ≠ c) :
    (b.set c ch).channels c' = b.channels c' := by
  simp [set, h]

variable [DecidableEq T]

/-- The messages of the unsettled deliveries with the tag. -/
def tagged (b : Broker C T M) (c : C) (tag : T) : List M :=
  ((b.channels c).unsettled.filter (·.tag = tag)).map (·.message)

variable [DecidableEq M]

/-- What the broker does in one action. -/
inductive Step (b : Broker C T M) : Action C T M → Broker C T M → Prop where
  | publish {m : M} : Step b (.publish m) { b with ready := b.ready ++ [m] }
  /-- The tags of a channel begin anew when it is opened. -/
  | openChannel {c : C} (h : (b.channels c).opened = false) :
      Step b (.openChannel c) (b.set c { b.channels c with opened := true, used := [] })
  | deliver {c : C} {tag : T} {m : M} (hopened : (b.channels c).opened = true)
      (hready : m ∈ b.ready) (hfresh : tag ∉ (b.channels c).used) :
      Step b (.deliver c tag m)
        (set { b with ready := b.ready.erase m } c
          { b.channels c with
            inbox := (b.channels c).inbox ++ [⟨tag, m⟩]
            used := tag :: (b.channels c).used })
  | take {c : C} {d : Delivery T M} {rest : List (Delivery T M)}
      (h : (b.channels c).inbox = d :: rest) :
      Step b (.take c d)
        (b.set c { b.channels c with
                   inbox := rest
                   unsettled := d :: (b.channels c).unsettled })
  | ack {c : C} {tag : T} : Step b (.ack c tag) (b.set c ((b.channels c).settle tag))
  | nack {c : C} {tag : T} :
      Step b (.nack c tag)
        (set { b with ready := b.ready ++ b.tagged c tag } c ((b.channels c).settle tag))
  | close {c : C} :
      Step b (.close c)
        (set { b with ready := b.ready ++ (b.channels c).outstanding.map (·.message) } c
          { b.channels c with opened := false, inbox := [], unsettled := [] })

/-! ## What the broker still has -/

/-- Delivered, and neither acknowledged nor put back. -/
def Unacknowledged (b : Broker C T M) (m : M) : Prop :=
  ∃ c, ∃ d ∈ (b.channels c).outstanding, d.message = m

def Held (b : Broker C T M) (m : M) : Prop :=
  m ∈ b.ready ∨ b.Unacknowledged m

/-- The consumer of `c` has taken `d`: on this channel its tag can mean nothing else. -/
structure Owns (b : Broker C T M) (c : C) (d : Delivery T M) : Prop where
  used : d.tag ∈ (b.channels c).used
  only : ∀ d' ∈ (b.channels c).outstanding, d'.tag = d.tag → d' = d

def Proper (b : Broker C T M) : Prop :=
  ∀ c, (b.channels c).Proper

variable {b b' : Broker C T M} {a : Action C T M} {c : C} {d : Delivery T M} {m : M}

/-! ## One action -/

omit [DecidableEq T] [DecidableEq M] in
/-- The broker still has a message behind an update of its queue and of one channel, if
    the two do not drop it. -/
theorem Held.set {ready : List M} {ch : Channel T M} (h : b.Held m)
    (hready : m ∈ b.ready → m ∈ ready ∨ ∃ d ∈ ch.outstanding, d.message = m)
    (hch : ∀ d ∈ (b.channels c).outstanding, d.message = m →
      m ∈ ready ∨ ∃ d ∈ ch.outstanding, d.message = m) :
    (Broker.set { b with ready } c ch).Held m := by
  have hnew : m ∈ ready ∨ (∃ d ∈ ch.outstanding, d.message = m) →
      (Broker.set { b with ready } c ch).Held m := by
    intro hkept
    refine hkept.imp_right fun ⟨d, hd, hm⟩ => ⟨c, d, ?_, hm⟩
    rw [set_same]
    exact hd
  rcases h with hm | ⟨c', d, hd, hm⟩
  · exact hnew (hready hm)
  · by_cases hc : c' = c
    · subst hc
      exact hnew (hch d hd hm)
    · right
      refine ⟨c', d, ?_, hm⟩
      rw [set_ne _ ch hc]
      exact hd

/-- Only the acknowledgement of one of its deliveries takes a message from the broker. -/
theorem Step.held (h : Step b a b') (hm : b.Held m) :
    b'.Held m ∨ ∃ c tag, a = .ack c tag ∧
      ∃ d ∈ (b.channels c).outstanding, d.tag = tag ∧ d.message = m := by
  cases h with
  | publish => exact .inl (hm.imp_left fun hready => List.mem_append_left _ hready)
  | openChannel hclosed => exact .inl (hm.set .inl fun d hd hdm => .inr ⟨d, hd, hdm⟩)
  | @deliver c tag m₀ hopened hready hfresh =>
    left
    refine hm.set (fun hin => ?_) fun d hd hdm => ?_
    · by_cases heq : m = m₀
      · right
        exact ⟨⟨tag, m₀⟩, by simp [Channel.outstanding], heq.symm⟩
      · left
        exact (List.mem_erase_of_ne heq).mpr hin
    · right
      refine ⟨d, ?_, hdm⟩
      rcases List.mem_append.mp hd with hd | hd <;> simp [Channel.outstanding, hd]
  | @take c d rest hinbox =>
    left
    refine hm.set .inl fun d' hd' hdm => .inr ⟨d', ?_, hdm⟩
    simp only [Channel.outstanding, hinbox, List.mem_append, List.mem_cons] at hd' ⊢
    grind
  | @ack c tag =>
    by_cases hacked : ∃ d ∈ (b.channels c).outstanding, d.tag = tag ∧ d.message = m
    · exact .inr ⟨c, tag, rfl, hacked⟩
    · left
      refine hm.set .inl fun d hd hdm => .inr ⟨d, ?_, hdm⟩
      have htag : d.tag ≠ tag := fun htag => hacked ⟨d, hd, htag, hdm⟩
      simpa [Channel.outstanding, Channel.settle, htag] using hd
  | @nack c tag =>
    left
    refine hm.set (fun hin => .inl (List.mem_append_left _ hin)) fun d hd hdm => ?_
    rcases List.mem_append.mp hd with hin | hunsettled
    · right
      exact ⟨d, List.mem_append_left _ hin, hdm⟩
    · by_cases htag : d.tag = tag
      · left
        apply List.mem_append_right
        exact List.mem_map.mpr ⟨d, by simp [hunsettled, htag], hdm⟩
      · right
        exact ⟨d, by simp [Channel.outstanding, Channel.settle, hunsettled, htag], hdm⟩
  | @close c =>
    left
    refine hm.set (fun hin => .inl (List.mem_append_left _ hin)) fun d hd hdm => ?_
    left
    apply List.mem_append_right
    exact List.mem_map.mpr ⟨d, hd, hdm⟩

theorem Step.held_of_ne_ack (h : Step b a b') (ha : ∀ c tag, a ≠ .ack c tag) (hm : b.Held m) :
    b'.Held m := by
  rcases h.held hm with hheld | ⟨c, tag, hack, -⟩
  · exact hheld
  · exact absurd hack (ha c tag)

omit [DecidableEq T] [DecidableEq M] in
/-- What the broker has behind an update it has had before, if the update brings nothing new. -/
theorem Held.of_set {ready : List M} {ch : Channel T M}
    (h : (Broker.set { b with ready } c ch).Held m) (hready : m ∈ ready → b.Held m)
    (hch : ∀ d ∈ ch.outstanding, d.message = m → b.Held m) : b.Held m := by
  rcases h with hm | ⟨c', d, hd, hm⟩
  · exact hready hm
  · by_cases hc : c' = c
    · subst hc
      rw [set_same] at hd
      exact hch d hd hm
    · rw [set_ne _ ch hc] at hd
      exact .inr ⟨c', d, hd, hm⟩

/-- Only a publication brings a message to the broker. -/
theorem Step.held_before (h : Step b a b') (hm : b'.Held m) : b.Held m ∨ a = .publish m := by
  have hout : ∀ {c : C} {d : Delivery T M}, d ∈ (b.channels c).outstanding → d.message = m →
      b.Held m := fun hd hdm => .inr ⟨_, _, hd, hdm⟩
  cases h with
  | @publish m₀ =>
    rcases hm with hin | hunacked
    · rcases List.mem_append.mp hin with hold | hnew
      · exact .inl (.inl hold)
      · exact .inr (congrArg _ (List.mem_singleton.mp hnew).symm)
    · exact .inl (.inr hunacked)
  | openChannel => exact .inl (hm.of_set .inl fun d hd hdm => hout hd hdm)
  | @deliver c tag m₀ hopened hready hfresh =>
    left
    refine hm.of_set (fun hin => .inl (List.mem_of_mem_erase hin)) fun d hd hdm => ?_
    simp only [Channel.outstanding, List.mem_append, List.mem_singleton] at hd
    rcases hd with (hin | rfl) | hunsettled
    · exact hout (List.mem_append_left _ hin) hdm
    · exact .inl (hdm ▸ hready)
    · exact hout (List.mem_append_right _ hunsettled) hdm
  | @take c d rest hinbox =>
    left
    exact hm.of_set .inl fun d' hd' hdm =>
      hout ((Channel.take_perm hinbox).mem_iff.mp hd') hdm
  | @ack c tag =>
    left
    exact hm.of_set .inl fun d hd hdm => hout ((Channel.settle_sublist _ _).subset hd) hdm
  | @nack c tag =>
    left
    refine hm.of_set (fun hin => ?_) fun d hd hdm =>
      hout ((Channel.settle_sublist _ _).subset hd) hdm
    rcases List.mem_append.mp hin with hold | htagged
    · exact .inl hold
    · obtain ⟨d, hd, hdm⟩ := List.mem_map.mp htagged
      exact hout (List.mem_append_right _ (List.mem_filter.mp hd).1) hdm
  | @close c =>
    left
    refine hm.of_set (fun hin => ?_) fun d hd _ => nomatch hd
    rcases List.mem_append.mp hin with hold | hclosed
    · exact .inl hold
    · obtain ⟨d, hd, hdm⟩ := List.mem_map.mp hclosed
      exact hout hd hdm

omit [DecidableEq T] [DecidableEq M] in
theorem Proper.set {ready : List M} {ch : Channel T M} (h : b.Proper) (hch : ch.Proper) :
    (Broker.set { b with ready } c ch).Proper := by
  intro c'
  by_cases hc : c' = c
  · subst hc
    rw [set_same]
    exact hch
  · rw [set_ne _ ch hc]
    exact h c'

theorem Step.proper (h : Step b a b') (hproper : b.Proper) : b'.Proper := by
  cases h with
  | publish => exact hproper
  | @openChannel c hclosed =>
    have hempty := (hproper c).closed hclosed
    refine hproper.set ⟨fun hopened => (nomatch hopened), (hproper c).distinct, ?_⟩
    intro d hd
    change d ∈ (b.channels c).outstanding at hd
    rw [hempty] at hd
    cases hd
  | @deliver c tag m hopened hready hfresh =>
    let d : Delivery T M := ⟨tag, m⟩
    have hperm : (((b.channels c).inbox ++ [d]) ++ (b.channels c).unsettled).Perm
        (d :: (b.channels c).outstanding) := by
      rw [List.append_assoc]
      exact List.perm_middle
    refine hproper.set ⟨fun hclosed => ?_, ?_, ?_⟩
    · rw [hopened] at hclosed
      cases hclosed
    · apply (hperm.map _).nodup_iff.mpr
      refine List.nodup_cons.mpr ⟨fun hin => ?_, (hproper c).distinct⟩
      obtain ⟨d', hd', htag⟩ := List.mem_map.mp hin
      have hused : d'.tag ∈ (b.channels c).used := (hproper c).used d' hd'
      rw [show d'.tag = tag from htag] at hused
      exact hfresh hused
    · intro d hd
      rcases List.mem_cons.mp (hperm.mem_iff.mp hd) with rfl | hold
      · exact List.mem_cons_self
      · exact List.mem_cons_of_mem _ ((hproper c).used d hold)
  | @take c d rest hinbox =>
    have hperm := Channel.take_perm hinbox
    refine hproper.set ⟨fun hclosed => ?_, ?_, ?_⟩
    · have hnone := (hproper c).closed hclosed
      simp [Channel.outstanding, hinbox] at hnone
    · exact (hperm.map _).nodup_iff.mpr (hproper c).distinct
    · intro d' hd'
      exact (hproper c).used d' (hperm.mem_iff.mp hd')
  | @ack c tag =>
    exact hproper.set ((hproper c).sublist (Channel.settle_sublist _ _) rfl .inl)
  | @nack c tag =>
    exact hproper.set ((hproper c).sublist (Channel.settle_sublist _ _) rfl .inl)
  | @close c =>
    exact hproper.set ((hproper c).sublist (List.nil_sublist _) rfl fun _ => .inr rfl)

omit [DecidableEq T] [DecidableEq M] in
theorem Owns.set {c' : C} {ready : List M} {ch : Channel T M} (h : b.Owns c d)
    (hused : c' = c → d.tag ∈ ch.used)
    (hch : c' = c → ∀ d' ∈ ch.outstanding, d'.tag = d.tag → d' ∈ (b.channels c').outstanding) :
    (Broker.set { b with ready } c' ch).Owns c d := by
  by_cases hc : c = c'
  · subst hc
    refine ⟨?_, ?_⟩
    · rw [set_same]
      exact hused rfl
    · rw [set_same]
      intro d' hd' htag
      exact h.only d' (hch rfl d' hd' htag) htag
  · refine ⟨?_, ?_⟩
    · rw [set_ne _ ch hc]
      exact h.used
    · rw [set_ne _ ch hc]
      exact h.only

/-- A tag keeps its meaning as long as the channel is not opened again. -/
theorem Step.owns (h : Step b a b') (ha : a ≠ .openChannel c) (howns : b.Owns c d) :
    b'.Owns c d := by
  cases h with
  | publish => exact ⟨howns.used, howns.only⟩
  | @openChannel c' hclosed =>
    have hne : c' ≠ c := fun heq => ha (congrArg Action.openChannel heq)
    exact howns.set (fun heq => absurd heq hne) fun heq => absurd heq hne
  | @deliver c' tag m hopened hready hfresh =>
    refine howns.set (fun heq => ?_) fun heq d' hd' htag => ?_
    · subst heq
      exact List.mem_cons_of_mem _ howns.used
    · subst heq
      have htag' : d.tag ≠ tag := fun h => hfresh (h ▸ howns.used)
      simp only [Channel.outstanding, List.mem_append, List.mem_singleton] at hd' ⊢
      rcases hd' with (hin | rfl) | hunsettled
      · exact .inl hin
      · exact absurd htag.symm htag'
      · exact .inr hunsettled
  | @take c' d' rest hinbox =>
    refine howns.set (fun heq => heq ▸ howns.used) fun _ d'' hd'' _ => ?_
    exact (Channel.take_perm hinbox).mem_iff.mp hd''
  | @ack c' tag =>
    refine howns.set (fun heq => heq ▸ howns.used) fun _ d' hd' _ => ?_
    exact (Channel.settle_sublist _ _).subset hd'
  | @nack c' tag =>
    refine howns.set (fun heq => heq ▸ howns.used) fun _ d' hd' _ => ?_
    exact (Channel.settle_sublist _ _).subset hd'
  | @close c' =>
    refine howns.set (fun heq => heq ▸ howns.used) fun _ d' hd' _ => ?_
    cases hd'

/-- A consumer that takes a delivery owns it. -/
theorem Step.owns_take (h : Step b (.take c d) b') (hproper : b.Proper) : b'.Owns c d := by
  cases h with
  | @take _ _ rest hinbox =>
    have hperm := Channel.take_perm hinbox
    have hd : d ∈ (b.channels c).outstanding := hperm.mem_iff.mp (by simp)
    refine ⟨?_, ?_⟩
    · rw [set_same]
      exact (hproper c).used d hd
    · rw [set_same]
      intro d' hd' htag
      exact List.inj_on_of_nodup_map (hproper c).distinct (hperm.mem_iff.mp hd') hd htag

/-- The broker keeps what a consumer takes. -/
theorem Step.take_held {d : Delivery T M} {b b' : Broker C T M} (h : Step b (.take c d) b') :
    b'.Held d.message := by
  cases h with
  | take => exact .inr ⟨c, d, by simp [Channel.outstanding], rfl⟩

/-- A message that is in the queue or was sent on channel `c` can be sent on `c` again, once
    the channel has been closed and opened. -/
theorem redelivered (b : Broker C T M) (tag : T)
    (h : m ∈ b.ready ∨ ∃ d ∈ (b.channels c).outstanding, d.message = m) :
    ∃ b₁ b₂ b₃ b₄, b.Step (.close c) b₁ ∧ b₁.Step (.openChannel c) b₂ ∧
      b₂.Step (.deliver c tag m) b₃ ∧ b₃.Step (.take c ⟨tag, m⟩) b₄ := by
  refine ⟨_, _, _, _, .close, .openChannel ?_, .deliver ?_ ?_ ?_,
    .take (show _ = [(⟨tag, m⟩ : Delivery T M)] from ?_)⟩
  · simp
  · simp
  · apply List.mem_append.mpr
    exact h.imp_right fun ⟨d, hd, hm⟩ => List.mem_map.mpr ⟨d, hd, hm⟩
  · simp
  · simp

end Broker

end Queue
