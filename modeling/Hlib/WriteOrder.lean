import Hlib.WriteDelivery

namespace Hlib

namespace FileDescriptorIo

variable {T : Type} {sources : SourceId → Source} {d : Delivery T} {before after : List SendTuple}
  {entry : SendTuple}

/-- The descriptor accepted all bytes up to and with those of `entry`. -/
def AllAccepted (sources : SourceId → Source) (d : Delivery T) (before : List SendTuple)
    (entry : SendTuple) : Prop :=
  (contents sources (before ++ [entry])).length ≤ d.accepted.length

def AllCompleted (d : Delivery T) (before : List SendTuple) : Prop :=
  ∀ earlier ∈ before, earlier ∈ d.completed

/-- An entry has left the queue, or stands in it behind the earlier ones that have not. -/
theorem entry_place {completed queue : List SendTuple}
    (h : completed ++ queue = before ++ entry :: after) :
    (∃ later, completed = before ++ entry :: later) ∨
      ∃ ahead, before = completed ++ ahead ∧ queue = ahead ++ entry :: after := by
  rcases List.append_eq_append_iff.mp h with ⟨ahead, hb, hq⟩ | ⟨later, hc, hq⟩
  · exact Or.inr ⟨ahead, hb, hq⟩
  · cases later with
    | nil =>
      rw [List.append_nil] at hc
      exact Or.inr ⟨[], by rw [hc, List.append_nil], hq.symm⟩
    | cons first later =>
      obtain ⟨rfl, _⟩ := List.cons.inj hq
      exact Or.inl ⟨later, hc⟩

theorem completed_queued_apart (h : InOrder sources d) {left waiting : SendTuple}
    (hl : left ∈ d.completed) (hw : waiting ∈ d.state.io.writeQueue) :
    left.source ≠ waiting.source := by
  have distinct := h.distinct
  rw [h.split, List.map_append, List.nodup_append] at distinct
  exact distinct.2.2 _ (List.mem_map_of_mem hl) _ (List.mem_map_of_mem hw)

theorem called_sublist (h : InOrder sources d) :
    d.called.Sublist (d.submitted.map (·.source)) := by
  rw [h.called, h.split]
  exact (List.filter_sublist.trans (List.sublist_append_left _ _)).map _

theorem accepted_in_order (h : InOrder sources d) : d.accepted <+: contents sources d.submitted := by
  obtain ⟨taken, accepted, waiting⟩ := h.accepted
  rw [accepted, h.split, contents_append]
  apply (List.prefix_append_right_inj _).mpr
  cases queued : d.state.io.writeQueue with
  | nil =>
    rw [queued] at waiting
    rw [show taken = [] from waiting]
    exact List.nil_prefix
  | cons front rest =>
    rw [queued] at waiting
    rw [contents_cons, ← waiting.1, List.append_assoc]
    exact List.prefix_append _ _

theorem called_iff_completed (h : InOrder sources d) (split : d.submitted = before ++ entry :: after)
    (callback : entry.callback = true) : entry.source ∈ d.called ↔ entry ∈ d.completed := by
  rw [h.called]
  constructor
  · intro called
    obtain ⟨other, ho, same⟩ := List.mem_map.mp called
    have left := (List.mem_filter.mp ho).1
    rcases entry_place (h.split.symm.trans split) with ⟨later, hc⟩ | ⟨ahead, _, hq⟩
    · rw [hc]
      simp
    · have waiting : entry ∈ d.state.io.writeQueue := by
        rw [hq]
        simp
      exact absurd same (completed_queued_apart h left waiting)
  · intro left
    exact List.mem_map_of_mem (List.mem_filter.mpr ⟨left, callback⟩)

/-- An entry leaves the queue with the `::write` that follows its last byte. -/
theorem completed_iff (h : InOrder sources d) (split : d.submitted = before ++ entry :: after) :
    entry ∈ d.completed ↔
      AllAccepted sources d before entry ∧ AllCompleted d before ∧ entry.source ∈ d.sent := by
  obtain ⟨taken, accepted, waiting⟩ := h.accepted
  rcases entry_place (h.split.symm.trans split) with ⟨later, hc⟩ | ⟨ahead, hb, hq⟩
  · have left : entry ∈ d.completed := by
      rw [hc]
      simp
    refine iff_of_true left ⟨?_, ?_, h.sent entry left⟩
    · have whole : contents sources d.completed =
          contents sources (before ++ [entry]) ++ contents sources later := by
        rw [hc, ← contents_append, List.append_assoc, List.singleton_append]
      rw [AllAccepted, accepted, whole, List.length_append, List.length_append]
      omega
    · intro earlier he
      rw [hc]
      exact List.mem_append_left _ he
  · have queued : entry ∈ d.state.io.writeQueue := by
      rw [hq]
      simp
    have waits : entry ∉ d.completed := fun left => completed_queued_apart h left queued rfl
    refine iff_of_false waits ?_
    rintro ⟨all, earlier, sent⟩
    cases ahead with
    | cons first ahead =>
      -- The first entry ahead would be both completed and in the queue.
      have left : first ∈ d.completed := earlier first (by rw [hb]; simp)
      exact completed_queued_apart h left (by rw [hq]; simp) rfl
    | nil =>
      rw [List.append_nil] at hb
      rw [List.nil_append] at hq
      rw [hq] at waiting
      obtain ⟨whole, unfinished, _⟩ := waiting
      rw [AllAccepted, hb, accepted, contents_append, List.length_append, List.length_append,
        contents_cons, ← whole] at all
      have none : (d.state.io.sources entry.source).remaining.length = 0 := by
        simp only [contents, List.map_nil, List.flatten_nil, List.append_nil,
          List.length_append] at all
        omega
      exact unfinished sent (List.length_eq_zero_iff.mp none)

theorem initial_inOrder (eventLoop : Option (EventLoop Handler)) (sinks : SinkId → SinkAdapter T)
    (sources : SourceId → Source) : InOrder sources { state := initial eventLoop sinks sources } := by
  refine ⟨List.nodup_nil, rfl, fun id _ => ⟨rfl, List.not_mem_nil⟩, ⟨[], rfl, rfl⟩, ?_, rfl⟩
  intro entry none
  exact absurd none List.not_mem_nil

variable [SinkData T]

/-- The descriptor accepts a prefix of what was submitted, callbacks are called in submission order,
and each exactly once, as soon as `::write` has returned for its source with all bytes up to there
accepted and all earlier entries completed. -/
theorem writes_delivered_in_order {eventLoop : Option (EventLoop Handler)}
    {sinks : SinkId → SinkAdapter T} {labels : List Label}
    (run : Transition.Run DeliveryStep { state := initial eventLoop sinks sources } labels d) :
    d.accepted <+: contents sources d.submitted ∧
      d.called.Sublist (d.submitted.map (·.source)) ∧
      ∀ before entry after, d.submitted = before ++ entry :: after → entry.callback = true →
        (d.called.count entry.source = 1 ↔
          AllAccepted sources d before entry ∧ AllCompleted d before ∧ entry.source ∈ d.sent) := by
  have h := run.invariant (initial_inOrder eventLoop sinks sources) delivery_step
  refine ⟨accepted_in_order h, called_sublist h, ?_⟩
  intro before entry after split callback
  have once := List.nodup_iff_count.mp (h.distinct.sublist (called_sublist h)) entry.source
  rw [← completed_iff h split, ← called_iff_completed h split callback, ← List.count_pos_iff]
  omega

theorem writes_delivered_in_order_byte :
    ∃ d : Delivery StringData, Transition.Run DeliveryStep
        { state := initial (some ⟨fun _ => none, fun _ => none⟩) (fun _ => { data := [] })
            (fun _ => ⟨[7#8], 0⟩) }
        [.attach 5 none, .write 0 true, .event EventLoop.Write, .skip, .writeHalf (.ok 1)] d ∧
      d.accepted <+: contents (fun _ => ⟨[7#8], 0⟩) d.submitted := by
  refine Exists.imp (fun d run => ⟨run, (writes_delivered_in_order run).1⟩) ?_
  exact ⟨_, ((((Transition.Run.start.next (.other trivial (.attach rfl rfl))).next
    (.write (by decide) rfl)).next (.other trivial .event)).next
    (.other trivial (.readSkip (by decide)))).next (.completed rfl (by decide) rfl rfl rfl)⟩

/-- A callback has been called as soon as all bytes up to there are accepted and all earlier entries
completed, whether or not `::write` was called. -/
def CalledWhenAccepted : Prop :=
  ∀ (eventLoop : Option (EventLoop Handler)) (sinks : SinkId → SinkAdapter StringData)
    (sources : SourceId → Source) (labels : List Label) (d : Delivery StringData),
    Transition.Run DeliveryStep { state := initial eventLoop sinks sources } labels d →
    ∀ before entry after, d.submitted = before ++ entry :: after → entry.callback = true →
      (d.called.count entry.source = 1 ↔
        AllAccepted sources d before entry ∧ AllCompleted d before)

/-- An empty source waits for the next Write event. -/
theorem empty_source_waits : ¬CalledWhenAccepted := by
  intro called
  have wrong := called (some ⟨fun _ => none, fun _ => none⟩) (fun _ => { data := [] })
    (fun _ => ⟨[], 0⟩) [.attach 5 none, .write 0 true] _
    ((Transition.Run.start.next (.other trivial (.attach rfl rfl))).next (.write (by decide) rfl))
    [] ⟨0, true⟩ [] rfl rfl
  have once := wrong.mpr ⟨Nat.le_refl 0, fun _ none => absurd none List.not_mem_nil⟩
  exact absurd once (by decide)

end FileDescriptorIo

end Hlib
