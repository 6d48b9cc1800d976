import Hlib.FileDescriptorIoSteps

namespace Hlib

open FlagMask (Meets)
open EventLoop (Write)

namespace FileDescriptorIo

/-- A `FileDescriptorIo` with the history of its writes: the entries submitted, the bytes accepted by
the descriptor, the sources for which `::write` returned, the entries that left the queue, and the
sources whose callbacks were called, all in order. -/
structure Delivery (T : Type) where
  state : State T
  submitted : List SendTuple := []
  accepted : List Byte := []
  sent : List SourceId := []
  completed : List SendTuple := []
  called : List SourceId := []

def Label.Quiet : Label → Prop
  | .write _ _ | .writeHalf _ | .close | .closed => False
  | _ => True

variable {T : Type} [SinkData T]

/-- Steps of an open `FileDescriptorIo` on which every source is submitted at most once. -/
inductive DeliveryStep : Delivery T → Label → Delivery T → Prop
  | write {d : Delivery T} {io' source callback}
      (distinct : source ∉ d.submitted.map (·.source))
      (h : d.state.io.write source callback = .ok io') :
      DeliveryStep d (.write source callback)
        { d with
          state := ⟨io', d.state.stage⟩
          submitted := d.submitted ++ [⟨source, callback⟩] }
  | refused {d : Delivery T} {events half errno front rest} (stage : d.state.stage = .writing events)
      (asked : Meets Write events) (queued : d.state.io.writeQueue = front :: rest)
      (h : d.state.io.writeHalf (.error errno) = .ok half) :
      DeliveryStep d (.writeHalf (.error errno))
        { d with state := ⟨half.io, afterWrite events half.outcome⟩ }
  | sent {d : Delivery T} {events half size front rest} (stage : d.state.stage = .writing events)
      (asked : Meets Write events) (queued : d.state.io.writeQueue = front :: rest)
      (h : d.state.io.writeHalf (.ok size) = .ok half) (more : half.outcome = .more) :
      DeliveryStep d (.writeHalf (.ok size))
        { d with
          state := ⟨half.io, afterWrite events half.outcome⟩
          accepted := d.accepted ++ half.accepted
          sent := d.sent ++ [front.source] }
  | completed {d : Delivery T} {events half size front rest}
      (stage : d.state.stage = .writing events) (asked : Meets Write events)
      (queued : d.state.io.writeQueue = front :: rest)
      (h : d.state.io.writeHalf (.ok size) = .ok half) (done : half.outcome = .completed front) :
      DeliveryStep d (.writeHalf (.ok size))
        { d with
          state := ⟨half.io, afterWrite events half.outcome⟩
          accepted := d.accepted ++ half.accepted
          sent := d.sent ++ [front.source]
          completed := d.completed ++ [front]
          called := d.called ++ if front.callback then [front.source] else [] }
  | other {d : Delivery T} {label s'} (quiet : label.Quiet) (h : Step d.state label s') :
      DeliveryStep d label { d with state := s' }

/-- The bytes that the entries stand for, as the sources were at first. -/
def contents (sources : SourceId → Source) (entries : List SendTuple) : List Byte :=
  (entries.map fun entry => (sources entry.source).remaining).flatten

theorem contents_append (sources : SourceId → Source) (before after : List SendTuple) :
    contents sources (before ++ after) = contents sources before ++ contents sources after := by
  rw [contents, List.map_append, List.flatten_append]
  rfl

theorem contents_cons (sources : SourceId → Source) (entry : SendTuple) (rest : List SendTuple) :
    contents sources (entry :: rest) = (sources entry.source).remaining ++ contents sources rest := by
  rw [contents, List.map_cons, List.flatten_cons]
  rfl

/-- What the descriptor accepted beyond the completed entries comes from the front entry; the others
are as they were submitted. -/
def Waiting (sources now : SourceId → Source) (sent : List SourceId) (taken : List Byte) :
    List SendTuple → Prop
  | [] => taken = []
  | front :: rest =>
    taken ++ (now front.source).remaining = (sources front.source).remaining ∧
      (front.source ∈ sent → (now front.source).remaining ≠ []) ∧
      ∀ entry ∈ rest, now entry.source = sources entry.source ∧ entry.source ∉ sent

structure InOrder (sources : SourceId → Source) (d : Delivery T) : Prop where
  distinct : (d.submitted.map (·.source)).Nodup
  split : d.submitted = d.completed ++ d.state.io.writeQueue
  untouched : ∀ id, id ∉ d.submitted.map (·.source) →
    d.state.io.sources id = sources id ∧ id ∉ d.sent
  accepted : ∃ taken, d.accepted = contents sources d.completed ++ taken ∧
    Waiting sources d.state.io.sources d.sent taken d.state.io.writeQueue
  sent : ∀ entry ∈ d.completed, entry.source ∈ d.sent
  called : d.called = (d.completed.filter (·.callback)).map (·.source)

theorem quiet_step {s s' : State T} {label : Label} (quiet : label.Quiet) (h : Step s label s') :
    s'.io.writeQueue = s.io.writeQueue ∧ s'.io.sources = s.io.sources := by
  cases h with
  | read hr =>
    obtain ⟨_, _, rfl, _⟩ := Endpoint.read_ok hr
    exact ⟨rfl, rfl⟩
  | attach _ ha =>
    obtain ⟨_, _, rfl⟩ | ⟨_, _, _, _, _, _, _, rfl⟩ := Endpoint.attach_ok ha <;> exact ⟨rfl, rfl⟩
  | readHalf _ hr =>
    obtain ⟨_, _, ⟨_, _, rfl⟩ | ⟨_, _, _, _, ⟨_, kept⟩ | ⟨_, completed⟩⟩⟩ := Endpoint.readHalf_ok hr
    · exact ⟨rfl, rfl⟩
    · rw [kept]
      exact ⟨rfl, rfl⟩
    · obtain ⟨_, he, _⟩ := Endpoint.completeRead_ok completed
      rw [he]
      exact ⟨rfl, rfl⟩
  | expire | elsewhere | event | readSkip | writeSkip | hangUp | hangSkip => exact ⟨rfl, rfl⟩
  | write | writeHalf | close | closed => exact quiet.elim

omit [SinkData T] in
theorem others_kept (io : FileDescriptorIo T) {before rest : List SendTuple} {front : SendTuple}
    (distinct : ((before ++ front :: rest).map (·.source)).Nodup) (count : Nat) :
    ∀ entry ∈ rest, entry.source ≠ front.source ∧
      (io.advanced front.source count).sources entry.source = io.sources entry.source := by
  intro entry he
  rw [List.map_append, List.map_cons] at distinct
  have apart : entry.source ≠ front.source := by
    intro same
    have behind := (List.nodup_cons.mp (List.nodup_append.mp distinct).2.1).1
    exact behind (same ▸ List.mem_map_of_mem he)
  exact ⟨apart, io.advanced_other apart count⟩

omit [SinkData T] in
theorem write_inOrder {sources : SourceId → Source} {d : Delivery T} {io' : FileDescriptorIo T}
    {source : SourceId} {callback : Bool} (h : InOrder sources d)
    (fresh : source ∉ d.submitted.map (·.source)) (hw : d.state.io.write source callback = .ok io') :
    InOrder sources { d with
      state := ⟨io', d.state.stage⟩
      submitted := d.submitted ++ [⟨source, callback⟩] } := by
  obtain ⟨_, _, rfl, _, _, _⟩ := Endpoint.write_ok hw
  obtain ⟨taken, accepted, waiting⟩ := h.accepted
  obtain ⟨same, unsent⟩ := h.untouched source fresh
  refine ⟨?_, ?_, ?_, ⟨taken, accepted, ?_⟩, h.sent, h.called⟩
  · rw [List.map_append, List.nodup_append]
    refine ⟨h.distinct, by simp, ?_⟩
    intro id hid other ho same
    have last : other = source := List.mem_singleton.mp ho
    exact fresh (last ▸ same ▸ hid)
  · change d.submitted ++ _ = d.completed ++ (d.state.io.writeQueue ++ _)
    rw [h.split, List.append_assoc]
  · intro id absent
    rw [List.map_append, List.mem_append, not_or] at absent
    exact h.untouched id absent.1
  · change Waiting sources d.state.io.sources d.sent taken (d.state.io.writeQueue ++ [⟨source, callback⟩])
    cases queued : d.state.io.writeQueue with
    | nil =>
      rw [queued] at waiting
      change taken = [] at waiting
      refine ⟨?_, fun was => absurd was unsent, fun _ none => absurd none List.not_mem_nil⟩
      rw [waiting, same, List.nil_append]
    | cons front rest =>
      rw [queued] at waiting
      obtain ⟨whole, unfinished, others⟩ := waiting
      refine ⟨whole, unfinished, ?_⟩
      intro entry he
      rcases List.mem_append.mp he with old | new
      · exact others entry old
      · cases List.mem_singleton.mp new
        exact ⟨same, unsent⟩

omit [SinkData T] in
theorem untouched_sent {sources : SourceId → Source} {d : Delivery T} {front : SendTuple}
    (h : InOrder sources d) (submitted : front ∈ d.submitted) (count : Nat) (id : SourceId)
    (absent : id ∉ d.submitted.map (·.source)) :
    (d.state.io.advanced front.source count).sources id = sources id ∧
      id ∉ d.sent ++ [front.source] := by
  obtain ⟨same, unsent⟩ := h.untouched id absent
  have apart : id ≠ front.source := fun same => absent (same ▸ List.mem_map_of_mem submitted)
  refine ⟨(d.state.io.advanced_other apart count).trans same, ?_⟩
  rw [List.mem_append, List.mem_singleton, not_or]
  exact ⟨unsent, apart⟩

omit [SinkData T] in
theorem sent_inOrder {sources : SourceId → Source} {d : Delivery T} {half : WriteHalf Handler T}
    {size : Nat} {front : SendTuple} {rest : List SendTuple} {stage : Stage} (h : InOrder sources d)
    (queued : d.state.io.writeQueue = front :: rest)
    (hw : d.state.io.writeHalf (.ok size) = .ok half) (more : half.outcome = .more) :
    InOrder sources { d with
      state := ⟨half.io, stage⟩
      accepted := d.accepted ++ half.accepted
      sent := d.sent ++ [front.source] } := by
  obtain ⟨front', rest', queued', _, ⟨_, failed, _⟩ | ⟨_, count, _, given, ⟨short, _, kept⟩ | done⟩⟩ :=
    Endpoint.writeHalf_ok hw
  · cases failed
  · cases queued.symm.trans queued'
    obtain ⟨taken, accepted, waiting⟩ := h.accepted
    rw [queued] at waiting
    obtain ⟨whole, _, others⟩ := waiting
    have split := h.split
    rw [queued] at split
    have submitted : front ∈ d.submitted := by rw [split]; simp
    have apart := others_kept d.state.io (split ▸ h.distinct) count
    have left := d.state.io.advanced_self front.source count
    refine ⟨h.distinct, ?_, ?_, ⟨taken ++ half.accepted, ?_, ?_⟩, ?_, h.called⟩
    · rw [kept]
      exact h.split
    · intro id absent
      rw [kept]
      exact untouched_sent h submitted count id absent
    · rw [← List.append_assoc, ← accepted]
    · rw [kept]
      change Waiting sources _ _ _ d.state.io.writeQueue
      rw [queued]
      refine ⟨?_, ?_, ?_⟩
      · rw [left, given, List.append_assoc, List.take_append_drop, whole]
      · intro _
        rw [left, Ne, List.drop_eq_nil_iff]
        omega
      · intro entry he
        obtain ⟨different, same⟩ := apart entry he
        obtain ⟨initial, unsent⟩ := others entry he
        refine ⟨same.trans initial, ?_⟩
        rw [List.mem_append, List.mem_singleton, not_or]
        exact ⟨unsent, different⟩
    · intro entry he
      exact List.mem_append_left _ (h.sent entry he)
  · exact absurd (more.symm.trans done.2.1) (by simp)

omit [SinkData T] in
theorem completed_inOrder {sources : SourceId → Source} {d : Delivery T}
    {half : WriteHalf Handler T} {size : Nat} {front : SendTuple} {rest : List SendTuple}
    {stage : Stage} (h : InOrder sources d) (queued : d.state.io.writeQueue = front :: rest)
    (hw : d.state.io.writeHalf (.ok size) = .ok half) (done : half.outcome = .completed front) :
    InOrder sources { d with
      state := ⟨half.io, stage⟩
      accepted := d.accepted ++ half.accepted
      sent := d.sent ++ [front.source]
      completed := d.completed ++ [front]
      called := d.called ++ if front.callback then [front.source] else [] } := by
  obtain ⟨front', rest', queued', _, ⟨_, failed, _⟩ | ⟨_, count, _, given, more | ⟨full, _, popped⟩⟩⟩ :=
    Endpoint.writeHalf_ok hw
  · cases failed
  · exact absurd (done.symm.trans more.2.1) (by simp)
  · cases queued.symm.trans queued'
    obtain ⟨_, _, he, _⟩ := popped
    obtain ⟨taken, accepted, waiting⟩ := h.accepted
    rw [queued] at waiting
    obtain ⟨whole, _, others⟩ := waiting
    have split := h.split
    rw [queued] at split
    have submitted : front ∈ d.submitted := by rw [split]; simp
    have apart := others_kept d.state.io (split ▸ h.distinct) count
    refine ⟨h.distinct, ?_, ?_, ⟨[], ?_, ?_⟩, ?_, ?_⟩
    · rw [he]
      change d.submitted = (d.completed ++ [front]) ++ rest
      rw [split, List.append_assoc, List.singleton_append]
    · intro id absent
      rw [he]
      exact untouched_sent h submitted count id absent
    · rw [accepted, given, full, List.take_length, List.append_assoc, whole, List.append_nil,
        contents_append, contents_cons]
      simp [contents]
    · rw [he]
      change Waiting sources (d.state.io.advanced front.source count).sources _ [] rest
      cases rest with
      | nil => rfl
      | cons next rest =>
        have unsent : ∀ entry ∈ next :: rest,
            (d.state.io.advanced front.source count).sources entry.source = sources entry.source ∧
              entry.source ∉ d.sent ++ [front.source] := by
          intro entry hm
          obtain ⟨different, same⟩ := apart entry hm
          obtain ⟨initial, unsent⟩ := others entry hm
          refine ⟨same.trans initial, ?_⟩
          rw [List.mem_append, List.mem_singleton, not_or]
          exact ⟨unsent, different⟩
        obtain ⟨initial, notSent⟩ := unsent next List.mem_cons_self
        exact ⟨by rw [List.nil_append, initial], fun was => absurd was notSent,
          fun entry hm => unsent entry (List.mem_cons_of_mem _ hm)⟩
    · intro entry hm
      rcases List.mem_append.mp hm with old | new
      · exact List.mem_append_left _ (h.sent entry old)
      · cases List.mem_singleton.mp new
        exact List.mem_append_right _ (List.mem_singleton_self _)
    · change d.called ++ _ = _
      rw [h.called, List.filter_append, List.map_append]
      cases hc : front.callback <;> simp [hc]

theorem delivery_step {sources : SourceId → Source} {d d' : Delivery T} {label : Label}
    (h : InOrder sources d) (hs : DeliveryStep d label d') : InOrder sources d' := by
  cases hs with
  | write fresh hw => exact write_inOrder h fresh hw
  | refused _ _ queued hw =>
    obtain ⟨_, _, _, _, ⟨_, _, rfl⟩ | ⟨⟨_, returned⟩, _⟩⟩ := Endpoint.writeHalf_ok hw
    · exact ⟨h.distinct, h.split, h.untouched, h.accepted, h.sent, h.called⟩
    · cases returned
  | sent _ _ queued hw more => exact sent_inOrder h queued hw more
  | completed _ _ queued hw done => exact completed_inOrder h queued hw done
  | other quiet hs =>
    obtain ⟨queue, same⟩ := quiet_step quiet hs
    exact ⟨h.distinct, by rw [queue]; exact h.split, by rw [same]; exact h.untouched,
      by rw [queue, same]; exact h.accepted, h.sent, h.called⟩

end FileDescriptorIo

end Hlib
