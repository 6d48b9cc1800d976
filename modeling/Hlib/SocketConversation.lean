import Hlib.FileDescriptorIoFrames
import Hlib.SocketSide

namespace Hlib

open FlagMask (Meets)
open FileDescriptorIo (Gives Link Received contents contents_append contents_cons left readHalf_appended)

namespace Socket

variable {T U : Type} {s t : Side T} {label : Label} {incoming : List Byte} {sources : SourceId → Source}

section Sent

/-- What the connection took and what is left of the sources make up what was sent, until the socket is closed. -/
structure Sent (sources : SourceId → Source) (s : Side T) : Prop where
  distinct : (s.submitted.map (·.source)).Nodup
  queued : s.state.socket.writeQueue.Sublist s.submitted
  fresh : ∀ id, id ∉ s.submitted.map (·.source) → s.state.socket.sources id = sources id
  front : s.accepted <+: contents sources s.submitted
  whole : s.ended = false → s.accepted ++ left s.state.socket = contents sources s.submitted
  shut : s.ended = true → s.state.socket.fd = -1

theorem left_kept {socket socket' : Socket T} (queue : socket'.writeQueue = socket.writeQueue)
    (same : socket'.sources = socket.sources) : left socket' = left socket := by
  rw [left, left, queue, same]

theorem left_cons {socket : Socket T} {front : SendTuple} {rest : List SendTuple}
    (queued : socket.writeQueue = front :: rest) :
    left socket = (socket.sources front.source).remaining ++
      (rest.map fun entry => (socket.sources entry.source).remaining).flatten := by
  rw [left, queued, List.map_cons, List.flatten_cons]

/-- Only the front entry's source has less left when it is advanced. -/
theorem others_advanced {socket : Socket T} {front : SendTuple} {rest : List SendTuple}
    (queued : socket.writeQueue = front :: rest)
    (distinct : (socket.writeQueue.map (·.source)).Nodup) (count : Nat) :
    (rest.map fun entry => ((socket.advanced front.source count).sources entry.source).remaining) =
      rest.map fun entry => (socket.sources entry.source).remaining := by
  rw [queued, List.map_cons, List.nodup_cons] at distinct
  refine List.map_congr_left fun entry member => ?_
  have apart : entry.source ≠ front.source := fun same =>
    distinct.1 (same ▸ List.mem_map_of_mem member)
  rw [socket.advanced_other apart]

theorem left_advanced {socket : Socket T} {front : SendTuple} {rest : List SendTuple}
    (queued : socket.writeQueue = front :: rest)
    (distinct : (socket.writeQueue.map (·.source)).Nodup) (count : Nat) :
    left (socket.advanced front.source count) = (socket.sources front.source).remaining.drop count ++
      (rest.map fun entry => (socket.sources entry.source).remaining).flatten := by
  have whole : left (socket.advanced front.source count) = _ := left_cons queued
  rw [whole, others_advanced queued distinct, socket.advanced_self]

theorem send_sent (h : Sent sources s) {source : SourceId} {callback : Bool} {socket' : Socket T}
    (new : source ∉ s.submitted.map (·.source)) (hs : s.state.socket.send source callback = .ok socket') :
    Sent sources { s with
      state := ⟨socket', s.state.stage⟩
      submitted := s.submitted ++ [⟨source, callback⟩] } := by
  obtain ⟨_, _, rfl, _⟩ := Endpoint.write_ok hs
  have one : contents sources [⟨source, callback⟩] = (sources source).remaining := List.append_nil _
  refine ⟨?_, h.queued.append_right _, fun id other => ?_, ?_, fun first => ?_, h.shut⟩
  · rw [List.map_append, List.nodup_append]
    refine ⟨h.distinct, List.pairwise_singleton .., ?_⟩
    intro id member other added same
    cases List.mem_singleton.mp added
    have same : id = source := same
    exact new (same ▸ member)
  · refine h.fresh id fun member => other ?_
    rw [List.map_append]
    exact List.mem_append_left _ member
  · rw [contents_append]
    exact h.front.trans (List.prefix_append _ _)
  · have more : left { s.state.socket with writeQueue := s.state.socket.writeQueue ++ [⟨source, callback⟩] } =
        left s.state.socket ++ (s.state.socket.sources source).remaining := by
      rw [left, left, List.map_append, List.flatten_append, List.map_singleton, List.flatten_singleton]
    rw [contents_append, one, ← h.whole first, List.append_assoc, ← h.fresh source new]
    exact congrArg (s.accepted ++ ·) more

theorem writeHalf_sent (h : Sent sources s) {call : Result Nat} {half : WriteHalf Handler T} {stage : Stage}
    (valid : s.state.socket.fd = -1 → ∃ errno, call = .error errno)
    (hw : s.state.socket.writeHalf call = .ok half) :
    Sent sources { s with
      state := ⟨half.io, stage⟩
      accepted := s.accepted ++ half.accepted } := by
  obtain ⟨front, rest, queued, _, ⟨errno, _, rfl⟩ | ⟨⟨size, succeeded⟩, count, bound, accepted, outcome⟩⟩ :=
    Endpoint.writeHalf_ok hw
  · have same : s.accepted ++ [] = s.accepted := List.append_nil _
    refine ⟨h.distinct, h.queued, h.fresh, ?_, fun first => ?_, h.shut⟩
    · exact same.symm ▸ h.front
    · exact same.symm ▸ h.whole first
  · have open_ : s.state.socket.fd ≠ -1 := by
      intro shut
      obtain ⟨errno, failed⟩ := valid shut
      rw [succeeded] at failed
      cases failed
    have first : s.ended = false := by
      rw [Bool.eq_false_iff]
      exact fun ended => open_ (h.shut ended)
    have distinct : (s.state.socket.writeQueue.map (·.source)).Nodup := h.distinct.sublist (h.queued.map _)
    have others := others_advanced queued distinct count
    have before := h.whole first
    rw [left_cons queued] at before
    have member : front.source ∈ s.submitted.map (·.source) :=
      List.mem_map_of_mem (h.queued.subset (queued ▸ List.mem_cons_self))
    have untouched {id : SourceId} (other : id ∉ s.submitted.map (·.source)) :
        (s.state.socket.advanced front.source count).sources id = sources id := by
      have apart : id ≠ front.source := fun same => other (same ▸ member)
      rw [s.state.socket.advanced_other apart, h.fresh id other]
    have after : s.accepted ++ half.accepted ++ left half.io = contents sources s.submitted ∧
        half.io.writeQueue.Sublist s.submitted ∧
        (∀ id, id ∉ s.submitted.map (·.source) → half.io.sources id = sources id) ∧
        half.io.fd = s.state.socket.fd := by
      obtain ⟨_, _, same⟩ | ⟨all, _, eventLoop, events, same, _⟩ := outcome
      · rw [same, accepted]
        refine ⟨?_, h.queued, fun id other => untouched other, rfl⟩
        rw [left_advanced queued distinct, List.append_assoc, ← List.append_assoc (List.take _ _),
          List.take_append_drop]
        exact before
      · subst all
        rw [same, accepted, List.take_length]
        refine ⟨?_, (List.sublist_of_cons_sublist (queued ▸ h.queued)), fun id other => untouched other, rfl⟩
        change s.accepted ++ (s.state.socket.sources front.source).remaining ++
          (rest.map fun entry => ((s.state.socket.advanced front.source _).sources entry.source).remaining).flatten = _
        rw [others, List.append_assoc]
        exact before
    obtain ⟨sum, queue, fresh, fd⟩ := after
    refine ⟨h.distinct, queue, fresh, ⟨_, sum⟩, fun _ => sum, fun ended => ?_⟩
    rw [first] at ended
    cases ended

theorem sent_step [SinkData T] (h : Sent sources s) (hs : SideStep incoming s label t) : Sent sources t := by
  have kept {state : State T} (same : Kept s.state.socket state.socket)
      (shut : s.ended = true → state.socket.fd = -1) : Sent sources { s with state := state } := by
    refine ⟨h.distinct, ?_, fun id other => ?_, h.front, fun first => ?_, shut⟩
    · rw [same.queue]
      exact h.queued
    · rw [same.sources]
      exact h.fresh id other
    · rw [left_kept same.queue same.sources]
      exact h.whole first
  cases hs with
  | send new hs => exact send_sent h new hs
  | request _ _ hr =>
    obtain ⟨_, _, rfl, _⟩ := Endpoint.read_ok hr
    exact ⟨h.distinct, h.queued, h.fresh, h.front, h.whole, h.shut⟩
  | readHalf _ _ hr =>
    obtain ⟨_, _, ⟨_, _, rfl⟩ | ⟨_, _, _, _, ⟨_, same⟩ | ⟨_, completed⟩⟩⟩ := Endpoint.readHalf_ok hr
    · exact ⟨h.distinct, h.queued, h.fresh, h.front, h.whole, h.shut⟩
    · rw [same]
      exact ⟨h.distinct, h.queued, h.fresh, h.front, h.whole, h.shut⟩
    · obtain ⟨_, same, _⟩ := Endpoint.completeRead_ok completed
      rw [same]
      exact ⟨h.distinct, h.queued, h.fresh, h.front, h.whole, h.shut⟩
  | writeHalf _ _ valid hw => exact writeHalf_sent h valid hw
  | connects connects first shut hs =>
    refine kept (connects_kept connects shut hs) fun ended => ?_
    rw [first] at ended
    cases ended
  | @closes label state closes hs =>
    obtain ⟨shut, same⟩ | ⟨valid, queue, same, _, _, fd⟩ := closes_shut closes hs
    · have unchanged : (s.ended || decide (s.state.socket.fd ≠ -1)) = s.ended := by
        rw [decide_eq_false (not_not.mpr shut), Bool.or_false]
      rw [unchanged]
      exact kept ⟨by rw [same], by rw [same], by rw [same], Or.inl (by rw [same])⟩ fun _ => by rw [same]; exact shut
    · have ended : (s.ended || decide (s.state.socket.fd ≠ -1)) = true := by
        rw [decide_eq_true valid, Bool.or_true]
      rw [ended]
      refine ⟨h.distinct, ?_, fun id other => ?_, h.front, nofun, fun _ => fd⟩
      · rw [queue]
        exact List.nil_sublist _
      · rw [same]
        exact h.fresh id other
  | other apart hs =>
    obtain ⟨same, fd⟩ := apart_kept apart hs
    exact kept same fun ended => fd.trans (h.shut ended)

end Sent

section Received

variable {sinks : SinkId → SinkAdapter T}

/-- A side as the reading end of a FIFO that holds what comes in. -/
def Side.link (sinks : SinkId → SinkAdapter T) (incoming : List Byte) (s : Side T) : Link T T where
  writer := { state := FileDescriptorIo.initial none sinks fun _ => ⟨[], 0⟩, accepted := incoming }
  reader := ⟨s.state.socket, .idle⟩
  taken := s.taken
  requested := s.requested

theorem received_step [SinkData T] (h : Received sinks (s.link sinks incoming)) (unbroken : label.Unbroken)
    (hs : SideStep incoming s label t) : Received sinks (t.link sinks incoming) := by
  have kept {state : State T} (same : state.socket.sinks = s.state.socket.sinks)
      (pending : state.socket.readSink = s.state.socket.readSink ∨ state.socket.readSink = none) :
      Received sinks (Side.link sinks incoming { s with state := state }) :=
    FileDescriptorIo.other_received (s := ⟨state.socket, .idle⟩) h same pending
  cases hs with
  | send _ hs =>
    obtain ⟨_, _, rfl, _⟩ := Endpoint.write_ok hs
    exact FileDescriptorIo.other_received (s := ⟨_, .idle⟩) h rfl (Or.inl rfl)
  | request fresh empty hr => exact FileDescriptorIo.request_received h fresh empty hr
  | readHalf _ _ hr gives =>
    obtain ⟨id, pending, _⟩ := Endpoint.readHalf_ok hr
    obtain ⟨sink, appended⟩ := readHalf_appended hr pending gives unbroken (h.dynamic id pending)
    exact FileDescriptorIo.received_received h pending appended
  | writeHalf _ _ _ hw =>
    obtain ⟨_, _, _, _, ⟨_, _, same⟩ | ⟨_, _, _, _, ⟨_, _, same⟩ | ⟨_, _, _, _, same, _⟩⟩⟩ :=
      Endpoint.writeHalf_ok hw
    · rw [same]
      exact FileDescriptorIo.other_received (s := ⟨_, .idle⟩) h rfl (Or.inl rfl)
    · exact FileDescriptorIo.other_received (s := ⟨_, .idle⟩) h (by rw [same]; rfl) (Or.inl (by rw [same]; rfl))
    · exact FileDescriptorIo.other_received (s := ⟨_, .idle⟩) h (by rw [same]; rfl) (Or.inl (by rw [same]; rfl))
  | connects connects _ shut hs =>
    have same := connects_kept connects shut hs
    exact kept same.sinks same.readSink
  | closes closes hs =>
    obtain ⟨_, same⟩ | ⟨_, _, _, same, none_, _⟩ := closes_shut closes hs
    · exact kept (by rw [same]) (Or.inl (by rw [same]))
    · exact kept same (Or.inr none_)
  | other apart hs =>
    obtain ⟨same, _⟩ := apart_kept apart hs
    exact kept same.sinks same.readSink

end Received

section Conversation

variable [SinkData T] [SinkData U] {sources' : SourceId → Source} {sinks : SinkId → SinkAdapter T}
  {sinks' : SinkId → SinkAdapter U}

/-- Two sockets at the ends of one connection. -/
structure Conversation (T U : Type) where
  near : Side T
  far : Side U

inductive ConversationLabel
  | near (label : Label)
  | far (label : Label)

def ConversationLabel.Unbroken : ConversationLabel → Prop
  | near label => label.Unbroken
  | far label => label.Unbroken

/-- Each end reads what the connection took from the other one. -/
inductive ConversationStep : Conversation T U → ConversationLabel → Conversation T U → Prop
  | near {c : Conversation T U} {label s} (h : SideStep c.far.accepted c.near label s) :
      ConversationStep c (.near label) { c with near := s }
  | far {c : Conversation T U} {label s} (h : SideStep c.near.accepted c.far label s) :
      ConversationStep c (.far label) { c with far := s }

omit [SinkData T] [SinkData U] in
/-- What the sinks hold, in the order in which they were to be filled. -/
def Side.held (s : Side T) : List Cell :=
  (s.requested.map fun sink => (s.state.socket.sinks sink).contents).flatten

/-- What one end sent stands in the sinks of the other one, followed by what is on the way and what is left of the
sources, until the end that sent it is closed; after that it stands there up to some byte. -/
structure Transmits (sources : SourceId → Source) (sender : Side T) (receiver : Side U) : Prop where
  taken : receiver.taken ≤ sender.accepted.length
  held : receiver.held = (sender.accepted.take receiver.taken).map some
  accepted : sender.accepted <+: contents sources sender.submitted
  whole : sender.ended = false →
    receiver.held ++ (sender.accepted.drop receiver.taken ++ left sender.state.socket).map some =
      (contents sources sender.submitted).map some

omit [SinkData T] in
theorem transmits {sender : Side T} {receiver : Side U} (sent : Sent sources sender)
    (received : Received sinks' (receiver.link sinks' sender.accepted)) : Transmits sources sender receiver := by
  refine ⟨received.taken, received.held, sent.front, fun first => ?_⟩
  have held : receiver.held = (sender.accepted.take receiver.taken).map some := received.held
  rw [held, ← List.map_append, ← List.append_assoc, List.take_append_drop, sent.whole first]

/-- Two sockets before they are connected. -/
def beginning (eventLoop eventLoop' : Option (EventLoop Handler)) (sinks : SinkId → SinkAdapter T)
    (sinks' : SinkId → SinkAdapter U) (sources sources' : SourceId → Source) : Conversation T U :=
  ⟨{ state := initial eventLoop sinks sources }, { state := initial eventLoop' sinks' sources' }⟩

theorem accepted_grows (hs : SideStep incoming s label t) : s.accepted <+: t.accepted := by
  cases hs with
  | writeHalf => exact List.prefix_append _ _
  | send | request | readHalf | connects | closes | other => exact List.prefix_rfl

theorem received_grows {accepted : List Byte} (h : Received sinks (s.link sinks incoming))
    (grows : incoming <+: accepted) : Received sinks (s.link sinks accepted) :=
  FileDescriptorIo.writer_received (d := (s.link sinks accepted).writer) h grows

omit [SinkData T] in
theorem beginning_sent (eventLoop : Option (EventLoop Handler)) (sinks : SinkId → SinkAdapter T)
    (sources : SourceId → Source) : Sent sources { state := initial eventLoop sinks sources } where
  distinct := List.nodup_nil
  queued := List.Sublist.refl _
  fresh _ _ := rfl
  front := List.prefix_rfl
  whole _ := rfl
  shut ended := by cases ended

theorem beginning_received (eventLoop : Option (EventLoop Handler)) (sinks : SinkId → SinkAdapter T)
    (sources : SourceId → Source) :
    Received sinks (Side.link sinks [] { state := initial eventLoop sinks sources }) where
  taken := Nat.zero_le _
  distinct := List.nodup_nil
  pending _ none_ := by cases none_
  dynamic _ none_ := by cases none_
  maximum _ := rfl
  bounded _ none_ := absurd none_ List.not_mem_nil
  held := rfl

/-- What a run keeps. -/
structure Holds (sources sources' : SourceId → Source) (sinks : SinkId → SinkAdapter T)
    (sinks' : SinkId → SinkAdapter U) (c : Conversation T U) : Prop where
  near : Sent sources c.near
  far : Sent sources' c.far
  nearReceived : Received sinks (c.near.link sinks c.far.accepted)
  farReceived : Received sinks' (c.far.link sinks' c.near.accepted)

theorem conversation_step {c c' : Conversation T U} {label : ConversationLabel}
    (h : Holds sources sources' sinks sinks' c) (unbroken : label.Unbroken) (hs : ConversationStep c label c') :
    Holds sources sources' sinks sinks' c' := by
  cases hs with
  | near hs =>
    exact ⟨sent_step h.near hs, h.far, received_step h.nearReceived unbroken hs,
      received_grows h.farReceived (accepted_grows hs)⟩
  | far hs =>
    exact ⟨h.near, sent_step h.far hs, received_grows h.nearReceived (accepted_grows hs),
      received_step h.farReceived unbroken hs⟩

/-- However the steps of two connected sockets interleave, each end holds what the other one sent, in order and
without loss. -/
theorem conversation {eventLoop eventLoop' : Option (EventLoop Handler)} {labels : List ConversationLabel}
    {c : Conversation T U}
    (run : Transition.Run ConversationStep (beginning eventLoop eventLoop' sinks sinks' sources sources') labels c)
    (unbroken : ∀ label ∈ labels, label.Unbroken) :
    Transmits sources c.near c.far ∧ Transmits sources' c.far c.near := by
  have first : Holds sources sources' sinks sinks' (beginning eventLoop eventLoop' sinks sinks' sources sources') :=
    ⟨beginning_sent _ _ _, beginning_sent _ _ _, beginning_received _ _ _, beginning_received _ _ _⟩
  have h := (run.restrict unbroken).invariant first fun h hs => conversation_step h hs.1 hs.2
  exact ⟨transmits h.near h.farReceived, transmits h.far h.nearReceived⟩

/-- One end sends a byte before it is connected, and the other one receives it. -/
def byteLabels : List ConversationLabel :=
  [.near (.send 0 true), .near (.connect (.connected 5) none), .far (.open 6 none 0), .far (.receive (some 0) true),
    .near (.event EventLoop.Write), .near .skip, .near (.writeHalf (.ok 1)), .far (.event EventLoop.Read),
    .far (.readHalf FileDescriptorIo.byteCall)]

def byteBeginning : Conversation StringData StringData :=
  beginning (some FileDescriptorIo.noEvents) (some FileDescriptorIo.noEvents) (fun _ => ⟨1, []⟩) (fun _ => ⟨1, []⟩)
    (fun _ => ⟨[7#8], 0⟩) fun _ => ⟨[], 0⟩

theorem conversation_byte : ∃ c : Conversation StringData StringData,
    Transition.Run ConversationStep byteBeginning byteLabels c ∧ c.far.held = [some 7#8] ∧
      Transmits (fun _ => ⟨[7#8], 0⟩) c.near c.far ∧ Transmits (fun _ => ⟨[], 0⟩) c.far c.near := by
  have unbroken : ∀ label ∈ byteLabels, label.Unbroken := by
    intro label member
    simp only [byteLabels, List.mem_cons, List.not_mem_nil, or_false] at member
    rcases member with rfl | rfl | rfl | rfl | rfl | rfl | rfl | rfl | rfl
    any_goals trivial
    intro n errno _ failed
    cases failed
  have run : ∃ c : Conversation StringData StringData,
      Transition.Run ConversationStep byteBeginning byteLabels c ∧ c.far.held = [some 7#8] := by
    refine ⟨_, ((((((((Transition.Run.start.next (.near (.send (by decide) rfl))).next
      (.near (.connects trivial rfl rfl (.connect rfl)))).next
      (.far (.connects trivial rfl rfl (.open rfl)))).next (.far (.request (by decide) rfl rfl))).next
      (.near (.other trivial (.event rfl (by decide))))).next
      (.near (.other trivial (.readSkip (by decide))))).next
      (.near (.writeHalf rfl (by decide) (fun shut => absurd shut (by decide)) rfl))).next
      (.far (.other trivial (.event rfl (by decide))))).next
      (.far (.readHalf rfl (by decide) rfl ?_)), rfl⟩
    exact FileDescriptorIo.byteCall_gives
  obtain ⟨c, run, held⟩ := run
  exact ⟨c, run, held, conversation run unbroken⟩

end Conversation

end Socket

end Hlib
