import Hlib.ReadCompletion
import Hlib.ReadEvent
import Hlib.WriteOrder

namespace Hlib

open Function (update update_self update_of_ne)
open FlagMask (Meets)
open EventLoop (Read)

namespace FileDescriptorIo

/-- Two `FileDescriptorIo`s with a FIFO between them: one that writes, with the history of its writes,
one that reads, how much was read of what the FIFO accepted, and the sinks that were to be filled. -/
structure Link (T U : Type) where
  writer : Delivery T
  reader : State U
  taken : Nat := 0
  requested : List SinkId := []

inductive LinkLabel
  | writer (label : Label)
  | reader (label : Label)

/-- What a FIFO gives a read half that asks for so many bytes: what it holds, in order, and an end only
where it holds nothing. -/
structure Gives (unread : List Byte) (requested : Nat) (call : ReadCall) : Prop where
  available : ∀ {n}, call.available = .ok n → n ≤ unread.length
  received : ∀ {bytes}, call.received = .ok bytes → bytes <+: unread
  ended : call.received = .ok [] → unread = [] ∨ requested = 0

/-- Steps that neither ask for a sink to be filled nor fill one. -/
def Label.Apart : Label → Prop
  | .read (some _) _ | .readHalf _ => False
  | _ => True

variable {T U : Type}

def Link.unread (l : Link T U) : List Byte := l.writer.accepted.drop l.taken

section Steps

variable [SinkData T] [SinkData U]

/-- Every sink is asked for at most once, and is empty then. -/
inductive LinkStep : Link T U → LinkLabel → Link T U → Prop
  | writer {l : Link T U} {label d} (h : DeliveryStep l.writer label d) :
      LinkStep l (.writer label) { l with writer := d }
  | request {l : Link T U} {sink callback io'} (fresh : sink ∉ l.requested)
      (empty : (l.reader.io.sinks sink).contents = [])
      (h : l.reader.io.read (some sink) callback = .ok io') :
      LinkStep l (.reader (.read (some sink) callback))
        { l with
          reader := ⟨io', l.reader.stage⟩
          requested := l.requested ++ [sink] }
  | received {l : Link T U} {events call half} (stage : l.reader.stage = .reading events)
      (asked : Meets Read events) (h : l.reader.io.readHalf call = .ok half)
      (gives : Gives l.unread half.requested call) :
      LinkStep l (.reader (.readHalf call))
        { l with
          reader := ⟨half.io, afterRead events half.outcome⟩
          taken := l.taken + half.returned.length }
  | other {l : Link T U} {label s'} (apart : label.Apart) (h : Step l.reader label s') :
      LinkStep l (.reader label) { l with reader := s' }

end Steps

/-- No `::read` fails behind a `FIONREAD` that did not. -/
def LinkLabel.Unbroken : LinkLabel → Prop
  | .reader (.readHalf call) => ∀ n errno, call.available = .ok n → call.received ≠ .error errno
  | _ => True

def linked (eventLoop eventLoop' : Option (EventLoop Handler)) (sources : SourceId → Source)
    (sinks : SinkId → SinkAdapter U) (unused : SinkId → SinkAdapter T) (unused' : SourceId → Source) :
    Link T U :=
  { writer := { state := initial eventLoop unused sources }
    reader := initial eventLoop' sinks unused' }

/-- What the entries in the queue still have to send. -/
def left (io : FileDescriptorIo T) : List Byte :=
  (io.writeQueue.map fun entry => (io.sources entry.source).remaining).flatten

variable [SinkData U]

/-- What the sinks hold, in the order in which they were to be filled. -/
def held (l : Link T U) : List Cell :=
  (l.requested.map fun sink => (l.reader.io.sinks sink).contents).flatten

/-- What was read is in the sinks in order, each after those asked for before it. -/
structure Received (sinks : SinkId → SinkAdapter U) (l : Link T U) : Prop where
  taken : l.taken ≤ l.writer.accepted.length
  distinct : l.requested.Nodup
  pending : ∀ id, l.reader.io.readSink = some id → ∃ before, l.requested = before ++ [id]
  dynamic : ∀ id, l.reader.io.readSink = some id → (l.reader.io.sinks id).maximum = 0 →
    (l.reader.io.sinks id).contents = []
  maximum : ∀ id, (l.reader.io.sinks id).maximum = (sinks id).maximum
  bounded : ∀ id ∈ l.requested, (sinks id).maximum ≠ 0 → (l.reader.io.sinks id).size ≤ (sinks id).maximum
  held : held l = (l.writer.accepted.take l.taken).map some

/-- What was taken and what is left of the sources make up what was submitted. -/
theorem accepted_left {sources : SourceId → Source} {d : Delivery T} (h : InOrder sources d) :
    d.accepted ++ left d.state.io = contents sources d.submitted := by
  obtain ⟨taken, accepted, waiting⟩ := h.accepted
  rw [accepted, h.split, contents_append, List.append_assoc, List.append_cancel_left_eq]
  unfold left
  cases queued : d.state.io.writeQueue with
  | nil =>
    rw [queued] at waiting
    rw [show taken = [] from waiting]
    rfl
  | cons front rest =>
    rw [queued] at waiting
    obtain ⟨whole, _, others⟩ := waiting
    rw [List.map_cons, List.flatten_cons, contents_cons, ← whole, List.append_assoc]
    have same : rest.map (fun entry => (d.state.io.sources entry.source).remaining) =
        rest.map fun entry => (sources entry.source).remaining :=
      List.map_congr_left fun entry he => by rw [(others entry he).1]
    rw [same]
    rfl

/-- What a read half took from a FIFO. -/
structure Appended (io : FileDescriptorIo U) (half : ReadHalf Handler U) (id : SinkId)
    (unread : List Byte) (sink : SinkAdapter U) : Prop where
  sinks : half.io.sinks = update io.sinks id sink
  maximum : sink.maximum = (io.sinks id).maximum
  contents : sink.contents = (io.sinks id).contents ++ half.returned.map some
  returned : half.returned <+: unread
  bounded : (io.sinks id).size ≤ (io.sinks id).maximum → sink.maximum ≠ 0 → sink.size ≤ sink.maximum
  pending : half.io.readSink = none ∨
    half.io.readSink = some id ∧ (sink.maximum = 0 → sink.contents = [])

/-- Where a FIFO gives nothing, the sink was asked for no room. -/
theorem Gives.asked_nothing {sink : SinkAdapter U} {unread : List Byte} {available requested : Nat} {call : ReadCall}
    (gives : Gives unread requested call) (fionread : call.available = .ok available)
    (unbroken : ∀ errno, call.received ≠ .error errno) (headroom : sink.headroom available = .ok requested)
    (dynamic : sink.maximum = 0 → sink.contents = [])
    (room : ∀ bytes, call.received = .ok bytes → bytes ≠ [] → requested = 0) : requested = 0 := by
  cases received : call.received with
  | error errno => exact absurd received (unbroken errno)
  | ok bytes =>
    by_cases empty : bytes = []
    · subst empty
      obtain none | zero := gives.ended received
      · have bound := gives.available fionread
        rw [none, List.length_nil, Nat.le_zero] at bound
        exact (Endpoint.requested_zero_iff headroom dynamic).mpr (Or.inl bound)
      · exact zero
    · exact room bytes received empty

theorem readHalf_appended {io : FileDescriptorIo U} {call : ReadCall} {half : ReadHalf Handler U}
    {id : SinkId} {unread : List Byte} (h : io.readHalf call = .ok half) (pending : io.readSink = some id)
    (gives : Gives unread half.requested call)
    (unbroken : ∀ n errno, call.available = .ok n → call.received ≠ .error errno)
    (dynamic : (io.sinks id).maximum = 0 → (io.sinks id).contents = []) :
    ∃ sink, Appended io half id unread sink := by
  obtain ⟨id', pending', failed | ⟨available, sink, fionread, produced, after⟩⟩ := Endpoint.readHalf_ok h
  · cases pending.symm.trans pending'
    obtain ⟨errno, _, rfl⟩ := failed
    refine ⟨io.sinks id, (Function.update_eq_self _ _).symm, rfl, ?_, List.nil_prefix, ?_, ?_⟩
    · exact (List.append_nil _).symm
    · exact fun size _ => size
    · exact Or.inr ⟨pending, dynamic⟩
  · cases pending.symm.trans pending'
    have kept : half.io.sinks = update io.sinks id sink ∧
        (half.io.readSink = none ∨ half.io.readSink = some id ∧ half.outcome ≠ .full id io.readCallback) := by
      obtain ⟨goes, same⟩ | ⟨_, completed⟩ := after
      · rw [same]
        refine ⟨rfl, Or.inr ⟨pending, ?_⟩⟩
        obtain ⟨errno, failed⟩ | more := goes
        · rw [failed]
          exact ReadOutcome.noConfusion
        · rw [more]
          exact ReadOutcome.noConfusion
      · obtain ⟨_, same, _⟩ := Endpoint.completeRead_ok completed
        rw [same]
        exact ⟨rfl, Or.inl rfl⟩
    obtain ⟨sinks, pends⟩ := kept
    obtain ⟨nothing, ⟨junk, grown, length⟩, room, _⟩ | ⟨some, ⟨bytes, received, taken⟩, contents, outcome⟩ :=
      produced.outcome
    · have zero : half.requested = 0 :=
        gives.asked_nothing fionread (unbroken available · fionread) produced.headroom dynamic room
      have unchanged : sink.contents = (io.sinks id).contents := by
        rw [zero] at length
        rw [grown, List.length_eq_zero_iff.mp length, List.append_nil]
      refine ⟨sink, sinks, produced.maximum, ?_, ?_, ?_, ?_⟩
      · rw [nothing, unchanged]
        exact (List.append_nil _).symm
      · rw [nothing]
        exact List.nil_prefix
      · intro size _
        rw [produced.maximum]
        exact (congrArg List.length unchanged).trans_le size
      · refine pends.imp_right fun pends => ⟨pends.1, fun none => ?_⟩
        rw [unchanged]
        exact dynamic (produced.maximum ▸ none)
    · refine ⟨sink, sinks, produced.maximum, contents, ?_, ?_, ?_⟩
      · rw [taken]
        exact (List.take_prefix _ _).trans (gives.received received)
      · intro _ limited
        rw [produced.maximum] at limited ⊢
        have fits := (Endpoint.headroom_fits produced.headroom).resolve_left limited
        have size : sink.size = (io.sinks id).size + half.returned.length := by
          rw [SinkAdapter.size, contents, List.length_append, List.length_map]
          rfl
        have bound : half.returned.length ≤ half.requested := by
          rw [taken, List.length_take]
          exact Nat.min_le_left _ _
        omega
      · refine pends.imp_right fun pends => ⟨pends.1, fun none => ?_⟩
        obtain ⟨notFull, _⟩ | ⟨_, full⟩ := outcome
        · rw [SinkAdapter.full, none] at notFull
          simp at notFull
        · exact absurd full pends.2

theorem apart_step {s t : State U} {label : Label} (apart : label.Apart) (h : Step s label t) :
    t.io.sinks = s.io.sinks ∧ (t.io.readSink = s.io.readSink ∨ t.io.readSink = none) := by
  have shut {io io' : FileDescriptorIo U} (h : io.close = .ok io') :
      io'.sinks = io.sinks ∧ (io'.readSink = io.readSink ∨ io'.readSink = none) := by
    obtain ⟨_, same⟩ | ⟨_, _, same, _⟩ := Endpoint.close_ok h
    · rw [same]
      exact ⟨rfl, Or.inl rfl⟩
    · rw [same]
      exact ⟨rfl, Or.inr rfl⟩
  cases h with
  | @read _ _ _ sink _ hr =>
    obtain ⟨_, _, rfl, _⟩ := Endpoint.read_ok hr
    cases sink with
    | none => exact ⟨rfl, Or.inr rfl⟩
    | some sink => exact apart.elim
  | write hw =>
    obtain ⟨_, _, rfl, _⟩ := Endpoint.write_ok hw
    exact ⟨rfl, Or.inl rfl⟩
  | attach _ ha =>
    obtain ⟨_, _, rfl⟩ | ⟨_, _, _, _, _, _, _, rfl⟩ := Endpoint.attach_ok ha <;> exact ⟨rfl, Or.inl rfl⟩
  | writeHalf _ hw =>
    obtain ⟨_, _, _, _, ⟨_, _, rfl⟩ | ⟨_, _, _, _, ⟨_, _, kept⟩ | ⟨_, _, _, _, same, _⟩⟩⟩ :=
      Endpoint.writeHalf_ok hw
    · exact ⟨rfl, Or.inl rfl⟩
    · rw [kept]
      exact ⟨rfl, Or.inl rfl⟩
    · rw [same]
      exact ⟨rfl, Or.inl rfl⟩
  | close hc => exact shut hc
  | closed hc => exact shut hc
  | readHalf => exact apart.elim
  | expire | elsewhere | event | readSkip | writeSkip | hangUp | hangSkip => exact ⟨rfl, Or.inl rfl⟩

theorem accepted_grows [SinkData T] {d d' : Delivery T} {label : Label} (h : DeliveryStep d label d') :
    d.accepted <+: d'.accepted := by
  cases h with
  | sent | completed => exact List.prefix_append _ _
  | write | refused | other => exact List.prefix_rfl

section Run

variable {sinks : SinkId → SinkAdapter U} {l l' : Link T U} {label : LinkLabel}

theorem writer_received {d : Delivery T} (h : Received sinks l) (grows : l.writer.accepted <+: d.accepted) :
    Received sinks { l with writer := d } := by
  obtain ⟨more, same⟩ := grows
  refine ⟨?_, h.distinct, h.pending, h.dynamic, h.maximum, h.bounded, ?_⟩
  · exact Nat.le_trans h.taken (by rw [← same, List.length_append]; exact Nat.le_add_right _ _)
  · refine h.held.trans ?_
    change _ = (d.accepted.take l.taken).map some
    rw [← same, List.take_append_of_le_length h.taken]

theorem other_received {s : State U} (h : Received sinks l) (same : s.io.sinks = l.reader.io.sinks)
    (pends : s.io.readSink = l.reader.io.readSink ∨ s.io.readSink = none) :
    Received sinks { l with reader := s } := by
  have still : ∀ {id}, s.io.readSink = some id → l.reader.io.readSink = some id := by
    intro id pending
    obtain kept | none := pends
    · exact kept ▸ pending
    · cases none.symm.trans pending
  refine ⟨h.taken, h.distinct, fun id pending => h.pending id (still pending), ?_, ?_, ?_, ?_⟩
  · intro id pending
    rw [same]
    exact h.dynamic id (still pending)
  · intro id
    rw [same]
    exact h.maximum id
  · intro id member
    rw [same]
    exact h.bounded id member
  · refine Eq.trans ?_ h.held
    unfold held
    rw [same]

theorem request_received {sink : SinkId} {callback : Bool} {io' : FileDescriptorIo U} (h : Received sinks l)
    (fresh : sink ∉ l.requested) (empty : (l.reader.io.sinks sink).contents = [])
    (hr : l.reader.io.read (some sink) callback = .ok io') :
    Received sinks { l with
      reader := ⟨io', l.reader.stage⟩
      requested := l.requested ++ [sink] } := by
  obtain ⟨_, _, rfl, _⟩ := Endpoint.read_ok hr
  refine ⟨h.taken, ?_, ?_, ?_, h.maximum, ?_, ?_⟩
  · rw [List.nodup_append]
    refine ⟨h.distinct, List.pairwise_singleton .., ?_⟩
    intro id member other new same
    cases List.mem_singleton.mp new
    exact fresh (same ▸ member)
  · intro id pending
    cases pending
    exact ⟨l.requested, rfl⟩
  · intro id pending _
    cases pending
    exact empty
  · intro id member limited
    rcases List.mem_append.mp member with old | new
    · exact h.bounded id old limited
    · cases List.mem_singleton.mp new
      exact (congrArg List.length empty).trans_le (Nat.zero_le _)
  · refine Eq.trans ?_ h.held
    change ((l.requested ++ [sink]).map fun sink => (l.reader.io.sinks sink).contents).flatten = _
    rw [List.map_append, List.flatten_append, List.map_singleton, empty]
    exact List.append_nil _

/-- The bytes that a read half took stand behind those that the sinks held. -/
theorem held_received {half : ReadHalf Handler U} {id : SinkId} {sink : SinkAdapter U} {stage : Stage}
    {before : List SinkId} (requested : l.requested = before ++ [id]) (apart : id ∉ before)
    (appended : Appended l.reader.io half id l.unread sink) :
    held { l with
      reader := ⟨half.io, stage⟩
      taken := l.taken + half.returned.length } = held l ++ half.returned.map some := by
  have others : before.map (fun other => (half.io.sinks other).contents) =
      before.map fun other => (l.reader.io.sinks other).contents := by
    refine List.map_congr_left fun other member => ?_
    have ne : other ≠ id := fun same => apart (same ▸ member)
    rw [appended.sinks, update_of_ne ne]
  unfold held
  rw [requested, List.map_append, List.flatten_append, List.map_singleton, List.map_append, List.flatten_append,
    List.map_singleton, others, appended.sinks, update_self, appended.contents, List.flatten_singleton,
    List.flatten_singleton, List.append_assoc]

theorem received_received {half : ReadHalf Handler U} {id : SinkId} {sink : SinkAdapter U} {stage : Stage}
    (h : Received sinks l) (pending : l.reader.io.readSink = some id)
    (appended : Appended l.reader.io half id l.unread sink) :
    Received sinks { l with
      reader := ⟨half.io, stage⟩
      taken := l.taken + half.returned.length } := by
  obtain ⟨before, requested⟩ := h.pending id pending
  have distinct := h.distinct
  rw [requested, List.nodup_append] at distinct
  have apart : id ∉ before := fun member => distinct.2.2 id member id (List.mem_singleton_self id) rfl
  have still : ∀ {other}, half.io.readSink = some other →
      other = id ∧ (sink.maximum = 0 → sink.contents = []) := by
    intro other now
    obtain none | ⟨same, dynamic⟩ := appended.pending
    · cases none.symm.trans now
    · cases same.symm.trans now
      exact ⟨rfl, dynamic⟩
  have returned := appended.returned
  have fits : half.returned.length ≤ l.writer.accepted.length - l.taken := by
    have bound := returned.length_le
    rwa [Link.unread, List.length_drop] at bound
  have taken := h.taken
  refine ⟨?_, h.distinct, ?_, ?_, ?_, ?_, ?_⟩
  · change l.taken + half.returned.length ≤ l.writer.accepted.length
    omega
  · intro other now
    obtain ⟨rfl, _⟩ := still now
    exact ⟨before, requested⟩
  · intro other now
    obtain ⟨rfl, dynamic⟩ := still now
    rw [appended.sinks, update_self]
    exact dynamic
  · intro other
    rw [appended.sinks]
    by_cases same : other = id
    · subst same
      rw [update_self, appended.maximum]
      exact h.maximum other
    · rw [update_of_ne same]
      exact h.maximum other
  · intro other member limited
    rw [appended.sinks]
    by_cases same : other = id
    · subst same
      have was := h.bounded other member limited
      have whole := appended.bounded
      rw [appended.maximum, h.maximum] at whole
      rw [update_self]
      exact whole was limited
    · rw [update_of_ne same]
      exact h.bounded other member limited
  · have front : half.returned = l.unread.take half.returned.length := List.prefix_iff_eq_take.mp returned
    rw [held_received requested apart appended, h.held, ← List.map_append, List.take_add]
    exact congrArg (fun bytes => (l.writer.accepted.take l.taken ++ bytes).map some) front

theorem link_step [SinkData T] (h : Received sinks l) (unbroken : label.Unbroken) (hs : LinkStep l label l') :
    Received sinks l' := by
  cases hs with
  | writer hd => exact writer_received h (accepted_grows hd)
  | request fresh empty hr => exact request_received h fresh empty hr
  | received stage asked hr gives =>
    obtain ⟨id, pending, _⟩ := Endpoint.readHalf_ok hr
    obtain ⟨sink, appended⟩ := readHalf_appended hr pending gives unbroken (h.dynamic id pending)
    exact received_received h pending appended
  | other apart hs =>
    obtain ⟨same, pends⟩ := apart_step apart hs
    exact other_received h same pends

end Run

end FileDescriptorIo

end Hlib
