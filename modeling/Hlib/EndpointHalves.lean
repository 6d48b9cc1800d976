import Hlib.EndpointCalls

namespace Hlib

namespace Endpoint

open Function (update update_self update_of_ne)
open EventLoop (Read Write)

section ReadHalf

variable {κ T : Type} [SinkData T] {io : Endpoint κ T} {call : ReadCall} {half : ReadHalf κ T}

/-- A read half that got as far as asking the sink for room. -/
structure Produced (io : Endpoint κ T) (call : ReadCall) (half : ReadHalf κ T) (id : SinkId)
    (available : Nat) (sink : SinkAdapter T) : Prop where
  headroom : (io.sinks id).headroom available = .ok half.requested
  grown : ∃ grown, (io.sinks id).resize ((io.sinks id).size + half.requested) call.alloc = .ok grown
  maximum : sink.maximum = (io.sinks id).maximum
  outcome : half.returned = [] ∧
        (∃ junk, sink.contents = (io.sinks id).contents ++ junk ∧ junk.length = half.requested) ∧
        (∀ bytes, call.received = .ok bytes → bytes ≠ [] → half.requested = 0) ∧
        ((∃ errno, half.outcome = .failed errno) ∨ half.outcome = .eof id io.readCallback) ∨
      half.returned ≠ [] ∧
        (∃ bytes, call.received = .ok bytes ∧ half.returned = bytes.take half.requested) ∧
        sink.contents = (io.sinks id).contents ++ half.returned.map some ∧
        (sink.full = false ∧ half.outcome = .more ∨
          sink.full = true ∧ half.outcome = .full id io.readCallback)

theorem readHalf_ok (h : io.readHalf call = .ok half) :
    ∃ id, io.readSink = some id ∧
      ((∃ errno, call.available = .error errno ∧ half = { io := io, outcome := .failed errno }) ∨
        ∃ available sink, call.available = .ok available ∧ Produced io call half id available sink ∧
          (((∃ errno, half.outcome = .failed errno) ∨ half.outcome = .more) ∧
              half.io = { io with sinks := update io.sinks id sink } ∨
            (half.outcome = .eof id io.readCallback ∨ half.outcome = .full id io.readCallback) ∧
              ({ io with sinks := update io.sinks id sink } : Endpoint κ T).completeRead =
                .ok half.io)) := by
  unfold readHalf at h
  cases pending : io.readSink with
  | none =>
    rw [pending] at h
    cases h
  | some id =>
    rw [pending] at h
    refine ⟨id, rfl, ?_⟩
    cases fionread : call.available with
    | error errno =>
      rw [fionread] at h
      exact Or.inl ⟨errno, rfl, (Except.ok.inj h).symm⟩
    | ok available =>
      rw [fionread] at h
      right
      obtain ⟨headroom, hh, h⟩ := bind_ok h
      obtain ⟨⟨ptr, grown⟩, hp, h⟩ := bind_ok h
      obtain ⟨hg, maximum, ⟨junk, contents, length⟩, pointer⟩ := SinkAdapter.produce_ok hp
      cases ptr with
      | none =>
        -- `ENOMEM`, which a null pointer also means where nothing was asked for
        cases Except.ok.inj h
        refine ⟨available, grown, rfl, ⟨hh, ⟨_, hg⟩, maximum, ?_⟩, Or.inl ⟨Or.inl ⟨_, rfl⟩, rfl⟩⟩
        obtain ⟨_, empty⟩ | at_end := pointer
        · rw [empty] at contents
          have nothing := List.append_eq_nil_iff.mp contents.symm
          have zero : headroom = 0 := by rw [← length, nothing.2, List.length_nil]
          exact Or.inl ⟨rfl, ⟨junk, empty.trans contents, length⟩, fun _ _ _ => zero,
            Or.inl ⟨_, rfl⟩⟩
        · cases at_end
      | some ptr =>
        obtain ⟨nothing, _⟩ | at_end := pointer
        · cases nothing
        · cases Option.some.inj at_end
          cases got : call.received with
          | error errno =>
            -- the sink stays as it was grown, and at the end of file, too
            rw [got] at h
            cases Except.ok.inj h
            refine ⟨available, grown, rfl, ⟨hh, ⟨_, hg⟩, maximum, ?_⟩, Or.inl ⟨Or.inl ⟨_, rfl⟩, rfl⟩⟩
            exact Or.inl ⟨rfl, ⟨junk, contents, length⟩, fun _ got' => (nomatch got.symm.trans got'),
              Or.inl ⟨_, rfl⟩⟩
          | ok bytes =>
            rw [got] at h
            dsimp only at h
            split at h
            next nil =>
              obtain ⟨completed, hc, h⟩ := bind_ok h
              cases Except.ok.inj h
              refine ⟨available, grown, rfl, ⟨hh, ⟨_, hg⟩, maximum, ?_⟩, Or.inr ⟨Or.inl rfl, hc⟩⟩
              refine Or.inl ⟨rfl, ⟨junk, contents, length⟩, ?_, Or.inr rfl⟩
              intro bytes' got' some
              cases got.symm.trans got'
              exact (List.take_eq_nil_iff.mp nil).resolve_right some
            next some =>
              -- only here it is cut back to what came
              obtain ⟨stored, hs, h⟩ := bind_ok h
              obtain ⟨cut, hr, h⟩ := bind_ok h
              have room : (bytes.take headroom).length ≤ junk.length := by
                rw [List.length_take, length]
                exact Nat.min_le_left _ _
              obtain ⟨cutMaximum, cutContents⟩ := SinkAdapter.store_resize contents room hs hr
              split at h
              next full =>
                obtain ⟨completed, hc, h⟩ := bind_ok h
                cases Except.ok.inj h
                refine ⟨available, cut, rfl, ⟨hh, ⟨_, hg⟩, cutMaximum.trans maximum, ?_⟩,
                  Or.inr ⟨Or.inr rfl, hc⟩⟩
                exact Or.inr ⟨some, ⟨bytes, got, rfl⟩, cutContents, Or.inr ⟨full, rfl⟩⟩
              next notFull =>
                cases Except.ok.inj h
                refine ⟨available, cut, rfl, ⟨hh, ⟨_, hg⟩, cutMaximum.trans maximum, ?_⟩,
                  Or.inl ⟨Or.inr rfl, rfl⟩⟩
                exact Or.inr ⟨some, ⟨bytes, got, rfl⟩, cutContents,
                  Or.inl ⟨Bool.eq_false_iff.mpr notFull, rfl⟩⟩

/-- A null pointer from the sink is taken for a want of memory; else nothing fails behind it. -/
theorem readHalf_pointer (h : io.readHalf call = .ok half) {id : SinkId} {available : Nat}
    {bytes : List Byte} (pending : io.readSink = some id) (fionread : call.available = .ok available)
    (received : call.received = .ok bytes) :
    ∃ headroom grown, (io.sinks id).headroom available = .ok headroom ∧
      (io.sinks id).resize ((io.sinks id).size + headroom) call.alloc = .ok grown ∧
      (SinkData.null grown.data = true ∧ half.outcome = .failed 12 ∨
        SinkData.null grown.data = false ∧ (bytes.take headroom = [] ∧ half.outcome = .eof id io.readCallback ∨
          bytes.take headroom ≠ [] ∧ ∀ errno, half.outcome ≠ .failed errno)) := by
  unfold readHalf at h
  rw [pending] at h
  dsimp only at h
  rw [fionread] at h
  obtain ⟨headroom, hh, h⟩ := bind_ok h
  obtain ⟨⟨ptr, grown⟩, hp, h⟩ := bind_ok h
  obtain ⟨_, _, hp⟩ := bind_ok hp
  obtain ⟨grown', hg, hp⟩ := bind_ok hp
  obtain ⟨rfl, rfl⟩ := Prod.mk.inj (Except.ok.inj hp)
  refine ⟨headroom, grown', hh, hg, ?_⟩
  cases null : SinkData.null grown'.data with
  | true =>
    rw [null] at h
    cases h
    exact Or.inl ⟨rfl, rfl⟩
  | false =>
    rw [null, received] at h
    refine Or.inr ⟨rfl, ?_⟩
    simp only [Bool.false_eq_true, ↓reduceIte] at h
    split at h
    next nil =>
      obtain ⟨completed, _, h⟩ := bind_ok h
      cases h
      exact Or.inl ⟨nil, rfl⟩
    next some =>
      refine Or.inr ⟨some, ?_⟩
      obtain ⟨stored, _, h⟩ := bind_ok h
      obtain ⟨cut, _, h⟩ := bind_ok h
      split at h
      next =>
        obtain ⟨completed, _, h⟩ := bind_ok h
        cases h
        exact fun _ => nofun
      next =>
        cases h
        exact fun _ => nofun

omit [SinkData T] in
theorem readHalf_sinks {id : SinkId} {sink : SinkAdapter T} {after : Endpoint κ T}
    (h : after = { io with sinks := update io.sinks id sink } ∨
      ({ io with sinks := update io.sinks id sink } : Endpoint κ T).completeRead = .ok after) :
    after.sinks id = sink := by
  obtain rfl | completed := h
  · exact update_self id sink io.sinks
  · obtain ⟨_, rfl, _⟩ := completeRead_ok completed
    exact update_self id sink io.sinks

end ReadHalf

section WriteHalf

variable {κ T : Type} {io : Endpoint κ T} {call : Result Nat} {half : WriteHalf κ T}

/-- The endpoint after `count` more bytes of a source were consumed. -/
def advanced (io : Endpoint κ T) (id : SourceId) (count : Nat) : Endpoint κ T :=
  let source := io.sources id
  { io with sources := update io.sources id { source with progress := source.progress + count } }

theorem advanced_self (io : Endpoint κ T) (id : SourceId) (count : Nat) :
    ((io.advanced id count).sources id).remaining = (io.sources id).remaining.drop count := by
  have same := update_self id { io.sources id with progress := (io.sources id).progress + count }
    io.sources
  exact (congrArg Source.remaining same).trans (Source.remaining_advance _ _)

theorem advanced_other (io : Endpoint κ T) {id other : SourceId} (h : other ≠ id) (count : Nat) :
    (io.advanced id count).sources other = io.sources other :=
  update_of_ne h _ _

/-- The front entry leaves the queue, and with the last one the write interest ends. -/
def Popped (io : Endpoint κ T) (rest : List SendTuple) (io' : Endpoint κ T) : Prop :=
  ∃ eventLoop events, io' = { io with
      eventLoop := eventLoop, events := events, writeQueue := rest } ∧
    events = (if rest = [] then io.events &&& ~~~Write else io.events) ∧
    Retuned io.fd io.eventLoop eventLoop ∧ (io.Registered → io'.Registered)

theorem writeHalf_ok (h : io.writeHalf call = .ok half) :
    ∃ front rest, io.writeQueue = front :: rest ∧ (io.sources front.source).Valid ∧
      ((∃ errno, call = .error errno ∧ half = { io := io, outcome := .failed errno }) ∨
        (∃ size, call = .ok size) ∧ ∃ count ≤ (io.sources front.source).remaining.length,
          half.accepted = (io.sources front.source).remaining.take count ∧
          (count < (io.sources front.source).remaining.length ∧ half.outcome = .more ∧
              half.io = io.advanced front.source count ∨
            count = (io.sources front.source).remaining.length ∧ half.outcome = .completed front ∧
              (io.advanced front.source count).Popped rest half.io)) := by
  unfold writeHalf at h
  cases queued : io.writeQueue with
  | nil =>
    rw [queued] at h
    cases h
  | cons front rest =>
    rw [queued] at h
    obtain ⟨available, ha, h⟩ := bind_ok h
    obtain ⟨valid, rfl⟩ := Source.available_ok ha
    refine ⟨front, rest, rfl, valid, ?_⟩
    dsimp only at h
    rw [Source.peek_available valid, ok_bind] at h
    cases call with
    | error errno => exact Or.inl ⟨errno, rfl, (Except.ok.inj h).symm⟩
    | ok size =>
      right
      have bound := Nat.min_le_right size (io.sources front.source).remaining.length
      have left := Source.remaining_advance (io.sources front.source)
        (min size (io.sources front.source).remaining.length)
      refine ⟨⟨size, rfl⟩, _, bound, ?_⟩
      dsimp only at h
      rw [Source.consume_of_le valid bound, ok_bind] at h
      dsimp only at h
      rw [Source.empty_of_valid (Source.valid_advance valid bound), ok_bind, left] at h
      split at h
      next emptied =>
        obtain ⟨updated, hu, h⟩ := bind_ok h
        cases Except.ok.inj h
        have drained := List.drop_eq_nil_iff.mp (of_decide_eq_true emptied)
        refine ⟨rfl, Or.inr ⟨Nat.le_antisymm bound drained, rfl, ?_⟩⟩
        split at hu
        next last =>
          obtain ⟨eventLoop, rfl, retuned, registered⟩ := updateEventsLocked_ok hu
          exact ⟨eventLoop, _, rfl, by rw [if_pos last]; rfl, retuned, fun _ => registered⟩
        next others =>
          cases Except.ok.inj hu
          exact ⟨io.eventLoop, _, rfl, by rw [if_neg others]; rfl, Or.inl rfl, id⟩
      next unfinished =>
        cases Except.ok.inj h
        have some := mt decide_eq_true unfinished
        rw [List.drop_eq_nil_iff] at some
        exact ⟨rfl, Or.inl ⟨Nat.lt_of_not_le some, rfl, by rw [advanced, queued]⟩⟩

end WriteHalf

end Endpoint

end Hlib
