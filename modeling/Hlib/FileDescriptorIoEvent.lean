import Hlib.FileDescriptorIoInterest

namespace Hlib

open Function (update update_of_ne)
open FlagMask (Meets)
open EventLoop (Read Write Error Hup)
open Endpoint (InStep Retuned Released)

namespace FileDescriptorIo

variable {T : Type} {io io' io'' : FileDescriptorIo T}

/-- A change of an object that is not opened by it, and of its own registration only. -/
structure Framed (io io' : FileDescriptorIo T) : Prop where
  inStep : io.InStep → io'.InStep
  fd : io'.fd = io.fd ∨ io'.fd = -1
  loop : ∀ {loop}, io.eventLoop = some loop → ∃ loop', io'.eventLoop = some loop' ∧
    ∀ x, x ≠ -1 → x ≠ io.fd → loop'.interest x = loop.interest x

theorem Framed.refl (io : FileDescriptorIo T) : Framed io io :=
  ⟨id, Or.inl rfl, fun alive => ⟨_, alive, fun _ _ _ => rfl⟩⟩

theorem Framed.trans (h : Framed io io') (h' : Framed io' io'') : Framed io io'' := by
  refine ⟨fun inStep => h'.inStep (h.inStep inStep), ?_, ?_⟩
  · rcases h'.fd with same | shut
    · rw [same]
      exact h.fd
    · exact Or.inr shut
  · intro loop alive
    obtain ⟨loop', alive', first⟩ := h.loop alive
    obtain ⟨loop'', alive'', second⟩ := h'.loop alive'
    refine ⟨loop'', alive'', ?_⟩
    intro x valid other
    have other' : x ≠ io'.fd := by
      rcases h.fd with same | shut
      · rwa [same]
      · rwa [shut]
    exact (second x valid other').trans (first x valid other)

theorem framed_retuned (inStep : io.InStep → io'.InStep) (fd : io'.fd = io.fd)
    (retuned : Retuned io.fd io.eventLoop io'.eventLoop) : Framed io io' := by
  refine ⟨inStep, Or.inl fd, ?_⟩
  intro loop alive
  obtain same | ⟨loop', events, before, _, after⟩ := retuned
  · exact ⟨loop, same.trans alive, fun _ _ _ => rfl⟩
  · cases Option.some.inj (alive.symm.trans before)
    exact ⟨_, after, fun x _ other => update_of_ne other _ _⟩

theorem read_framed {sink : Option SinkId} {callback : Bool}
    (h : io.read sink callback = .ok io') : Framed io io' := by
  have inStep := fun before => read_inStep before h
  obtain ⟨_, _, rfl, _, retuned, _⟩ := Endpoint.read_ok h
  exact framed_retuned inStep rfl retuned

theorem write_framed {source : SourceId} {callback : Bool}
    (h : io.write source callback = .ok io') : Framed io io' := by
  have inStep := fun before => write_inStep before h
  obtain ⟨_, _, rfl, _, retuned, _⟩ := Endpoint.write_ok h
  exact framed_retuned inStep rfl retuned

/-- A change that gives an object no new work and no data. -/
structure Quiet (io io' : FileDescriptorIo T) : Prop extends Framed io io' where
  sink : io'.readSink = io.readSink ∨ io'.readSink = none
  queue : io.writeQueue = [] → io'.writeQueue = []
  sinks : io'.sinks = io.sinks

theorem Quiet.refl (io : FileDescriptorIo T) : Quiet io io :=
  ⟨Framed.refl io, Or.inl rfl, id, rfl⟩

theorem Quiet.trans (h : Quiet io io') (h' : Quiet io' io'') : Quiet io io'' := by
  refine ⟨h.toFramed.trans h'.toFramed, ?_, fun empty => h'.queue (h.queue empty),
    h'.sinks.trans h.sinks⟩
  rcases h'.sink with same | none
  · rw [same]
    exact h.sink
  · exact Or.inr none

theorem close_quiet (h : io.close = .ok io') : Quiet io io' := by
  have inStep := fun before => close_inStep before h
  obtain ⟨_, rfl⟩ | ⟨valid, eventLoop, rfl, released⟩ := Endpoint.close_ok h
  · exact Quiet.refl _
  · refine ⟨⟨inStep, Or.inr rfl, ?_⟩, Or.inr rfl, fun _ => rfl, rfl⟩
    intro loop alive
    obtain ⟨gone, _⟩ | ⟨_, before, after⟩ := released
    · cases alive.symm.trans gone
    · cases Option.some.inj (alive.symm.trans before)
      exact ⟨_, after, fun x _ other => update_of_ne other _ _⟩

theorem writeHalf_quiet {call : Result Nat} {half : WriteHalf Handler T}
    (h : io.writeHalf call = .ok half) : Quiet io half.io := by
  have inStep := fun before => writeHalf_inStep before h
  obtain ⟨front, rest, queued, _, ⟨_, _, rfl⟩ | ⟨_, count, _, _, more | popped⟩⟩ :=
    Endpoint.writeHalf_ok h
  · exact Quiet.refl _
  · rw [more.2.2] at inStep ⊢
    exact ⟨framed_retuned inStep rfl (Or.inl rfl), Or.inl rfl, id, rfl⟩
  · obtain ⟨_, _, _, _, he, _, retuned, _⟩ := popped
    rw [he] at inStep ⊢
    refine ⟨framed_retuned inStep rfl retuned, Or.inl rfl, ?_, rfl⟩
    intro empty
    cases queued.symm.trans empty

def OnlyClose (calls : List Call) : Prop := ∀ call ∈ calls, call = .close

theorem runCalls_quiet {calls : List Call} (only : OnlyClose calls)
    (h : runCalls perform calls io = .ok io') : Quiet io io' := by
  induction calls generalizing io with
  | nil =>
    cases Except.ok.inj h
    exact Quiet.refl _
  | cons call calls ih =>
    obtain ⟨after, hc, rest⟩ := bind_ok h
    rw [only call List.mem_cons_self] at hc
    exact (close_quiet hc).trans (ih (fun c hm => only c (List.mem_cons_of_mem _ hm)) rest)

theorem runCallback_quiet {present : Bool} {calls : List Call} (only : OnlyClose calls)
    (h : runCallback perform present calls io = .ok io') : Quiet io io' := by
  unfold runCallback at h
  split at h
  · exact runCalls_quiet only h
  · cases Except.ok.inj h
    exact Quiet.refl _

theorem callbackAndClose_quiet {calls : List Call} {error : Errno} {handled : Handled T}
    (only : OnlyClose calls) (h : callbackAndClose perform calls error io = .ok handled) :
    Quiet io handled.io := by
  obtain ⟨_, hc, h⟩ := bind_ok h
  obtain ⟨_, hp, h⟩ := bind_ok h
  cases Except.ok.inj h
  exact (runCallback_quiet only hc).trans (close_quiet hp)

theorem onEventWrite_quiet {events : Events} {b : Behaviour} {handled : Handled T}
    (written : OnlyClose b.onWritten) (closed : OnlyClose b.onClose)
    (h : onEventWrite perform events b io = .ok handled) : Quiet io handled.io := by
  unfold onEventWrite at h
  split at h
  next =>
    obtain ⟨half, hw, h⟩ := bind_ok h
    refine (writeHalf_quiet hw).trans ?_
    split at h
    · cases Except.ok.inj h
      exact Quiet.refl _
    · obtain ⟨called, hc, h⟩ := bind_ok h
      cases Except.ok.inj h
      exact runCallback_quiet written hc
    · exact callbackAndClose_quiet closed h
  next =>
    cases Except.ok.inj h
    exact Quiet.refl _

variable [SinkData T]

theorem readHalf_framed {call : ReadCall} {half : ReadHalf Handler T}
    (h : io.readHalf call = .ok half) : Framed io half.io := by
  have inStep := fun before => readHalf_inStep before h
  obtain ⟨_, _, ⟨_, _, rfl⟩ | ⟨_, _, _, _, ⟨_, kept⟩ | ⟨_, completed⟩⟩⟩ := Endpoint.readHalf_ok h
  · exact Framed.refl _
  · rw [kept] at inStep ⊢
    exact framed_retuned inStep rfl (Or.inl rfl)
  · obtain ⟨_, he, retuned, _⟩ := Endpoint.completeRead_ok completed
    rw [he] at inStep ⊢
    exact framed_retuned inStep rfl retuned

theorem onEventRead_quiet {events : Events} {b : Behaviour} {handled : Handled T}
    (read : OnlyClose b.onRead) (closed : OnlyClose b.onClose) (asked : Meets Read events)
    (h : onEventRead perform events b io = .ok handled) :
    ∃ half, io.readHalf b.read = .ok half ∧ Quiet half.io handled.io := by
  unfold onEventRead at h
  rw [if_pos asked] at h
  obtain ⟨half, hr, h⟩ := bind_ok h
  refine ⟨half, hr, ?_⟩
  split at h
  · cases Except.ok.inj h
    exact Quiet.refl _
  · obtain ⟨called, hc, h⟩ := bind_ok h
    cases Except.ok.inj h
    exact runCallback_quiet read hc
  · obtain ⟨called, hc, h⟩ := bind_ok h
    obtain ⟨last, hl, h⟩ := bind_ok h
    have quiet := (runCallback_quiet read hc).trans (callbackAndClose_quiet closed hl)
    cases Except.ok.inj h
    exact quiet
  · exact callbackAndClose_quiet closed h

omit [SinkData T] in
theorem andThen_quiet {part : FileDescriptorIo T → Checked (Handled T)} {first handled : Handled T}
    (h : first.andThen part = .ok handled)
    (quiet : ∀ {next}, part first.io = .ok next → Quiet first.io next.io) :
    Quiet first.io handled.io := by
  unfold Handled.andThen at h
  split at h
  · obtain ⟨next, hn, h⟩ := bind_ok h
    have after := quiet hn
    cases Except.ok.inj h
    exact after
  · cases Except.ok.inj h
    exact Quiet.refl _

/-- Callbacks that at most close the object leave to an `onEvent` what its read half does. -/
theorem onEvent_quiet {events : Events} {b : Behaviour} {handled : Handled T}
    (read : OnlyClose b.onRead) (written : OnlyClose b.onWritten) (closed : OnlyClose b.onClose)
    (h : onEvent io.fd events b io = .ok handled) :
    Meets Read events ∧ (∃ half, io.readHalf b.read = .ok half ∧ Quiet half.io handled.io) ∨
      ¬Meets Read events ∧ Quiet io handled.io := by
  obtain ⟨_, _, h⟩ := bind_ok h
  obtain ⟨first, hf, h⟩ := bind_ok h
  obtain ⟨second, hs, h⟩ := bind_ok h
  have quiet : Quiet first.io handled.io := by
    refine (andThen_quiet hs (onEventWrite_quiet written closed)).trans (andThen_quiet h ?_)
    intro next hn
    split at hn
    · exact callbackAndClose_quiet closed hn
    · cases Except.ok.inj hn
      exact Quiet.refl _
  by_cases asked : Meets Read events
  · obtain ⟨half, hr, after⟩ := onEventRead_quiet read closed asked hf
    exact Or.inl ⟨asked, half, hr, after.trans quiet⟩
  · right
    unfold onEventRead at hf
    rw [if_neg asked] at hf
    cases Except.ok.inj hf
    exact ⟨asked, quiet⟩

/-- A read half gives all there is to a dynamic sink that is empty, and is done with it. -/
theorem readHalf_drains {id : SinkId} {bytes : List Byte} {alloc : Bool}
    {half : ReadHalf Handler T} (pending : io.readSink = some id)
    (empty : (io.sinks id).contents = []) (dynamic : (io.sinks id).maximum = 0) (some : bytes ≠ [])
    (h : io.readHalf ⟨.ok bytes.length, .ok bytes, alloc⟩ = .ok half) :
    half.returned = bytes ∧ (half.io.sinks id).contents = bytes.map Option.some ∧
      half.io.readSink = none ∧ half.io.writeQueue = io.writeQueue := by
  obtain ⟨id', pending', ⟨_, failed, _⟩ | ⟨available, sink, fionread, produced, after⟩⟩ :=
    Endpoint.readHalf_ok h
  · cases failed
  · cases pending.symm.trans pending'
    cases Except.ok.inj fionread
    have requested : half.requested = bytes.length := by
      have headroom := produced.headroom
      rw [SinkAdapter.headroom, if_pos dynamic, SinkAdapter.size, empty] at headroom
      rw [← Except.ok.inj headroom, List.length_nil, Nat.zero_add]
    obtain ⟨_, _, silent, _⟩ | ⟨_, ⟨_, received, taken⟩, contents, filled⟩ := produced.outcome
    · have zero := requested.symm.trans (silent bytes rfl some)
      exact absurd (List.length_eq_zero_iff.mp zero) some
    · cases Except.ok.inj received
      rw [requested, List.take_length] at taken
      have isFull : sink.full = true := by
        rw [SinkAdapter.full, produced.maximum, dynamic]
        exact decide_eq_true (Or.inl rfl)
      obtain ⟨notFull, _⟩ | ⟨_, outcome⟩ := filled
      · cases isFull.symm.trans notFull
      · obtain ⟨⟨_, failed⟩ | more, _⟩ | ⟨_, completed⟩ := after
        · cases outcome.symm.trans failed
        · cases outcome.symm.trans more
        · have kept := Endpoint.readHalf_sinks (Or.inr completed)
          obtain ⟨_, he, _⟩ := Endpoint.completeRead_ok completed
          rw [empty, List.nil_append, taken] at contents
          refine ⟨taken, kept ▸ contents, ?_, ?_⟩
          · rw [he]
          · rw [he]

/-- An event that is neither for input nor an error does nothing where nothing is to be written. -/
theorem onEvent_idle {events : Events} {b : Behaviour} {handled : Handled T}
    (h : onEvent io.fd events b io = .ok handled) (empty : io.writeQueue = [])
    (unasked : ¬Meets Read events) (whole : ¬Meets (Error ||| Hup) events) : handled.io = io := by
  obtain ⟨_, _, h⟩ := bind_ok h
  obtain ⟨first, hf, h⟩ := bind_ok h
  unfold onEventRead at hf
  rw [if_neg unasked] at hf
  cases Except.ok.inj hf
  obtain ⟨second, hs, h⟩ := bind_ok h
  obtain ⟨next, hn, hs⟩ := bind_ok hs
  cases Except.ok.inj hs
  unfold onEventWrite at hn
  split at hn
  next =>
    obtain ⟨half, hw, _⟩ := bind_ok hn
    unfold Endpoint.writeHalf at hw
    rw [empty] at hw
    cases hw
  next =>
    cases Except.ok.inj hn
    obtain ⟨last, hl, h⟩ := bind_ok h
    dsimp only at hl
    rw [if_neg whole] at hl
    cases Except.ok.inj hl
    cases Except.ok.inj h
    rfl

end FileDescriptorIo

end Hlib
