import Hlib.Transition
import Hlib.EndpointFaults
import Hlib.ReadCompletion

namespace Hlib

open FlagMask (Meets)
open EventLoop (Read Write)
open Transition (Follows follows_foldlM follows_some follows_ok)

/-- A partial account of calls: whether the object is open and whether something is queued, as long
as no call fails. -/
abbrev Account := Bool × Bool → Call → Option (Bool × Bool)

/-- Made on an open object with something queued, the calls succeed and leave the queue empty. -/
def EmptyQueue (next : Account) (calls : List Call) : Prop :=
  ∃ opened, calls.foldlM next (true, true) = some (opened, false)

namespace Endpoint

variable {κ T : Type} {io : Endpoint κ T} {events : Events}

/-- An open object whose registered interest matches its pending work, in a sound loop. -/
structure Matched (io : Endpoint κ T) : Prop where
  valid : io.fd ≠ -1
  inStep : io.InStep
  loop : ∃ loop, io.eventLoop = some loop ∧ loop.Sound ∧ loop.callbacks io.fd ≠ none

def Deliverable (io : Endpoint κ T) (events : Events) : Prop :=
  ∃ loop interest, io.eventLoop = some loop ∧ loop.interest io.fd = some interest ∧
    (Meets Read events → Meets Read interest) ∧ (Meets Write events → Meets Write interest)

/-- The events an object has work for. -/
structure Delivered (io : Endpoint κ T) (events : Events) : Prop where
  read : Meets Read events → io.readSink ≠ none
  write : Meets Write events → io.writeQueue ≠ []

theorem Matched.delivered (h : io.Matched) (deliverable : io.Deliverable events) :
    io.Delivered events := by
  obtain ⟨loop, interest, alive, watched, read, write⟩ := deliverable
  have registered := h.inStep.registered h.inStep.armed h.valid loop alive
  cases Option.some.inj (watched.symm.trans registered)
  exact ⟨fun asked => h.inStep.read.mp (read asked), fun asked => h.inStep.write.mp (write asked)⟩

theorem Matched.table (h : io.Matched) : Tabled io.foreign io.fd io.eventLoop := by
  obtain ⟨loop, alive, sound, called⟩ := h.loop
  exact tabled_foreign alive sound called

end Endpoint

/-- The read callback runs between the two halves and takes from the write half what it needs. -/
structure Interferes {T : Type} [SinkData T] (next : Account) (io : Endpoint Handler T)
    (events : Events) (b : Behaviour) : Prop where
  read : Meets Read events
  write : Meets Write events
  completes : io.Completes b.read
  callback : io.readCallback = true
  empty : EmptyQueue next b.onRead

section

variable {T : Type} [SinkData T]
  {perform : Call → Endpoint Handler T → Checked (Endpoint Handler T)} {io : Endpoint Handler T}
  {events : Events} {b : Behaviour}

omit [SinkData T] in
theorem callbackAndClose_returns {calls : List Call} {error : Errno} {handled : Handled T}
    (h : callbackAndClose perform calls error io = .ok handled) : handled.goesOn = false := by
  obtain ⟨_, _, h⟩ := bind_ok h
  obtain ⟨_, _, h⟩ := bind_ok h
  cases Except.ok.inj h
  rfl

/-- Where the read part goes on, the queue is what it was or what the read callback made of it. -/
theorem onEventRead_goesOn {handled : Handled T} (h : onEventRead perform events b io = .ok handled)
    (goesOn : handled.goesOn = true) :
    handled.io.writeQueue = io.writeQueue ∨
      Meets Read events ∧ io.Completes b.read ∧ io.readCallback = true ∧
        ∃ half, io.readHalf b.read = .ok half ∧ runCalls perform b.onRead half.io = .ok handled.io := by
  unfold onEventRead at h
  split at h
  next asked =>
    obtain ⟨half, hr, h⟩ := bind_ok h
    have returned : ∀ {errno}, half.outcome ≠ .failed errno := by
      intro errno failed
      rw [failed] at h
      have stopped := callbackAndClose_returns h
      rw [goesOn] at stopped
      cases stopped
    obtain ⟨id, _, ⟨_, _, rfl⟩ | ⟨_, sink, _, _, kept | ⟨ended, completed⟩⟩⟩ := Endpoint.readHalf_ok hr
    · exact absurd rfl returned
    · rcases kept.1 with ⟨errno, failed⟩ | more
      · exact absurd failed returned
      · rw [more] at h
        cases Except.ok.inj h
        exact Or.inl (by rw [kept.2])
    · rcases ended with eof | full
      · rw [eof] at h
        obtain ⟨_, _, h⟩ := bind_ok h
        obtain ⟨closed, hc, h⟩ := bind_ok h
        have stopped := callbackAndClose_returns hc
        cases Except.ok.inj h
        rw [show closed.goesOn = true from goesOn] at stopped
        cases stopped
      · rw [full] at h
        obtain ⟨called, hc, h⟩ := bind_ok h
        cases Except.ok.inj h
        obtain ⟨_, he, _⟩ := Endpoint.completeRead_ok completed
        cases present : io.readCallback with
        | true =>
          rw [present] at hc
          exact Or.inr ⟨asked, Endpoint.completes_of_full hr full, rfl, half, hr, hc⟩
        | false =>
          rw [present] at hc
          cases Except.ok.inj hc
          exact Or.inl (by rw [he])
  next =>
    cases Except.ok.inj h
    exact Or.inl rfl

/-- A completed read runs its callback, and then the write part is next. -/
theorem onEventRead_completes
    (perform : Call → Endpoint Handler T → Checked (Endpoint Handler T))
    (asked : Meets Read events) (completes : io.Completes b.read)
    (callback : io.readCallback = true) (known : io.Known) (held : io.armed = true → io.fd ≠ -1) :
    ∃ half, io.readHalf b.read = .ok half ∧
      ∀ {called}, runCalls perform b.onRead half.io = .ok called →
        ∃ handled, onEventRead perform events b io = .ok handled ∧ handled.goesOn = true ∧
          handled.io = called := by
  obtain ⟨half, id, hr, full⟩ := Endpoint.full_of_completes completes known held
  refine ⟨half, hr, ?_⟩
  intro called hc
  refine ⟨⟨true, called, [.onRead id]⟩, ?_, rfl, rfl⟩
  unfold onEventRead
  rw [if_pos asked, hr, ok_bind, full, callback]
  dsimp only
  rw [runCallback, if_pos rfl, hc]
  rfl

/-- The two halves keep to their assertions unless the read callback interferes. -/
theorem halves_avoid_iff {next : Account} {tracks : Bool × Bool → Endpoint Handler T → Prop}
    (avoids : ∀ call io, Avoids OwnAssertion (perform call io))
    (step : ∀ {st io} call, tracks st io → Follows tracks (next st call) (perform call io))
    (queued : ∀ {st io}, tracks st io → (io.writeQueue ≠ [] ↔ st.2 = true))
    (tracked : ∀ {half}, io.writeQueue ≠ [] → io.readHalf b.read = .ok half →
      tracks (true, true) half.io)
    (delivered : io.Delivered events) (known : io.Known) (held : io.armed = true → io.fd ≠ -1) :
    Avoids OwnAssertion (do
      let handled ← onEventRead perform events b io
      handled.andThen (onEventWrite perform events b)) ↔ ¬Interferes next io events b := by
  constructor
  · rintro whole ⟨reads, writes, completes, callback, opened, emptied⟩
    obtain ⟨half, hr, after⟩ :=
      onEventRead_completes perform reads completes callback known held
    have follows := follows_foldlM step b.onRead (tracked (delivered.write writes) hr)
    rw [emptied] at follows
    obtain ⟨called, hc, related⟩ := follows_ok follows
    obtain ⟨handled, hh, goesOn, rfl⟩ := after hc
    have empty : handled.io.writeQueue = [] := by
      by_contra some
      cases (queued related).mp some
    have failing := mt (onEventWrite_avoids_iff avoids events b handled.io).mp
      (fun survives => survives writes empty)
    refine failing fun fault hf => whole fault ?_
    rw [hh, ok_bind, Handled.andThen, if_pos goesOn, hf]
    rfl
  · intro quiet
    refine Avoids.bind ((onEventRead_avoids_iff avoids events b io).mpr delivered.read) ?_
    intro handled hh
    unfold Handled.andThen
    split
    next goesOn =>
      refine Avoids.bind ?_ fun _ _ => avoids_ok _
      rw [onEventWrite_avoids_iff avoids]
      intro writes
      rcases onEventRead_goesOn hh goesOn with same | ⟨reads, completes, callback, half, hr, hc⟩
      · rw [same]
        exact delivered.write writes
      · intro empty
        have follows := follows_foldlM step b.onRead (tracked (delivered.write writes) hr)
        obtain ⟨⟨opened, left⟩, emptied, related⟩ := follows_some follows hc
        have none : left = false := by
          by_contra some
          exact (queued related).mpr (eq_true_of_ne_false some) empty
        exact quiet ⟨reads, writes, completes, callback, opened, none ▸ emptied⟩
    next => exact avoids_ok _

end

end Hlib
