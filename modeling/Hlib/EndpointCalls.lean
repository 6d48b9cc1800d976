import Hlib.Endpoint

namespace Hlib

namespace Endpoint

open Function (update update_self update_of_ne)
open FlagMask (Meets)
open EventLoop (Read Write)

variable {κ T : Type} {io io' : Endpoint κ T}

/-- The loop at `after` is the one at `before`, but perhaps for the event set watched at `fd`. -/
def Retuned (fd : Fd) (before after : Option (EventLoop κ)) : Prop :=
  after = before ∨ ∃ loop events, before = some loop ∧ loop.interest fd ≠ none ∧
    after = some { loop with interest := update loop.interest fd (some events) }

/-- The loop watches an open and armed descriptor for exactly `m_events`. -/
def Registered (io : Endpoint κ T) : Prop :=
  io.armed = true → io.fd ≠ -1 → ∀ loop, io.eventLoop = some loop →
    loop.interest io.fd = some io.events

/-- The interest of an armed object is in step with the work at hand. -/
structure InStep (io : Endpoint κ T) : Prop where
  armed : io.armed = true
  read : Meets Read io.events ↔ io.readSink ≠ none
  write : Meets Write io.events ↔ io.writeQueue ≠ []
  registered : io.Registered

/-- An open descriptor is known to its loop. -/
def Known (io : Endpoint κ T) : Prop :=
  io.fd ≠ -1 → ∀ loop, io.eventLoop = some loop →
    loop.interest io.fd ≠ none ∧ loop.callbacks io.fd ≠ none

theorem Retuned.none_iff {fd : Fd} {before after : Option (EventLoop κ)}
    (h : Retuned fd before after) : after = none ↔ before = none := by
  obtain rfl | ⟨loop, events, rfl, _, rfl⟩ := h
  · exact Iff.rfl
  · simp

theorem Retuned.callbacks {fd : Fd} {before after : Option (EventLoop κ)}
    (h : Retuned fd before after) {loop' : EventLoop κ} (ha : after = some loop') :
    ∃ loop, before = some loop ∧ loop'.callbacks = loop.callbacks ∧
      ∀ other, loop'.interest other = none ↔ loop.interest other = none := by
  obtain rfl | ⟨loop, events, rfl, watched, rfl⟩ := h
  · exact ⟨loop', ha, rfl, fun _ => Iff.rfl⟩
  · cases Option.some.inj ha
    refine ⟨loop, rfl, rfl, ?_⟩
    intro other
    by_cases same : other = fd
    · subst other
      simp [watched]
    · simp [update_of_ne same]

theorem updateEventsLocked_ok {events : Events} (h : io.updateEventsLocked events = .ok io') :
    ∃ eventLoop, io' = { io with eventLoop := eventLoop, events := events } ∧
      Retuned io.fd io.eventLoop eventLoop ∧ io'.Registered := by
  unfold updateEventsLocked at h
  split at h
  next loop armed alive =>
    obtain ⟨result, hm, h⟩ := bind_ok h
    cases result with
    | error errno => cases h
    | ok loop' =>
      obtain ⟨_, watched, rfl⟩ := EventLoop.modify_ok hm
      cases Except.ok.inj h
      refine ⟨_, rfl, Or.inr ⟨loop, events, alive, watched, rfl⟩, ?_⟩
      intro _ _ final hf
      cases Option.some.inj hf
      exact update_self io.fd (some events) loop.interest
  next unarmed =>
    cases Except.ok.inj h
    refine ⟨io.eventLoop, rfl, Or.inl rfl, ?_⟩
    intro armed _ loop alive
    exact (unarmed loop armed alive).elim

theorem updateEventsLocked_succeeds (known : io.Known) (held : io.armed = true → io.fd ≠ -1)
    (events : Events) : ∃ io', io.updateEventsLocked events = .ok io' := by
  unfold updateEventsLocked
  split
  next loop armed alive =>
    have open_ := held armed
    obtain ⟨old, watched⟩ := Option.ne_none_iff_exists'.mp (known open_ loop alive).1
    rw [EventLoop.modify_watched open_ watched, ok_bind]
    exact ⟨_, rfl⟩
  next => exact ⟨_, rfl⟩

theorem updated_ok (io : Endpoint κ T) {events : Events}
    (h : (if events ≠ io.events then io.updateEventsLocked events else .ok io) = .ok io') :
    ∃ eventLoop, io' = { io with eventLoop := eventLoop, events := events } ∧
      Retuned io.fd io.eventLoop eventLoop ∧ (io.Registered → io'.Registered) := by
  split at h
  next =>
    obtain ⟨eventLoop, he, retuned, registered⟩ := updateEventsLocked_ok h
    exact ⟨eventLoop, he, retuned, fun _ => registered⟩
  next same =>
    have kept := Except.ok.inj h
    have hs : events = io.events := not_not.mp same
    exact ⟨io.eventLoop, by rw [← kept, hs], Or.inl rfl, fun registered => kept ▸ registered⟩

theorem read_ok {sink : Option SinkId} {callback : Bool} (h : io.read sink callback = .ok io') :
    ∃ eventLoop events, io' = { io with
        eventLoop := eventLoop, events := events, readSink := sink, readCallback := callback } ∧
      events = (if sink ≠ none then io.events ||| Read else io.events &&& ~~~Read) ∧
      Retuned io.fd io.eventLoop eventLoop ∧ (io.Registered → io'.Registered) := by
  obtain ⟨told, ht, h⟩ := bind_ok h
  obtain ⟨eventLoop, rfl, retuned, registered⟩ := updated_ok io ht
  cases Except.ok.inj h
  exact ⟨eventLoop, _, rfl, rfl, retuned, registered⟩

theorem write_ok {source : SourceId} {callback : Bool} (h : io.write source callback = .ok io') :
    ∃ eventLoop events, io' = { io with
        eventLoop := eventLoop, events := events
        writeQueue := io.writeQueue ++ [⟨source, callback⟩] } ∧
      events = (if io.writeQueue = [] then io.events ||| Write else io.events) ∧
      Retuned io.fd io.eventLoop eventLoop ∧ (io.Registered → io'.Registered) := by
  obtain ⟨eventLoop, rfl, retuned, registered⟩ :=
    updated_ok { io with writeQueue := io.writeQueue ++ [⟨source, callback⟩] } h
  exact ⟨eventLoop, _, rfl, rfl, retuned, registered⟩

theorem updated_succeeds (io : Endpoint κ T) (known : io.Known)
    (held : io.armed = true → io.fd ≠ -1) (events : Events) :
    ∃ io', (if events ≠ io.events then io.updateEventsLocked events else .ok io) = .ok io' := by
  split
  · exact updateEventsLocked_succeeds known held events
  · exact ⟨io, rfl⟩

theorem read_succeeds (known : io.Known) (held : io.armed = true → io.fd ≠ -1)
    (sink : Option SinkId) (callback : Bool) : ∃ io', io.read sink callback = .ok io' := by
  obtain ⟨told, ht⟩ := updated_succeeds io known held
    (if sink ≠ none then io.events ||| Read else io.events &&& ~~~Read)
  exact ⟨_, by rw [read, ht]; rfl⟩

theorem write_succeeds (known : io.Known) (held : io.armed = true → io.fd ≠ -1)
    (source : SourceId) (callback : Bool) : ∃ io', io.write source callback = .ok io' :=
  updated_succeeds { io with writeQueue := io.writeQueue ++ [⟨source, callback⟩] } known held _

def closed (io : Endpoint κ T) (eventLoop : Option (EventLoop κ)) : Endpoint κ T :=
  { io with
    eventLoop := eventLoop, fd := -1, events := 0#32, readSink := none, readCallback := false
    writeQueue := [] }

/-- What `close()` leaves of the loop. -/
def Released (io : Endpoint κ T) (eventLoop : Option (EventLoop κ)) : Prop :=
  io.eventLoop = none ∧ eventLoop = none ∨ ∃ loop, io.eventLoop = some loop ∧
    eventLoop = some { interest := update loop.interest io.fd none
                       callbacks := update loop.callbacks io.fd none }

theorem close_ok (h : io.close = .ok io') :
    io.fd = -1 ∧ io' = io ∨ io.fd ≠ -1 ∧ ∃ eventLoop, io' = io.closed eventLoop ∧
      io.Released eventLoop := by
  unfold close at h
  by_cases shut : io.fd = -1
  · rw [if_pos shut] at h
    exact Or.inl ⟨shut, (Except.ok.inj h).symm⟩
  · rw [if_neg shut] at h
    obtain ⟨eventLoop, hl, h⟩ := bind_ok h
    cases Except.ok.inj h
    refine Or.inr ⟨shut, eventLoop, rfl, ?_⟩
    cases alive : io.eventLoop with
    | none =>
      rw [alive] at hl
      exact Or.inl ⟨alive, (Except.ok.inj hl).symm⟩
    | some loop =>
      rw [alive] at hl
      obtain ⟨loop', hr, hl⟩ := bind_ok hl
      refine Or.inr ⟨loop, alive, ?_⟩
      rw [← EventLoop.remove_ok hr shut]
      exact (Except.ok.inj hl).symm

theorem close_succeeds (known : io.Known) : ∃ io', io.close = .ok io' := by
  unfold close
  by_cases shut : io.fd = -1
  · exact ⟨io, if_pos shut⟩
  · rw [if_neg shut]
    cases alive : io.eventLoop with
    | none => exact ⟨_, rfl⟩
    | some loop =>
      obtain ⟨watched, called⟩ := known shut loop alive
      rw [withWeakPtrLocked, EventLoop.remove_known shut called watched]
      exact ⟨_, rfl⟩

theorem close_shut (shut : io.fd = -1) : io.close = .ok io := if_pos shut

def attached (io : Endpoint κ T) (loop : EventLoop κ) (fd : Fd) (events : Events) (callback : κ) :
    Endpoint κ T :=
  { io with
    eventLoop := some { interest := update loop.interest fd (some events)
                        callbacks := update loop.callbacks fd (some callback) }
    fd := fd }

theorem attach_ok {fd : Fd} {events : Events} {callback : κ} {ctl : Option Errno} {success : Bool}
    (h : io.attach fd events callback ctl = .ok (success, io')) :
    success = false ∧ io.eventLoop = none ∧ io' = io ∨
      success = true ∧ fd ≠ -1 ∧ ctl = none ∧ ∃ loop, io.eventLoop = some loop ∧ loop.callbacks fd = none ∧
        loop.interest fd = none ∧ io' = io.attached loop fd events callback := by
  unfold attach at h
  cases alive : io.eventLoop with
  | none =>
    rw [alive] at h
    obtain ⟨hs, hi⟩ := Prod.mk.inj (Except.ok.inj h)
    exact Or.inl ⟨hs.symm, rfl, hi.symm⟩
  | some loop =>
    rw [alive] at h
    obtain ⟨result, ha, h⟩ := bind_ok h
    cases result with
    | error errno => cases h
    | ok loop' =>
      obtain ⟨valid, granted, unknown, unwatched, rfl⟩ := EventLoop.add_ok ha
      obtain ⟨hs, hi⟩ := Prod.mk.inj (Except.ok.inj h)
      exact Or.inr ⟨hs.symm, valid, granted, loop, rfl, unknown, unwatched, hi.symm⟩

theorem completeRead_ok (h : io.completeRead = .ok io') :
    ∃ eventLoop, io' = { io with
        eventLoop := eventLoop, events := io.events &&& ~~~Read, readSink := none
        readCallback := false } ∧
      Retuned io.fd io.eventLoop eventLoop ∧ io'.Registered := by
  obtain ⟨told, ht, h⟩ := bind_ok h
  obtain ⟨eventLoop, rfl, retuned, registered⟩ := updateEventsLocked_ok ht
  cases Except.ok.inj h
  exact ⟨eventLoop, rfl, retuned, registered⟩

theorem completeRead_succeeds (known : io.Known) (held : io.armed = true → io.fd ≠ -1) :
    ∃ io', io.completeRead = .ok io' := by
  obtain ⟨told, ht⟩ := updateEventsLocked_succeeds known held (io.events &&& ~~~Read)
  exact ⟨_, by rw [completeRead, ht]; rfl⟩

end Endpoint

end Hlib
