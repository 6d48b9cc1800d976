import Hlib.FileDescriptorIoSteps

namespace Hlib

open FlagMask (Meets)
open EventLoop (Read Write)
open Endpoint (InStep)

namespace FileDescriptorIo

variable {T : Type} {io io' : FileDescriptorIo T}

theorem create_inStep (eventLoop : Option (EventLoop Handler)) (sinks : SinkId → SinkAdapter T)
    (sources : SourceId → Source) : Endpoint.InStep (create eventLoop sinks sources) := by
  refine ⟨rfl, ?_, ?_, ?_⟩
  · exact iff_of_false EventLoop.read_zero (by simp [create])
  · exact iff_of_false EventLoop.write_zero (by simp [create])
  · intro _ valid
    exact absurd rfl valid

theorem read_inStep {sink : Option SinkId} {callback : Bool} (h : io.InStep)
    (hr : io.read sink callback = .ok io') : io'.InStep := by
  obtain ⟨eventLoop, events, rfl, rfl, _, registered⟩ := Endpoint.read_ok hr
  refine ⟨h.armed, ?_, ?_, registered h.registered⟩
  · cases sink with
    | none => simp
    | some id => simp
  · cases sink with
    | none => simpa using h.write
    | some id => simpa using h.write

theorem write_inStep {source : SourceId} {callback : Bool} (h : io.InStep)
    (hw : io.write source callback = .ok io') : io'.InStep := by
  obtain ⟨eventLoop, events, rfl, rfl, _, registered⟩ := Endpoint.write_ok hw
  refine ⟨h.armed, ?_, ?_, registered h.registered⟩
  · split
    next => simpa using h.read
    next => exact h.read
  · split
    next => simp
    next queued => simpa [queued] using h.write

theorem close_inStep (h : io.InStep) (hc : io.close = .ok io') : io'.InStep := by
  obtain ⟨_, rfl⟩ | ⟨_, eventLoop, rfl, _⟩ := Endpoint.close_ok hc
  · exact h
  · refine ⟨h.armed, ?_, ?_, fun _ valid => absurd rfl valid⟩
    · exact iff_of_false EventLoop.read_zero (by simp [Endpoint.closed])
    · exact iff_of_false EventLoop.write_zero (by simp [Endpoint.closed])

theorem attach_inStep {fd : Fd} {ctl : Option Errno} {success : Bool} (h : io.InStep)
    (ha : io.attach fd io.events .onEvent ctl = .ok (success, io')) : io'.InStep := by
  obtain ⟨_, _, rfl⟩ | ⟨_, _, _, loop, _, _, _, rfl⟩ := Endpoint.attach_ok ha
  · exact h
  · refine ⟨h.armed, h.read, h.write, ?_⟩
    intro _ _ added hl
    cases Option.some.inj hl
    exact Function.update_self fd (some io.events) loop.interest

variable [SinkData T]

theorem readHalf_inStep {call : ReadCall} {half : ReadHalf Handler T} (h : io.InStep)
    (hr : io.readHalf call = .ok half) : half.io.InStep := by
  obtain ⟨id, _, ⟨_, _, rfl⟩ | ⟨_, sink, _, _, ⟨_, kept⟩ | ⟨_, completed⟩⟩⟩ := Endpoint.readHalf_ok hr
  · exact h
  · rw [kept]
    exact ⟨h.armed, h.read, h.write, h.registered⟩
  · obtain ⟨eventLoop, he, _, registered⟩ := Endpoint.completeRead_ok completed
    rw [he] at registered ⊢
    refine ⟨h.armed, ?_, ?_, registered⟩
    · simp
    · simpa using h.write

omit [SinkData T] in
theorem writeHalf_inStep {call : Result Nat} {half : WriteHalf Handler T} (h : io.InStep)
    (hw : io.writeHalf call = .ok half) : half.io.InStep := by
  obtain ⟨front, rest, queued, _, ⟨_, _, rfl⟩ | ⟨_, count, _, _, more | popped⟩⟩ :=
    Endpoint.writeHalf_ok hw
  · exact h
  · rw [more.2.2]
    exact ⟨h.armed, h.read, h.write, h.registered⟩
  · obtain ⟨_, _, eventLoop, events, he, hev, _, registered⟩ := popped
    have armed : half.io.armed = true := by
      rw [he]
      exact h.armed
    refine ⟨armed, ?_, ?_, registered h.registered⟩
    · rw [he, hev]
      split
      next => simpa [Endpoint.advanced] using h.read
      next => exact h.read
    · rw [he, hev]
      split
      next last => simp [last]
      next others =>
        have before : Meets Write io.events := h.write.mpr (by simp [queued])
        exact iff_of_true before others

theorem step_inStep {s s' : State T} {label : Label} (h : s.io.InStep) (hs : Step s label s') :
    s'.io.InStep := by
  cases hs with
  | read hr => exact read_inStep h hr
  | write hw => exact write_inStep h hw
  | close hc => exact close_inStep h hc
  | attach _ ha => exact attach_inStep h ha
  | readHalf _ hr => exact readHalf_inStep h hr
  | writeHalf _ hw => exact writeHalf_inStep h hw
  | closed hc => exact close_inStep h hc
  | expire => exact ⟨h.armed, h.read, h.write, fun _ _ _ gone => nomatch gone⟩
  | elsewhere alive interest _ =>
    refine ⟨h.armed, h.read, h.write, ?_⟩
    intro armed valid loop' hl
    cases Option.some.inj hl
    exact interest.trans (h.registered armed valid _ alive)
  | event | readSkip | writeSkip | hangUp | hangSkip => exact h

/-- At every point of every run where the mutex is free, Read is awaited for a sink, Write for a
queue, and the loop awaits what the object does. -/
theorem interest_matches_work {eventLoop : Option (EventLoop Handler)}
    {sinks : SinkId → SinkAdapter T} {sources : SourceId → Source} {labels : List Label}
    {s : State T} (run : Transition.Run Step (initial eventLoop sinks sources) labels s) :
    (Meets Read s.io.events ↔ s.io.readSink ≠ none) ∧
      (Meets Write s.io.events ↔ s.io.writeQueue ≠ []) ∧
      (s.io.fd ≠ -1 → ∀ loop, s.io.eventLoop = some loop →
        loop.interest s.io.fd = some s.io.events) := by
  have h := run.invariant (create_inStep eventLoop sinks sources) step_inStep
  exact ⟨h.read, h.write, h.registered h.armed⟩

theorem interest_matches_work_opened :
    ∃ s : State StringData,
      Transition.Run Step (initial (some ⟨fun _ => none, fun _ => none⟩) (fun _ => { data := [] })
        (fun _ => ⟨[7#8], 0⟩))
        [.attach 5 none, .read (some 0) true, .write 0 true, .event Write, .skip,
          .writeHalf (.ok 1)] s ∧
      (Meets Write s.io.events ↔ s.io.writeQueue ≠ []) := by
  refine Exists.imp (fun s run => ⟨run, (interest_matches_work run).2.1⟩) ?_
  exact ⟨_, (((((Transition.Run.start.next (.attach rfl rfl)).next (.read rfl)).next
    (.write rfl)).next .event).next (.readSkip (by decide))).next (.writeHalf (by decide) rfl)⟩

end FileDescriptorIo

end Hlib
