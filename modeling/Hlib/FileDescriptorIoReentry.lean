import Hlib.FileDescriptorIoInterest
import Hlib.Reentrancy

namespace Hlib

open FlagMask (Meets)
open EventLoop (Read Write Error Hup)
open Transition (Follows)

namespace FileDescriptorIo

variable {T : Type} {taken : Fd → Bool} {st : Bool × Bool} {io : FileDescriptorIo T}

/-- What calls do to an object whose interest is in step. On a closed one only a `read` without a
sink changes no events, all other reads and writes fail. -/
def account (taken : Fd → Bool) : Account
  | (opened, queued), .read sink _ =>
    if opened = true ∨ sink = none then some (opened, queued) else none
  | (opened, _), .write _ _ => if opened = true then some (true, true) else none
  | _, .open fd ctl _ => if fd ≠ -1 ∧ taken fd = false ∧ ctl = none then some (true, false) else none
  | _, .close => some (false, false)

structure Tracks (taken : Fd → Bool) (st : Bool × Bool) (io : FileDescriptorIo T) : Prop where
  inStep : io.InStep
  table : Tabled taken io.fd io.eventLoop
  opened : io.fd ≠ -1 ↔ st.1 = true
  queued : io.writeQueue ≠ [] ↔ st.2 = true
  clean : io.fd = -1 → io.events = 0#32

theorem Tracks.closed (h : Tracks taken st io) (shut : io.fd = -1) : st.1 = false := by
  by_contra hopen
  exact h.opened.mpr (eq_true_of_ne_false hopen) shut

theorem closed_update_fails (io : FileDescriptorIo T) {loop : EventLoop Handler} (armed : io.armed = true)
    (alive : io.eventLoop = some loop) (shut : io.fd = -1) (events : Events) :
    io.updateEventsLocked events = .error .assertion := by
  unfold Endpoint.updateEventsLocked
  rw [armed, alive]
  dsimp only
  rw [shut, EventLoop.modify_invalid]
  rfl

theorem read_follows (h : Tracks taken st io) (sink : Option SinkId) (callback : Bool) :
    Follows (Tracks taken) (account taken st (.read sink callback)) (io.read sink callback) := by
  obtain ⟨opened, queued⟩ := st
  have known := Endpoint.known_of_tabled h.table
  obtain ⟨loop, alive, _⟩ := h.table.table
  by_cases shut : io.fd = -1
  · have closed : opened = false := h.closed shut
    subst closed
    cases sink with
    | some id =>
      have failed := closed_update_fails io h.inStep.armed alive shut (io.events ||| Read)
      have changed : io.events ||| Read ≠ io.events := by
        rw [h.clean shut]
        decide
      have result : io.read (some id) callback = .error .assertion := by
        simp only [FileDescriptorIo.read, Endpoint.read, ne_eq, reduceCtorEq, not_false_eq_true,
          if_true, if_pos changed, failed]
        rfl
      rw [result]
      exact trivial
    | none =>
      have unchanged : io.events &&& ~~~Read = io.events := by
        rw [h.clean shut]
        decide
      have result : io.read none callback =
          .ok { io with readSink := none, readCallback := callback } := by
        simp only [FileDescriptorIo.read, Endpoint.read, ne_eq, not_true_eq_false, if_false,
          unchanged, ok_bind]
      rw [result]
      exact ⟨read_inStep h.inStep result, h.table, h.opened, h.queued, h.clean⟩
  · have isOpen : opened = true := h.opened.mp shut
    subst isOpen
    obtain ⟨io', hr⟩ := Endpoint.read_succeeds known (fun _ => shut) sink callback
    have inStep := read_inStep h.inStep hr
    rw [FileDescriptorIo.read, hr]
    obtain ⟨_, _, rfl, _, retuned, _⟩ := Endpoint.read_ok hr
    exact ⟨inStep, Endpoint.tabled_retuned h.table retuned, h.opened, h.queued, fun closed => absurd closed shut⟩

theorem write_follows (h : Tracks taken st io) (source : SourceId) (callback : Bool) :
    Follows (Tracks taken) (account taken st (.write source callback)) (io.write source callback) := by
  obtain ⟨opened, queued⟩ := st
  have known := Endpoint.known_of_tabled h.table
  obtain ⟨loop, alive, _⟩ := h.table.table
  by_cases shut : io.fd = -1
  · have closed : opened = false := h.closed shut
    subst closed
    have empty : io.writeQueue = [] := by
      by_contra some
      have armed := h.inStep.write.mpr some
      rw [h.clean shut] at armed
      exact EventLoop.write_zero armed
    have failed := closed_update_fails { io with writeQueue := [⟨source, callback⟩] }
      h.inStep.armed alive shut (io.events ||| Write)
    have changed : io.events ||| Write ≠ io.events := by
      rw [h.clean shut]
      decide
    have result : io.write source callback = .error .assertion := by
      simp only [FileDescriptorIo.write, Endpoint.write, empty, if_true, List.nil_append,
        if_pos changed]
      exact failed
    rw [result]
    exact trivial
  · have isOpen : opened = true := h.opened.mp shut
    subst isOpen
    obtain ⟨io', hw⟩ := Endpoint.write_succeeds known (fun _ => shut) source callback
    have inStep := write_inStep h.inStep hw
    rw [FileDescriptorIo.write, hw]
    obtain ⟨_, _, rfl, _, retuned, _⟩ := Endpoint.write_ok hw
    exact ⟨inStep, Endpoint.tabled_retuned h.table retuned, h.opened, by simp,
      fun closed => absurd closed shut⟩

theorem close_tracks (h : Tracks taken st io) :
    ∃ io', io.close = .ok io' ∧ Tracks taken (false, false) io' := by
  obtain ⟨io', hc⟩ := Endpoint.close_succeeds (Endpoint.known_of_tabled h.table)
  have inStep := close_inStep h.inStep hc
  refine ⟨io', hc, ?_⟩
  obtain ⟨shut, rfl⟩ | ⟨_, eventLoop, rfl, released⟩ := Endpoint.close_ok hc
  · have empty : ¬io'.writeQueue ≠ [] := by
      rw [← inStep.write, h.clean shut]
      exact EventLoop.write_zero
    exact ⟨inStep, h.table, iff_of_false (not_not.mpr shut) (by simp),
      iff_of_false empty (by simp), h.clean⟩
  · exact ⟨inStep, Endpoint.tabled_released h.table released, by simp [Endpoint.closed],
      by simp [Endpoint.closed], fun _ => rfl⟩

theorem open_follows (h : Tracks taken st io) (fd : Fd) (ctl : Option Errno) (socketError : Errno) :
    Follows (Tracks taken) (account taken st (.open fd ctl socketError))
      (perform (.open fd ctl socketError) io) := by
  obtain ⟨closed, hc, tracks⟩ := close_tracks h
  have shut : closed.fd = -1 := by
    by_contra valid
    cases tracks.opened.mp valid
  by_cases free : fd ≠ -1 ∧ taken fd = false ∧ ctl = none
  · obtain ⟨valid, untaken, rfl⟩ := free
    obtain ⟨loop, _, ha, table⟩ :=
      Endpoint.attach_tabled tracks.table shut valid untaken closed.events Handler.onEvent
    have inStep := attach_inStep tracks.inStep ha
    have result : perform (.open fd none socketError) io =
        .ok (closed.attached loop fd closed.events .onEvent) := by
      rw [perform, «open», hc, ok_bind, ha]
      rfl
    rw [result]
    change Follows _ (if fd ≠ -1 ∧ taken fd = false ∧ (none : Option Errno) = none then
      some (true, false) else none) _
    rw [if_pos ⟨valid, untaken, rfl⟩]
    exact ⟨inStep, table, iff_of_true valid rfl, tracks.queued, fun closed => absurd closed valid⟩
  · change Follows _ (if fd ≠ -1 ∧ taken fd = false ∧ ctl = none then
      some (true, false) else none) _
    rw [if_neg free]
    cases hp : perform (.open fd ctl socketError) io with
    | error => exact trivial
    | ok opened =>
      rw [perform, «open», hc, ok_bind] at hp
      obtain ⟨_, ho, _⟩ := bind_ok hp
      obtain ⟨attached, ha, _⟩ := bind_ok ho
      exact Endpoint.attach_refused tracks.table free closed.events .onEvent attached ha

theorem perform_follows (call : Call) (h : Tracks taken st io) :
    Follows (Tracks taken) (account taken st call) (perform call io) := by
  cases call with
  | read sink callback => exact read_follows h sink callback
  | write source callback => exact write_follows h source callback
  | «open» fd ctl socketError => exact open_follows h fd ctl socketError
  | close =>
    obtain ⟨io', hc, tracks⟩ := close_tracks h
    rw [perform, hc]
    exact tracks

variable [SinkData T] {events : Events} {b : Behaviour}

theorem readHalf_tracks {half : ReadHalf Handler T} {call : ReadCall} (h : io.Matched)
    (queued : io.writeQueue ≠ []) (hr : io.readHalf call = .ok half) :
    Tracks io.foreign (true, true) half.io := by
  have inStep := readHalf_inStep h.inStep hr
  obtain ⟨_, _, ⟨_, _, rfl⟩ | ⟨_, _, _, _, ⟨_, kept⟩ | ⟨_, completed⟩⟩⟩ := Endpoint.readHalf_ok hr
  · exact ⟨inStep, h.table, iff_of_true h.valid rfl, iff_of_true queued rfl,
      fun shut => absurd shut h.valid⟩
  · rw [kept] at inStep ⊢
    exact ⟨inStep, h.table, iff_of_true h.valid rfl, iff_of_true queued rfl,
      fun shut => absurd shut h.valid⟩
  · obtain ⟨_, he, retuned, _⟩ := Endpoint.completeRead_ok completed
    rw [he] at inStep ⊢
    exact ⟨inStep, Endpoint.tabled_retuned h.table retuned, iff_of_true h.valid rfl, iff_of_true queued rfl,
      fun shut => absurd shut h.valid⟩

/-- An `onEvent` keeps to its assertions unless the read callback interferes. -/
theorem onEvent_avoids_iff (h : io.Matched) (deliverable : io.Deliverable events) :
    Avoids OwnAssertion (onEvent io.fd events b io) ↔
      ¬Interferes (account io.foreign) io events b := by
  have halves := halves_avoid_iff (b := b) perform_avoids (fun call tracks => perform_follows call tracks)
    Tracks.queued (readHalf_tracks h) (h.delivered deliverable) (Endpoint.known_of_tabled h.table)
    (fun _ => h.valid)
  rw [← halves]
  unfold onEvent
  rw [require_of rfl, ok_bind, ← bind_assoc]
  constructor
  · exact Avoids.left
  · intro first
    refine first.bind fun handled _ => ?_
    unfold Handled.andThen
    split
    · refine Avoids.bind ?_ fun _ _ => avoids_ok _
      split
      · exact callbackAndClose_avoids perform_avoids _ _ _
      · exact avoids_ok _
    · exact avoids_ok _

end FileDescriptorIo

end Hlib
