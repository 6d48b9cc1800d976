import Hlib.Reentrancy
import Hlib.SocketCalls

namespace Hlib

open FlagMask (Meets)
open EventLoop (Read Write Error Hup)
open Transition (Follows)

namespace Socket

variable {T : Type} {taken : Fd → Bool} {st : Bool × Bool} {socket : Socket T}

/-- What calls do to a socket. A closed one keeps what is sent on it. -/
def account (taken : Fd → Bool) : Account
  | st, .read _ _ => some st
  | (opened, _), .write _ _ => some (opened, true)
  | (opened, queued), .open fd ctl _ =>
    if fd ≠ -1 ∧ taken fd = false ∧ ctl = none then some (true, !opened && queued) else none
  | (opened, queued), .close => some (false, !opened && queued)

structure Tracks (taken : Fd → Bool) (st : Bool × Bool) (socket : Socket T) : Prop where
  held : socket.armed = true → socket.fd ≠ -1
  table : Tabled taken socket.fd socket.eventLoop
  opened : socket.fd ≠ -1 ↔ st.1 = true
  queued : socket.writeQueue ≠ [] ↔ st.2 = true

theorem close_tracks (h : Tracks taken st socket) :
    ∃ socket', socket.close = .ok socket' ∧ Tracks taken (false, !st.1 && st.2) socket' := by
  obtain ⟨closed, hc⟩ := Endpoint.close_succeeds (Endpoint.known_of_tabled h.table)
  have result : socket.close =
      .ok { closed with armed := if socket.fd = -1 then closed.armed else false } := by
    rw [close, hc, ok_bind]
  refine ⟨_, result, ?_⟩
  obtain ⟨shut, he⟩ | ⟨valid, eventLoop, he, released⟩ := close_ok result
  · rw [he]
    have notOpen : st.1 = false := by
      by_contra hopen
      exact h.opened.mpr (eq_true_of_ne_false hopen) shut
    refine ⟨h.held, h.table, iff_of_false (not_not.mpr shut) (by simp), ?_⟩
    rw [notOpen]
    exact h.queued
  · rw [he, h.opened.mp valid]
    exact ⟨by simp, Endpoint.tabled_released h.table released, by simp [Endpoint.closed],
      by simp [Endpoint.closed]⟩

theorem open_follows (h : Tracks taken st socket) (fd : Fd) (ctl : Option Errno)
    (socketError : Errno) :
    Follows (Tracks taken) (account taken st (.open fd ctl socketError))
      (perform (.open fd ctl socketError) socket) := by
  obtain ⟨closed, hc, tracks⟩ := close_tracks h
  have shut : closed.fd = -1 := by
    by_contra valid
    cases tracks.opened.mp valid
  have table : Tabled taken ({ closed with events := Read } : Socket T).fd
      ({ closed with events := Read } : Socket T).eventLoop := tracks.table
  by_cases free : fd ≠ -1 ∧ taken fd = false ∧ ctl = none
  · obtain ⟨valid, untaken, rfl⟩ := free
    obtain ⟨loop, _, ha, after⟩ :=
      Endpoint.attach_tabled table shut valid untaken Read Handler.onEvent
    have result : perform (.open fd none socketError) socket =
        .ok { ({ closed with events := Read } : Socket T).attached loop fd Read .onEvent with
          armed := socketError = 0 } := by
      rw [perform, «open», hc, ok_bind]
      dsimp only
      rw [ha]
      rfl
    rw [result]
    change Follows _ (if fd ≠ -1 ∧ taken fd = false ∧ (none : Option Errno) = none then
      some (true, !st.1 && st.2) else none) _
    rw [if_pos ⟨valid, untaken, rfl⟩]
    exact ⟨fun _ => valid, after, iff_of_true valid rfl, tracks.queued⟩
  · change Follows _ (if fd ≠ -1 ∧ taken fd = false ∧ ctl = none then
      some (true, !st.1 && st.2) else none) _
    rw [if_neg free]
    cases hp : perform (.open fd ctl socketError) socket with
    | error => exact trivial
    | ok opened =>
      rw [perform, «open», hc, ok_bind] at hp
      obtain ⟨_, ho, _⟩ := bind_ok hp
      obtain ⟨attached, ha, _⟩ := bind_ok ho
      exact Endpoint.attach_refused table free Read .onEvent attached ha

theorem perform_follows (call : Call) (h : Tracks taken st socket) :
    Follows (Tracks taken) (account taken st call) (perform call socket) := by
  have known := Endpoint.known_of_tabled h.table
  cases call with
  | read sink callback =>
    obtain ⟨_, hr⟩ := Endpoint.read_succeeds known h.held sink callback
    rw [perform, receive, hr]
    obtain ⟨_, _, rfl, _, retuned, _⟩ := Endpoint.read_ok hr
    exact ⟨h.held, Endpoint.tabled_retuned h.table retuned, h.opened, h.queued⟩
  | write source callback =>
    obtain ⟨_, hw⟩ := Endpoint.write_succeeds known h.held source callback
    rw [perform, send, hw]
    obtain ⟨_, _, rfl, _, retuned, _⟩ := Endpoint.write_ok hw
    exact ⟨h.held, Endpoint.tabled_retuned h.table retuned, h.opened, by simp⟩
  | «open» fd ctl socketError => exact open_follows h fd ctl socketError
  | close =>
    obtain ⟨_, hc, tracks⟩ := close_tracks h
    rw [perform, hc]
    exact tracks

variable [SinkData T] {events : Events} {b : Behaviour}

theorem readHalf_tracks {half : ReadHalf Handler T} {call : ReadCall} (h : socket.Matched)
    (queued : socket.writeQueue ≠ []) (hr : socket.readHalf call = .ok half) :
    Tracks socket.foreign (true, true) half.io := by
  obtain ⟨_, _, ⟨_, _, rfl⟩ | ⟨_, _, _, _, ⟨_, kept⟩ | ⟨_, completed⟩⟩⟩ := Endpoint.readHalf_ok hr
  · exact ⟨fun _ => h.valid, h.table, iff_of_true h.valid rfl, iff_of_true queued rfl⟩
  · rw [kept]
    exact ⟨fun _ => h.valid, h.table, iff_of_true h.valid rfl, iff_of_true queued rfl⟩
  · obtain ⟨_, he, retuned, _⟩ := Endpoint.completeRead_ok completed
    rw [he]
    exact ⟨fun _ => h.valid, Endpoint.tabled_retuned h.table retuned, iff_of_true h.valid rfl,
      iff_of_true queued rfl⟩

/-- An `onEvent` keeps to its assertions if it closes the socket at once, and otherwise unless the
read callback interferes. -/
theorem onEvent_avoids_iff (h : socket.Matched) (deliverable : socket.Deliverable events) :
    Avoids OwnAssertion (onEvent socket.fd events b socket) ↔
      Meets (Error ||| Hup) events ∨ ¬Interferes (account socket.foreign) socket events b := by
  unfold onEvent
  rw [require_of rfl, ok_bind, require_of h.inStep.armed, ok_bind]
  split
  next broken =>
    exact iff_of_true (callbackAndClose_avoids perform_avoids _ _ _) (Or.inl broken)
  next quiet =>
    rw [halves_avoid_iff (b := b) perform_avoids (fun call tracks => perform_follows call tracks)
      Tracks.queued (readHalf_tracks h) (h.delivered deliverable)
      (Endpoint.known_of_tabled h.table) (fun _ => h.valid)]
    exact (or_iff_right quiet).symm

end Socket

end Hlib
