import Hlib.EndpointHalves
import Hlib.Socket

namespace Hlib

open Function (update update_self)
open EventLoop (Read Write)

namespace Socket

variable {T : Type} {socket socket' : Socket T} {fd : Fd} {ctl : Option Errno} {result : Result Unit}

theorem close_ok (h : socket.close = .ok socket') :
    socket.fd = -1 ∧ socket' = socket ∨ socket.fd ≠ -1 ∧ ∃ eventLoop,
      socket' = { socket.closed eventLoop with armed := false } ∧ socket.Released eventLoop := by
  obtain ⟨closed, hc, h⟩ := bind_ok h
  cases Except.ok.inj h
  obtain ⟨shut, rfl⟩ | ⟨valid, eventLoop, rfl, released⟩ := Endpoint.close_ok hc
  · exact Or.inl ⟨shut, by rw [if_pos shut]⟩
  · exact Or.inr ⟨valid, eventLoop, by rw [if_neg valid], released⟩

/-- What `close()` makes of a socket: one without a descriptor keeps what is pending on it. -/
structure Closed (socket socket' : Socket T) : Prop where
  shut : socket'.fd = -1
  alive : socket'.eventLoop = none ↔ socket.eventLoop = none
  armed : socket'.armed = true → socket.fd = -1 ∧ socket.armed = true
  queue : socket'.writeQueue = if socket.fd = -1 then socket.writeQueue else []
  sink : socket'.readSink = if socket.fd = -1 then socket.readSink else none

theorem close_closed (h : socket.close = .ok socket') : Closed socket socket' := by
  obtain ⟨shut, rfl⟩ | ⟨valid, eventLoop, rfl, released⟩ := close_ok h
  · exact ⟨shut, Iff.rfl, fun armed => ⟨shut, armed⟩, (if_pos shut).symm, (if_pos shut).symm⟩
  · refine ⟨rfl, ?_, nofun, (if_neg valid).symm, (if_neg valid).symm⟩
    obtain ⟨gone, still⟩ | ⟨loop, before, after⟩ := released
    · exact iff_of_true still gone
    · exact iff_of_false (by simp [Endpoint.closed, after]) (by simp [before])

def Attached (io : Socket T) (fd : Fd) (events : Events) (callback : Handler) (io' : Socket T) : Prop :=
  io.eventLoop = none ∧ io' = io ∨
    ∃ loop, io.eventLoop = some loop ∧ fd ≠ -1 ∧ io' = io.attached loop fd events callback

theorem attach_attached {events : Events} {callback : Handler} {success : Bool}
    (h : socket.attach fd events callback ctl = .ok (success, socket')) :
    (success = true ↔ socket.eventLoop ≠ none) ∧ Attached socket fd events callback socket' := by
  obtain ⟨rfl, gone, rfl⟩ | ⟨rfl, valid, _, loop, alive, _, _, rfl⟩ := Endpoint.attach_ok h
  · exact ⟨iff_of_false nofun (not_not.mpr gone), Or.inl ⟨gone, rfl⟩⟩
  · exact ⟨iff_of_true rfl (by simp [alive]), Or.inr ⟨loop, alive, valid, rfl⟩⟩

/-- `open` and `connect` begin to read with a socket that `close()` has left behind. -/
def Closed.reading (closed : Socket T) : Socket T := { closed with events := Read }

theorem open_ok {socketError : Errno} (h : socket.open fd ctl socketError = .ok (result, socket')) :
    ∃ closed opened, Closed socket closed ∧ Attached (Closed.reading closed) fd Read .onEvent opened ∧
      socket' = { opened with
        armed := if closed.eventLoop = none then closed.armed else decide (socketError = 0) } := by
  obtain ⟨closed, hc, h⟩ := bind_ok h
  obtain ⟨⟨success, opened⟩, ha, h⟩ := bind_ok h
  obtain ⟨succeeds, attached⟩ := attach_attached ha
  refine ⟨closed, opened, close_closed hc, attached, ?_⟩
  cases success with
  | true =>
    cases Except.ok.inj h
    rw [if_neg (succeeds.mp rfl)]
  | false =>
    have gone : closed.eventLoop = none := by
      by_contra alive
      cases succeeds.mpr alive
    cases Except.ok.inj h
    obtain ⟨_, rfl⟩ | ⟨_, alive, _⟩ := attached
    · rw [if_pos gone]
    · cases gone.symm.trans alive

theorem connect_ok {call : ConnectCall} (h : socket.connect call ctl = .ok (result, socket')) :
    ∃ closed, Closed socket closed ∧
      match call with
      | .failed _ => socket' = Closed.reading closed
      | .inProgress fd => Attached (Closed.reading closed) fd (Read ||| Write) .onConnect socket'
      | .connected fd => Attached { Closed.reading closed with armed := true } fd Read .onEvent socket' := by
  obtain ⟨closed, hc, h⟩ := bind_ok h
  refine ⟨closed, close_closed hc, ?_⟩
  cases call with
  | failed errno =>
    cases Except.ok.inj h
    rfl
  | inProgress fd =>
    obtain ⟨⟨success, opened⟩, ha, h⟩ := bind_ok h
    cases Except.ok.inj h
    exact (attach_attached ha).2
  | connected fd =>
    obtain ⟨⟨success, opened⟩, ha, h⟩ := bind_ok h
    cases Except.ok.inj h
    exact (attach_attached ha).2

def rewatched (loop : EventLoop Handler) (fd : Fd) (events : Events) : EventLoop Handler where
  interest := update (update loop.interest fd none) fd (some events)
  callbacks := update (update loop.callbacks fd none) fd (some .onEvent)

theorem onConnect_ok {socketError : Errno} {outcome : ConnectOutcome}
    (h : socket.onConnect fd socketError ctl = .ok (outcome, socket')) :
    (socketError ≠ 0 ∨ socket.eventLoop = none) ∧ (∃ errno, outcome = .failed errno) ∧
        socket' = socket ∨
      socketError = 0 ∧ fd ≠ -1 ∧ ∃ loop, socket.eventLoop = some loop ∧
        (ctl ≠ none ∧ (∃ errno, outcome = .thrown errno) ∧
            socket' = { socket with eventLoop := some ⟨update loop.interest fd none,
              update loop.callbacks fd none⟩ } ∨
          ctl = none ∧ outcome = .connected ∧ socket' = { socket with
            eventLoop := some (rewatched loop fd socket.events), armed := true }) := by
  unfold onConnect at h
  split at h
  next failed =>
    cases Except.ok.inj h
    exact Or.inl ⟨Or.inl failed, ⟨_, rfl⟩, rfl⟩
  next connected =>
    have noError := not_not.mp connected
    split at h
    next gone =>
      cases Except.ok.inj h
      exact Or.inl ⟨Or.inr gone, ⟨_, rfl⟩, rfl⟩
    next loop alive =>
      obtain ⟨removed, hr, h⟩ := bind_ok h
      obtain ⟨added, ha, h⟩ := bind_ok h
      have valid : fd ≠ -1 := by
        obtain ⟨_, valid, _⟩ := bind_ok ha
        exact require_ok valid
      cases EventLoop.remove_ok hr valid
      refine Or.inr ⟨noError, valid, loop, alive, ?_⟩
      cases added with
      | error errno =>
        cases Except.ok.inj h
        refine Or.inl ⟨?_, ⟨errno, rfl⟩, rfl⟩
        rintro rfl
        rw [EventLoop.add_unknown valid (update_self _ _ _) (update_self _ _ _)] at ha
        cases ha
      | ok added =>
        obtain ⟨_, granted, _, _, rfl⟩ := EventLoop.add_ok ha
        cases Except.ok.inj h
        exact Or.inr ⟨granted, rfl, rfl⟩

end Socket

end Hlib
