import Hlib.FileDescriptorIoLink
import Hlib.SocketSteps

namespace Hlib

open Function (update update_of_ne)
open FlagMask (Meets)
open EventLoop (Read Write)
open FileDescriptorIo (Gives Link Received contents contents_append left readHalf_appended)

namespace Socket

/-- A socket with the history of its one connection: what was sent on it, what the connection took of that, how
much came in, and the sinks that were to be filled. -/
structure Side (T : Type) where
  state : State T
  submitted : List SendTuple := []
  accepted : List Byte := []
  taken : Nat := 0
  requested : List SinkId := []
  /-- Whether `close()` took a descriptor from it. -/
  ended : Bool := false

def Label.Connects : Label → Prop
  | .open _ _ _ | .connect _ _ => True
  | _ => False

def Label.Closes : Label → Prop
  | .close | .closed => True
  | _ => False

/-- Steps that neither connect nor close, and move no data. -/
def Label.Apart : Label → Prop
  | .receive none _ | .onConnect _ _ | .event _ | .broken _ _ | .skip | .expire | .elsewhere _ => True
  | _ => False

/-- No `::recv` fails behind a `FIONREAD` that did not. -/
def Label.Unbroken : Label → Prop
  | .readHalf call => ∀ n errno, call.available = .ok n → call.received ≠ .error errno
  | _ => True

variable {T : Type} [SinkData T]

/-- Steps of a side that connects once. Every source is sent and every sink asked for at most once, and nothing is
sent without a descriptor. -/
inductive SideStep (incoming : List Byte) : Side T → Label → Side T → Prop
  | send {s : Side T} {source callback socket'} (fresh : source ∉ s.submitted.map (·.source))
      (h : s.state.socket.send source callback = .ok socket') :
      SideStep incoming s (.send source callback)
        { s with
          state := ⟨socket', s.state.stage⟩
          submitted := s.submitted ++ [⟨source, callback⟩] }
  | request {s : Side T} {sink callback socket'} (fresh : sink ∉ s.requested)
      (empty : (s.state.socket.sinks sink).contents = [])
      (h : s.state.socket.receive (some sink) callback = .ok socket') :
      SideStep incoming s (.receive (some sink) callback)
        { s with
          state := ⟨socket', s.state.stage⟩
          requested := s.requested ++ [sink] }
  | readHalf {s : Side T} {events call half} (stage : s.state.stage = .reading events) (asked : Meets Read events)
      (h : s.state.socket.readHalf call = .ok half) (gives : Gives (incoming.drop s.taken) half.requested call) :
      SideStep incoming s (.readHalf call)
        { s with
          state := ⟨half.io, afterRead events half.outcome⟩
          taken := s.taken + half.returned.length }
  | writeHalf {s : Side T} {events call half} (stage : s.state.stage = .writing events)
      (asked : Meets Write events) (valid : s.state.socket.fd = -1 → ∃ errno, call = .error errno)
      (h : s.state.socket.writeHalf call = .ok half) :
      SideStep incoming s (.writeHalf call)
        { s with
          state := ⟨half.io, afterWrite half.outcome⟩
          accepted := s.accepted ++ half.accepted }
  | connects {s : Side T} {label t} (connects : label.Connects) (first : s.ended = false)
      (shut : s.state.socket.fd = -1) (h : Step s.state label t) :
      SideStep incoming s label { s with state := t }
  | closes {s : Side T} {label t} (closes : label.Closes) (h : Step s.state label t) :
      SideStep incoming s label
        { s with
          state := t
          ended := s.ended || decide (s.state.socket.fd ≠ -1) }
  | other {s : Side T} {label t} (apart : label.Apart) (h : Step s.state label t) :
      SideStep incoming s label { s with state := t }

section Kept

variable {socket socket' : Socket T}

/-- A change that moves no data. -/
structure Kept (socket socket' : Socket T) : Prop where
  queue : socket'.writeQueue = socket.writeQueue
  sources : socket'.sources = socket.sources
  sinks : socket'.sinks = socket.sinks
  readSink : socket'.readSink = socket.readSink ∨ socket'.readSink = none

omit [SinkData T] in
theorem attach_kept {fd : Fd} {events : Events} {callback : Handler} {ctl : Option Errno} {success : Bool}
    (h : socket.attach fd events callback ctl = .ok (success, socket')) : Kept socket socket' := by
  obtain ⟨_, _, rfl⟩ | ⟨_, _, _, _, _, _, _, rfl⟩ := Endpoint.attach_ok h
  · exact ⟨rfl, rfl, rfl, Or.inl rfl⟩
  · exact ⟨rfl, rfl, rfl, Or.inl rfl⟩

omit [SinkData T] in
theorem close_same (shut : socket.fd = -1) (h : socket.close = .ok socket') : socket' = socket := by
  obtain ⟨_, same⟩ | ⟨valid, _⟩ := close_ok h
  · exact same
  · exact absurd shut valid

omit [SinkData T] in
/-- Connecting a socket without a descriptor keeps what is pending on it. -/
theorem open_kept (shut : socket.fd = -1) {fd : Fd} {ctl : Option Errno} {socketError : Errno}
    {result : Result Unit} (h : socket.open fd ctl socketError = .ok (result, socket')) : Kept socket socket' := by
  obtain ⟨closed, hc, h⟩ := bind_ok h
  obtain ⟨⟨success, opened⟩, ha, h⟩ := bind_ok h
  cases close_same shut hc
  obtain ⟨queue, sources, sinks, readSink⟩ := attach_kept ha
  cases success with
  | true =>
    cases h
    exact ⟨queue, sources, sinks, readSink⟩
  | false =>
    cases h
    exact ⟨queue, sources, sinks, readSink⟩

omit [SinkData T] in
theorem connect_kept (shut : socket.fd = -1) {call : ConnectCall} {ctl : Option Errno} {result : Result Unit}
    (h : socket.connect call ctl = .ok (result, socket')) : Kept socket socket' := by
  obtain ⟨closed, hc, h⟩ := bind_ok h
  cases close_same shut hc
  cases call with
  | failed errno =>
    cases h
    exact ⟨rfl, rfl, rfl, Or.inl rfl⟩
  | inProgress fd =>
    obtain ⟨⟨success, opened⟩, ha, h⟩ := bind_ok h
    cases h
    obtain ⟨queue, sources, sinks, readSink⟩ := attach_kept ha
    exact ⟨queue, sources, sinks, readSink⟩
  | connected fd =>
    obtain ⟨⟨success, opened⟩, ha, h⟩ := bind_ok h
    cases h
    obtain ⟨queue, sources, sinks, readSink⟩ := attach_kept ha
    exact ⟨queue, sources, sinks, readSink⟩

theorem connects_kept {s t : State T} {label : Label} (connects : label.Connects) (shut : s.socket.fd = -1)
    (h : Step s label t) : Kept s.socket t.socket := by
  cases h with
  | «open» h => exact open_kept shut h
  | connect h => exact connect_kept shut h
  | receive | send | close | onConnect | event | broken | readHalf | readSkip | writeHalf | writeSkip | closed
  | expire | elsewhere => exact connects.elim

theorem apart_kept {s t : State T} {label : Label} (apart : label.Apart) (h : Step s label t) :
    Kept s.socket t.socket ∧ t.socket.fd = s.socket.fd := by
  cases h with
  | @receive _ _ _ sink _ hr =>
    obtain ⟨_, _, rfl, _⟩ := Endpoint.read_ok hr
    cases sink with
    | none => exact ⟨⟨rfl, rfl, rfl, Or.inr rfl⟩, rfl⟩
    | some sink => exact apart.elim
  | onConnect _ hc =>
    obtain ⟨_, _, rfl⟩ | ⟨_, _, _, _, ⟨_, _, rfl⟩ | ⟨_, _, rfl⟩⟩ := onConnect_ok hc
    · exact ⟨⟨rfl, rfl, rfl, Or.inl rfl⟩, rfl⟩
    · exact ⟨⟨rfl, rfl, rfl, Or.inl rfl⟩, rfl⟩
    · exact ⟨⟨rfl, rfl, rfl, Or.inl rfl⟩, rfl⟩
  | send | «open» | connect | close | readHalf | writeHalf | closed => exact apart.elim
  | event | broken | readSkip | writeSkip | expire | elsewhere => exact ⟨⟨rfl, rfl, rfl, Or.inl rfl⟩, rfl⟩

/-- What closing makes of a socket. -/
theorem closes_shut {s t : State T} {label : Label} (closes : label.Closes) (h : Step s label t) :
    s.socket.fd = -1 ∧ t.socket = s.socket ∨
      s.socket.fd ≠ -1 ∧ t.socket.writeQueue = [] ∧ t.socket.sources = s.socket.sources ∧
        t.socket.sinks = s.socket.sinks ∧ t.socket.readSink = none ∧ t.socket.fd = -1 := by
  have shuts {socket socket' : Socket T} (hc : socket.close = .ok socket') :
      socket.fd = -1 ∧ socket' = socket ∨
        socket.fd ≠ -1 ∧ socket'.writeQueue = [] ∧ socket'.sources = socket.sources ∧
          socket'.sinks = socket.sinks ∧ socket'.readSink = none ∧ socket'.fd = -1 := by
    obtain ⟨shut, same⟩ | ⟨valid, _, rfl, _⟩ := close_ok hc
    · exact Or.inl ⟨shut, same⟩
    · exact Or.inr ⟨valid, rfl, rfl, rfl, rfl, rfl⟩
  cases h with
  | close hc => exact shuts hc
  | closed hc => exact shuts hc
  | receive | send | «open» | connect | onConnect | event | broken | readHalf | readSkip | writeHalf | writeSkip
  | expire | elsewhere => exact closes.elim

end Kept

end Socket

end Hlib
