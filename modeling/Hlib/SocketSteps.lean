import Hlib.SocketCalls
import Hlib.Transition

namespace Hlib

open FlagMask (Meets)
open EventLoop (Read Write Error Hup)

namespace Socket

/-- Where the dispatching thread stands in `onEvent` or `onConnect` while `m_mutex` is free. -/
inductive Stage
  | idle
  /-- Before the read half. -/
  | reading (events : Events)
  /-- Before the write half. -/
  | writing (events : Events)
  /-- In `callbackAndClose`, before `close()`. -/
  | closing (error : Errno)
  deriving DecidableEq, Repr

structure State (T : Type) where
  socket : Socket T
  stage : Stage

def initial {T : Type} (eventLoop : Option (EventLoop Handler)) (sinks : SinkId → SinkAdapter T)
    (sources : SourceId → Source) : State T :=
  ⟨create eventLoop sinks sources, .idle⟩

/-- What may happen next. Calls come from callbacks and from other threads alike. -/
inductive Label
  | receive (sink : Option SinkId) (callback : Bool)
  | send (source : SourceId) (callback : Bool)
  | open (fd : Fd) (ctl : Option Errno) (socketError : Errno)
  | connect (call : ConnectCall) (ctl : Option Errno)
  | close
  | onConnect (socketError : Errno) (ctl : Option Errno)
  | event (events : Events)
  | broken (events : Events) (socketError : Errno)
  | readHalf (call : ReadCall)
  | writeHalf (call : Result Nat)
  | skip
  | closed
  | expire
  | elsewhere (loop : EventLoop Handler)

def afterRead (events : Events) : ReadOutcome → Stage
  | .more => .writing events
  | .full _ _ => .writing events
  | .eof _ _ => .closing 0
  | .failed errno => .closing errno

def afterWrite : WriteOutcome → Stage
  | .more => .idle
  | .completed _ => .idle
  | .failed errno => .closing errno

/-- An exception leaves the dispatching loop. -/
def afterConnect : ConnectOutcome → Stage
  | .connected => .idle
  | .failed errno => .closing errno
  | .thrown _ => .idle

variable {T : Type} [SinkData T]

/-- One step of a `Socket`; a call or a half that faults has none. -/
inductive Step : State T → Label → State T → Prop
  | receive {socket socket' : Socket T} {stage sink callback}
      (h : socket.receive sink callback = .ok socket') :
      Step ⟨socket, stage⟩ (.receive sink callback) ⟨socket', stage⟩
  | send {socket socket' : Socket T} {stage source callback}
      (h : socket.send source callback = .ok socket') :
      Step ⟨socket, stage⟩ (.send source callback) ⟨socket', stage⟩
  | open {socket socket' : Socket T} {stage fd ctl socketError result}
      (h : socket.open fd ctl socketError = .ok (result, socket')) :
      Step ⟨socket, stage⟩ (.open fd ctl socketError) ⟨socket', stage⟩
  | connect {socket socket' : Socket T} {stage call ctl result}
      (h : socket.connect call ctl = .ok (result, socket')) :
      Step ⟨socket, stage⟩ (.connect call ctl) ⟨socket', stage⟩
  | close {socket socket' : Socket T} {stage} (h : socket.close = .ok socket') :
      Step ⟨socket, stage⟩ .close ⟨socket', stage⟩
  | onConnect {socket socket' : Socket T} {socketError ctl outcome}
      (called : ∀ loop, socket.eventLoop = some loop → loop.callbacks socket.fd = some .onConnect)
      (h : socket.onConnect socket.fd socketError ctl = .ok (outcome, socket')) :
      Step ⟨socket, .idle⟩ (.onConnect socketError ctl) ⟨socket', afterConnect outcome⟩
  | event {socket : Socket T} {events} (armed : socket.armed = true)
      (quiet : ¬Meets (Error ||| Hup) events) :
      Step ⟨socket, .idle⟩ (.event events) ⟨socket, .reading events⟩
  | broken {socket : Socket T} {events socketError} (armed : socket.armed = true)
      (asked : Meets (Error ||| Hup) events) :
      Step ⟨socket, .idle⟩ (.broken events socketError) ⟨socket, .closing socketError⟩
  | readHalf {socket : Socket T} {events call half} (asked : Meets Read events)
      (h : socket.readHalf call = .ok half) :
      Step ⟨socket, .reading events⟩ (.readHalf call) ⟨half.io, afterRead events half.outcome⟩
  | readSkip {socket : Socket T} {events} (unasked : ¬Meets Read events) :
      Step ⟨socket, .reading events⟩ .skip ⟨socket, .writing events⟩
  | writeHalf {socket : Socket T} {events call half} (asked : Meets Write events)
      (h : socket.writeHalf call = .ok half) :
      Step ⟨socket, .writing events⟩ (.writeHalf call) ⟨half.io, afterWrite half.outcome⟩
  | writeSkip {socket : Socket T} {events} (unasked : ¬Meets Write events) :
      Step ⟨socket, .writing events⟩ .skip ⟨socket, .idle⟩
  | closed {socket socket' : Socket T} {error} (h : socket.close = .ok socket') :
      Step ⟨socket, .closing error⟩ .closed ⟨socket', .idle⟩
  | expire {socket : Socket T} {stage} :
      Step ⟨socket, stage⟩ .expire ⟨{ socket with eventLoop := none }, stage⟩
  | elsewhere {socket : Socket T} {stage loop loop'} (alive : socket.eventLoop = some loop)
      (interest : loop'.interest socket.fd = loop.interest socket.fd)
      (callbacks : loop'.callbacks socket.fd = loop.callbacks socket.fd) :
      Step ⟨socket, stage⟩ (.elsewhere loop') ⟨{ socket with eventLoop := some loop' }, stage⟩

end Socket

end Hlib
