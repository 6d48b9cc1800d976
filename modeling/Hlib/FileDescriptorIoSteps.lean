import Hlib.Transition
import Hlib.EndpointHalves
import Hlib.FileDescriptorIo

namespace Hlib

open FlagMask (Meets)
open EventLoop (Read Write Error Hup)

namespace FileDescriptorIo

/-- Where the dispatching thread stands in `onEvent` while `m_mutex` is free. -/
inductive Stage
  | idle
  /-- Before the read half. -/
  | reading (events : Events)
  /-- Before the write half. -/
  | writing (events : Events)
  /-- Before the test for errors. -/
  | hangingUp (events : Events)
  /-- In `callbackAndClose`, before `close()`. -/
  | closing (error : Errno)
  deriving DecidableEq, Repr

structure State (T : Type) where
  io : FileDescriptorIo T
  stage : Stage

def initial {T : Type} (eventLoop : Option (EventLoop Handler)) (sinks : SinkId → SinkAdapter T)
    (sources : SourceId → Source) : State T :=
  ⟨create eventLoop sinks sources, .idle⟩

/-- What may happen next. Calls come from callbacks and from other threads alike; `open` is `close`
followed by `attach`, as it holds the mutex in the former only. -/
inductive Label
  | read (sink : Option SinkId) (callback : Bool)
  | write (source : SourceId) (callback : Bool)
  | close
  | attach (fd : Fd) (ctl : Option Errno)
  | event (events : Events)
  | readHalf (call : ReadCall)
  | writeHalf (call : Result Nat)
  | hangUp (socketError : Errno)
  | skip
  | closed
  | expire
  | elsewhere (loop : EventLoop Handler)

def afterRead (events : Events) : ReadOutcome → Stage
  | .more => .writing events
  | .full _ _ => .writing events
  | .eof _ _ => .closing 0
  | .failed errno => .closing errno

def afterWrite (events : Events) : WriteOutcome → Stage
  | .more => .hangingUp events
  | .completed _ => .hangingUp events
  | .failed errno => .closing errno

variable {T : Type} [SinkData T]

/-- One step of a `FileDescriptorIo`; a call or a half that faults has none. -/
inductive Step : State T → Label → State T → Prop
  | read {io io' : FileDescriptorIo T} {stage sink callback} (h : io.read sink callback = .ok io') :
      Step ⟨io, stage⟩ (.read sink callback) ⟨io', stage⟩
  | write {io io' : FileDescriptorIo T} {stage source callback}
      (h : io.write source callback = .ok io') :
      Step ⟨io, stage⟩ (.write source callback) ⟨io', stage⟩
  | close {io io' : FileDescriptorIo T} {stage} (h : io.close = .ok io') :
      Step ⟨io, stage⟩ .close ⟨io', stage⟩
  | attach {io io' : FileDescriptorIo T} {stage fd ctl success} (shut : io.fd = -1)
      (h : io.attach fd io.events .onEvent ctl = .ok (success, io')) :
      Step ⟨io, stage⟩ (.attach fd ctl) ⟨io', stage⟩
  | event {io : FileDescriptorIo T} {events} : Step ⟨io, .idle⟩ (.event events) ⟨io, .reading events⟩
  | readHalf {io : FileDescriptorIo T} {events call half} (asked : Meets Read events)
      (h : io.readHalf call = .ok half) :
      Step ⟨io, .reading events⟩ (.readHalf call) ⟨half.io, afterRead events half.outcome⟩
  | readSkip {io : FileDescriptorIo T} {events} (unasked : ¬Meets Read events) :
      Step ⟨io, .reading events⟩ .skip ⟨io, .writing events⟩
  | writeHalf {io : FileDescriptorIo T} {events call half} (asked : Meets Write events)
      (h : io.writeHalf call = .ok half) :
      Step ⟨io, .writing events⟩ (.writeHalf call) ⟨half.io, afterWrite events half.outcome⟩
  | writeSkip {io : FileDescriptorIo T} {events} (unasked : ¬Meets Write events) :
      Step ⟨io, .writing events⟩ .skip ⟨io, .hangingUp events⟩
  | hangUp {io : FileDescriptorIo T} {events error} (asked : Meets (Error ||| Hup) events) :
      Step ⟨io, .hangingUp events⟩ (.hangUp error) ⟨io, .closing error⟩
  | hangSkip {io : FileDescriptorIo T} {events} (unasked : ¬Meets (Error ||| Hup) events) :
      Step ⟨io, .hangingUp events⟩ .skip ⟨io, .idle⟩
  | closed {io io' : FileDescriptorIo T} {error} (h : io.close = .ok io') :
      Step ⟨io, .closing error⟩ .closed ⟨io', .idle⟩
  | expire {io : FileDescriptorIo T} {stage} :
      Step ⟨io, stage⟩ .expire ⟨{ io with eventLoop := none }, stage⟩
  | elsewhere {io : FileDescriptorIo T} {stage loop loop'} (alive : io.eventLoop = some loop)
      (interest : loop'.interest io.fd = loop.interest io.fd)
      (callbacks : loop'.callbacks io.fd = loop.callbacks io.fd) :
      Step ⟨io, stage⟩ (.elsewhere loop') ⟨{ io with eventLoop := some loop' }, stage⟩

end FileDescriptorIo

end Hlib
