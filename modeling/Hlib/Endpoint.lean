import Hlib.EventLoop
import Hlib.Sink
import Hlib.Source

namespace Hlib

open Function (update)
open EventLoop (Read Write)

abbrev SinkId := Nat

abbrev SourceId := Nat

/-- An entry of `m_write_queue`, or of `m_send_queue`; `callback` tells whether there is one. -/
structure SendTuple where
  source : SourceId
  callback : Bool
  deriving DecidableEq, Repr

/-- What `FileDescriptorIo` and `Socket` have in common, under the words of the former, together
with the sinks and sources that its shared pointers reach. A loop that is gone is `none`; `armed` is
`m_connected` in a `Socket` and true in a `FileDescriptorIo`. -/
structure Endpoint (κ T : Type) where
  eventLoop : Option (EventLoop κ)
  fd : Fd := -1
  armed : Bool
  closeCallback : Bool := false
  events : Events := 0#32
  readSink : Option SinkId := none
  readCallback : Bool := false
  writeQueue : List SendTuple := []
  sinks : SinkId → SinkAdapter T
  sources : SourceId → Source

/-- What the system calls of a read half give. -/
structure ReadCall where
  /-- `ioctl(fd, FIONREAD, &available)`. -/
  available : Result Nat
  /-- `::read` or `::recv`, which deliver no more than was requested. -/
  received : Result (List Byte)
  /-- Whether the sink finds memory to grow. -/
  alloc : Bool

inductive ReadOutcome
  /-- Data was stored and the sink is not full. -/
  | more
  /-- The sink is full and was handed to its callback, if there is one. -/
  | full (sink : SinkId) (callback : Bool)
  | eof (sink : SinkId) (callback : Bool)
  | failed (error : Errno)
  deriving DecidableEq, Repr

/-- A read half up to the point where it releases the mutex. -/
structure ReadHalf (κ T : Type) where
  io : Endpoint κ T
  outcome : ReadOutcome
  /-- What was asked of the sink. -/
  requested : Nat := 0
  /-- What the system call stored. -/
  returned : List Byte := []

inductive WriteOutcome
  | more
  | completed (entry : SendTuple)
  | failed (error : Errno)
  deriving DecidableEq, Repr

structure WriteHalf (κ T : Type) where
  io : Endpoint κ T
  outcome : WriteOutcome
  /-- What the descriptor accepted. -/
  accepted : List Byte := []

/-- `with_weak_ptr_locked(m_event_loop, lambda)`, for a lambda that changes the loop. -/
def withWeakPtrLocked {κ : Type} (eventLoop : Option (EventLoop κ))
    (lambda : EventLoop κ → Checked (EventLoop κ)) : Checked (Option (EventLoop κ)) :=
  match eventLoop with
  | none => .ok none
  | some loop => do
    let loop ← lambda loop
    .ok (some loop)

namespace Endpoint

variable {κ T : Type}

/-- `updateEventsLocked(events)`, which is `noexcept`. -/
def updateEventsLocked (events : Events) (io : Endpoint κ T) : Checked (Endpoint κ T) :=
  match io.armed, io.eventLoop with
  | true, some loop => do
    match ← loop.modify io.fd events with
    | .error _ => .error .terminate
    | .ok loop => .ok { io with eventLoop := some loop, events := events }
  | _, _ => .ok { io with events := events }

def read (sink : Option SinkId) (callback : Bool) (io : Endpoint κ T) : Checked (Endpoint κ T) := do
  let events := if sink ≠ none then io.events ||| Read else io.events &&& ~~~Read
  let io ← (if events ≠ io.events then io.updateEventsLocked events else .ok io)
  .ok { io with readSink := sink, readCallback := callback }

def write (source : SourceId) (callback : Bool) (io : Endpoint κ T) : Checked (Endpoint κ T) :=
  let events := if io.writeQueue = [] then io.events ||| Write else io.events
  let queued := { io with writeQueue := io.writeQueue ++ [⟨source, callback⟩] }
  if events ≠ io.events then queued.updateEventsLocked events else .ok queued

def close (io : Endpoint κ T) : Checked (Endpoint κ T) :=
  if io.fd = -1 then .ok io
  else do
    let eventLoop ← withWeakPtrLocked io.eventLoop (fun loop => loop.remove io.fd)
    .ok { io with
      eventLoop := eventLoop
      fd := -1
      events := 0#32
      readSink := none
      readCallback := false
      writeQueue := [] }

/-- The end of `open`, `listen` and `connect`: the descriptor is added to the loop and kept. It is
false where the loop is gone; these functions are `noexcept`. -/
def attach (fd : Fd) (events : Events) (callback : κ) (ctl : Option Errno) (io : Endpoint κ T) :
    Checked (Bool × Endpoint κ T) :=
  match io.eventLoop with
  | none => .ok (false, io)
  | some loop => do
    match ← loop.add fd events callback ctl with
    | .error _ => .error .terminate
    | .ok loop => .ok (true, { io with eventLoop := some loop, fd := fd })

/-- The lambda `completed`, up to where it unlocks. -/
def completeRead (io : Endpoint κ T) : Checked (Endpoint κ T) := do
  let io ← io.updateEventsLocked (io.events &&& ~~~Read)
  .ok { io with readSink := none, readCallback := false }

variable [SinkData T]

/-- The read half of `onEvent`. -/
def readHalf (call : ReadCall) (io : Endpoint κ T) : Checked (ReadHalf κ T) :=
  match io.readSink with
  | none => .error .nullSink
  | some id =>
    match call.available with
    | .error errno => .ok { io := io, outcome := .failed errno }
    | .ok available => do
      let headroom ← (io.sinks id).headroom available
      let unextended := (io.sinks id).size
      let (ptr, sink) ← (io.sinks id).produce headroom call.alloc
      let grown := { io with sinks := update io.sinks id sink }
      match ptr, call.received with
      | none, _ => .ok { io := grown, outcome := .failed 12, requested := headroom }
      | some _, .error errno => .ok { io := grown, outcome := .failed errno, requested := headroom }
      | some ptr, .ok bytes =>
        let bytes := bytes.take headroom
        if bytes = [] then do
          let completed ← grown.completeRead
          .ok { io := completed, outcome := .eof id io.readCallback, requested := headroom }
        else do
          let sink ← sink.store ptr bytes
          let sink ← sink.resize (unextended + bytes.length) call.alloc
          let stored := { io with sinks := update io.sinks id sink }
          if sink.full then do
            let completed ← stored.completeRead
            .ok { io := completed, outcome := .full id io.readCallback, requested := headroom,
                  returned := bytes }
          else .ok { io := stored, outcome := .more, requested := headroom, returned := bytes }

omit [SinkData T] in
/-- The write half of `onEvent`; `call` is what `::write` or `::send` gives, which accept no more
than was offered. -/
def writeHalf (call : Result Nat) (io : Endpoint κ T) : Checked (WriteHalf κ T) :=
  match io.writeQueue with
  | [] => .error .emptyQueue
  | front :: rest => do
    let source := io.sources front.source
    let available ← source.available
    let offered ← source.peek available
    match call with
    | .error errno => .ok { io := io, outcome := .failed errno }
    | .ok size => do
      let size := min size available
      let (_, source) ← source.consume size
      let sent := { io with sources := update io.sources front.source source }
      if ← source.empty then do
        let popped := { sent with writeQueue := rest }
        let updated ← (if rest = [] then popped.updateEventsLocked (io.events &&& ~~~Write)
          else .ok popped)
        .ok { io := updated, outcome := .completed front, accepted := offered.take size }
      else .ok { io := sent, outcome := .more, accepted := offered.take size }

end Endpoint

end Hlib
