import Hlib.FileDescriptorIo
import Hlib.Transition

namespace Hlib

open Function (update update_self update_of_ne)
open FlagMask (Meets)
open EventLoop (Read Write Error Hup)

/-- `Subprocess::Pipe`. -/
inductive Pipe
  | stdIn
  | stdOut
  | stdErr
  deriving DecidableEq, Repr

/-- A `Subprocess` with an internal event loop. Its three objects share the loop, and the copies in
their fields are not looked at. -/
structure Subprocess where
  eventLoop : Option (EventLoop Handler)
  io : Pipe → FileDescriptorIo BufferData

namespace Subprocess

/-- `Subprocess()` and the source and sinks of `run`; `wake` is the descriptor of the loop's own
pipe. -/
def create (wake : Fd) (input : Source) : Subprocess where
  eventLoop := some
    ⟨update (fun _ => none) wake (some Read), update (fun _ => none) wake (some .foreign)⟩
  io := fun _ =>
    { FileDescriptorIo.create none (fun _ => { data := ⟨{}, Buffer.valid_empty⟩ }) (fun _ => input) with
      closeCallback := true }

def linked (p : Subprocess) (pipe : Pipe) : FileDescriptorIo BufferData :=
  { p.io pipe with eventLoop := p.eventLoop }

def store (p : Subprocess) (pipe : Pipe) (io : FileDescriptorIo BufferData) : Subprocess where
  eventLoop := io.eventLoop
  io := update p.io pipe io

def on (p : Subprocess) (pipe : Pipe)
    (call : FileDescriptorIo BufferData → Checked (FileDescriptorIo BufferData)) :
    Checked Subprocess := do
  let io ← call (p.linked pipe)
  .ok (p.store pipe io)

/-- `run(argv)` from `fork` to `dispatch`, in the parent. -/
def launch (fds : Pipe → Fd) (p : Subprocess) : Checked Subprocess := do
  let p ← p.on .stdIn (FileDescriptorIo.perform (.open (fds .stdIn) none 0))
  let p ← p.on .stdOut (FileDescriptorIo.perform (.open (fds .stdOut) none 0))
  let p ← p.on .stdErr (FileDescriptorIo.perform (.open (fds .stdErr) none 0))
  let p ← p.on .stdIn (FileDescriptorIo.perform (.write 0 true))
  let p ← p.on .stdOut (FileDescriptorIo.perform (.read (some 0) false))
  p.on .stdErr (FileDescriptorIo.perform (.read (some 0) false))

/-- `output()` and `error()`. -/
def captured (p : Subprocess) (pipe : Pipe) : List Cell := ((p.io pipe).sinks 0).contents

/-- Where `run` stands after `launch`. -/
inductive Stage
  | dispatching
  /-- With an event from `epoll_wait`. -/
  | handling (pipe : Pipe) (events : Events)
  /-- In `wait()`. -/
  | waiting
  | returned
  deriving DecidableEq, Repr

/-- The parent in `run`, the child, and the pipes between them. -/
structure State where
  parent : Subprocess
  stage : Stage
  /-- What the child wrote to a pipe. -/
  written : Pipe → List Byte
  /-- What of it the parent has not read. -/
  unread : Pipe → List Byte
  /-- The pipes whose other end the child holds open. -/
  held : Pipe → Bool
  exited : Bool
  /-- The bytes in the loop's own pipe. -/
  interrupts : Nat

def begin (parent : Subprocess) : State where
  parent := parent
  stage := .dispatching
  written := fun _ => []
  unread := fun _ => []
  held := fun _ => true
  exited := false
  interrupts := 0

def State.wrote (s : State) (pipe : Pipe) (bytes : List Byte) : State :=
  { s with
    written := update s.written pipe (s.written pipe ++ bytes)
    unread := update s.unread pipe (s.unread pipe ++ bytes) }

/-- `onClose` interrupts the loop. -/
def interruptions (notices : List Notice) : Nat :=
  notices.countP fun
    | .onClose _ => true
    | _ => false

/-- After an `onEvent` that took `count` bytes from its pipe. -/
def State.handled (s : State) (pipe : Pipe) (count : Nat) (handled : Handled BufferData) : State :=
  { s with
    parent := s.parent.store pipe handled.io
    stage := .dispatching
    unread := update s.unread pipe ((s.unread pipe).drop count)
    interrupts := s.interrupts + interruptions handled.notices }

inductive Label
  | write (pipe : Pipe) (bytes : List Byte)
  | close (pipe : Pipe)
  | exit
  | report (pipe : Pipe) (events : Events)
  | handle (alloc : Bool) (accepted : Result Nat) (error : Errno)
  | wake
  | wait

/-- What `epoll_wait` reports of a pipe is the case. -/
structure Truthful (s : State) (pipe : Pipe) (events : Events) : Prop where
  valid : (s.parent.io pipe).fd ≠ -1
  watched : ∃ loop interest, s.parent.eventLoop = some loop ∧
    loop.interest (s.parent.io pipe).fd = some interest ∧
    (Meets Read events ↔ Meets Read interest ∧ s.unread pipe ≠ []) ∧
    (Meets Write events → Meets Write interest)
  broken : Meets (Error ||| Hup) events ↔ s.held pipe = false
  some : events ≠ 0#32

/-- What the system and the callbacks do during `onEvent`: a read delivers what is unread, and
`onWritten` closes the pipe. -/
def behaviour (s : State) (pipe : Pipe) (alloc : Bool) (accepted : Result Nat) (error : Errno) :
    Behaviour where
  read := ⟨.ok (s.unread pipe).length, .ok (s.unread pipe), alloc⟩
  write := accepted
  socketError := error
  onWritten := [.close]

/-- How many bytes the read half of an `onEvent` takes from its pipe. -/
def taken (io : FileDescriptorIo BufferData) (events : Events) (call : ReadCall) : Nat :=
  if Meets Read events then
    match io.readHalf call with
    | .ok half => half.returned.length
    | .error _ => 0
  else 0

/-- One step of the child or of the parent. -/
inductive Step : State → Label → State → Prop
  | write {s : State} {pipe bytes} (output : pipe ≠ .stdIn) (held : s.held pipe = true)
      (reader : (s.parent.io pipe).fd ≠ -1) :
      Step s (.write pipe bytes) (s.wrote pipe bytes)
  | close {s : State} {pipe} (held : s.held pipe = true) :
      Step s (.close pipe) { s with held := update s.held pipe false }
  | exit {s : State} (running : s.exited = false) :
      Step s .exit { s with held := fun _ => false, exited := true }
  | report {s : State} {pipe events} (free : s.stage = .dispatching)
      (truthful : Truthful s pipe events) :
      Step s (.report pipe events) { s with stage := .handling pipe events }
  | handle {s : State} {pipe events alloc accepted error handled}
      (due : s.stage = .handling pipe events)
      (h : FileDescriptorIo.onEvent (s.parent.linked pipe).fd events
        (behaviour s pipe alloc accepted error) (s.parent.linked pipe) = .ok handled) :
      Step s (.handle alloc accepted error) (s.handled pipe
        (taken (s.parent.linked pipe) events (behaviour s pipe alloc accepted error).read) handled)
  | wake {s : State} {n} (free : s.stage = .dispatching) (interrupted : s.interrupts = n + 1) :
      Step s .wake { s with stage := .waiting, interrupts := n }
  | wait {s : State} (joining : s.stage = .waiting) (exited : s.exited = true) :
      Step s .wait { s with stage := .returned }

end Subprocess

end Hlib
