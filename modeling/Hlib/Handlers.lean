import Hlib.Endpoint

namespace Hlib

open FlagMask (Meets)
open EventLoop (Read Write)

/-- Which member function a loop calls for a descriptor; `foreign` stands for other objects. -/
inductive Handler
  | onEvent
  | onConnect
  | onAccept
  | foreign
  deriving DecidableEq, Repr

/-- The calls that callbacks and other threads make on an object. `ctl` and `socketError` are what
`EPOLL_CTL_ADD` and `SO_ERROR` give. -/
inductive Call
  | read (sink : Option SinkId) (callback : Bool)
  | write (source : SourceId) (callback : Bool)
  | open (fd : Fd) (ctl : Option Errno) (socketError : Errno)
  | close
  deriving DecidableEq, Repr

/-- A callback that was run. -/
inductive Notice
  | onRead (sink : SinkId)
  | onWritten (source : SourceId)
  | onClose (error : Errno)
  deriving DecidableEq, Repr

/-- What the system and the callbacks do during one `onEvent`. -/
structure Behaviour where
  read : ReadCall
  write : Result Nat
  socketError : Errno := 0
  onRead : List Call := []
  onWritten : List Call := []
  onClose : List Call := []

/-- What one part of `onEvent` comes to: whether the next part follows, the object, and the
callbacks that were run. -/
structure Handled (T : Type) where
  goesOn : Bool
  io : Endpoint Handler T
  notices : List Notice

section Handlers

variable {T : Type} (perform : Call → Endpoint Handler T → Checked (Endpoint Handler T))

def runCalls (calls : List Call) (io : Endpoint Handler T) : Checked (Endpoint Handler T) :=
  calls.foldlM (fun io call => perform call io) io

/-- A callback that is run unless it is null. -/
def runCallback (present : Bool) (calls : List Call) (io : Endpoint Handler T) :
    Checked (Endpoint Handler T) :=
  if present then runCalls perform calls io else .ok io

def callbackAndClose (calls : List Call) (error : Errno) (io : Endpoint Handler T) :
    Checked (Handled T) := do
  let called ← runCallback perform io.closeCallback calls io
  let closed ← perform .close called
  .ok { goesOn := false, io := closed, notices := if io.closeCallback then [.onClose error] else [] }

variable [SinkData T]

/-- The part of `onEvent` under `EventLoop::Read`. -/
def onEventRead (events : Events) (b : Behaviour) (io : Endpoint Handler T) :
    Checked (Handled T) :=
  if Meets Read events then do
    let half ← io.readHalf b.read
    match half.outcome with
    | .more => .ok { goesOn := true, io := half.io, notices := [] }
    | .full sink callback => do
      let called ← runCallback perform callback b.onRead half.io
      .ok { goesOn := true, io := called, notices := if callback then [.onRead sink] else [] }
    | .eof sink callback => do
      let called ← runCallback perform callback b.onRead half.io
      let handled ← callbackAndClose perform b.onClose 0 called
      .ok { handled with notices := (if callback then [.onRead sink] else []) ++ handled.notices }
    | .failed errno => callbackAndClose perform b.onClose errno half.io
  else .ok { goesOn := true, io := io, notices := [] }

omit [SinkData T] in
/-- The part of `onEvent` under `EventLoop::Write`. -/
def onEventWrite (events : Events) (b : Behaviour) (io : Endpoint Handler T) :
    Checked (Handled T) :=
  if Meets Write events then do
    let half ← io.writeHalf b.write
    match half.outcome with
    | .more => .ok { goesOn := true, io := half.io, notices := [] }
    | .completed entry => do
      let called ← runCallback perform entry.callback b.onWritten half.io
      .ok { goesOn := true, io := called
            notices := if entry.callback then [.onWritten entry.source] else [] }
    | .failed errno => callbackAndClose perform b.onClose errno half.io
  else .ok { goesOn := true, io := io, notices := [] }

end Handlers

/-- The next part of `onEvent`, unless the last one returned. -/
def Handled.andThen {T : Type} (handled : Handled T)
    (part : Endpoint Handler T → Checked (Handled T)) : Checked (Handled T) :=
  if handled.goesOn then do
    let next ← part handled.io
    .ok { next with notices := handled.notices ++ next.notices }
  else .ok handled

end Hlib
