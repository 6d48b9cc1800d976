import Hlib.Handlers

namespace Hlib

open FlagMask (Meets)
open EventLoop (Error Hup)

/-- A `FileDescriptorIo`; it tells its loop about every change, `armed` being true throughout. -/
abbrev FileDescriptorIo (T : Type) := Endpoint Handler T

namespace FileDescriptorIo

variable {T : Type}

/-- A `FileDescriptorIo` as its constructor leaves it. -/
def create (eventLoop : Option (EventLoop Handler)) (sinks : SinkId → SinkAdapter T)
    (sources : SourceId → Source) : FileDescriptorIo T :=
  { eventLoop := eventLoop, armed := true, sinks := sinks, sources := sources }

def read (sink : Option SinkId) (callback : Bool) (io : FileDescriptorIo T) :
    Checked (FileDescriptorIo T) :=
  Endpoint.read sink callback io

def write (source : SourceId) (callback : Bool) (io : FileDescriptorIo T) :
    Checked (FileDescriptorIo T) :=
  Endpoint.write source callback io

def close (io : FileDescriptorIo T) : Checked (FileDescriptorIo T) := Endpoint.close io

/-- `open(fd, std::nothrow)`. -/
def «open» (fd : Fd) (ctl : Option Errno) (io : FileDescriptorIo T) :
    Checked (Result Unit × FileDescriptorIo T) := do
  let closed ← io.close
  let (success, opened) ← closed.attach fd closed.events .onEvent ctl
  .ok (if success then .ok () else .error 19, opened)

def perform : Call → FileDescriptorIo T → Checked (FileDescriptorIo T)
  | .read sink callback, io => io.read sink callback
  | .write source callback, io => io.write source callback
  | .open fd ctl _, io => do
    let (_, opened) ← io.open fd ctl
    .ok opened
  | .close, io => io.close

variable [SinkData T]

def onEvent (fd : Fd) (events : Events) (b : Behaviour) (io : FileDescriptorIo T) :
    Checked (Handled T) := do
  require (io.fd = fd) .assertion
  let handled ← onEventRead perform events b io
  let handled ← handled.andThen (onEventWrite perform events b)
  handled.andThen fun io =>
    if Meets (Error ||| Hup) events then callbackAndClose perform b.onClose b.socketError io
    else .ok { goesOn := true, io := io, notices := [] }

end FileDescriptorIo

end Hlib
