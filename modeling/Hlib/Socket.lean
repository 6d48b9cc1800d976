import Hlib.Handlers

namespace Hlib

open FlagMask (Meets)
open EventLoop (Read Write Error Hup)

/-- A `Socket`, where `armed` is `m_connected`; `receive` and `send` are the endpoint's `read` and
`write`. -/
abbrev Socket (T : Type) := Endpoint Handler T

/-- How the system calls of `connect` end: with an error before the loop is told, with a connection
to wait for, or with a connection. -/
inductive ConnectCall
  | failed (error : Errno)
  | inProgress (fd : Fd)
  | connected (fd : Fd)
  deriving DecidableEq, Repr

namespace Socket

variable {T : Type}

def create (eventLoop : Option (EventLoop Handler)) (sinks : SinkId → SinkAdapter T)
    (sources : SourceId → Source) : Socket T :=
  { eventLoop := eventLoop, armed := false, sinks := sinks, sources := sources }

def receive (sink : Option SinkId) (callback : Bool) (socket : Socket T) : Checked (Socket T) :=
  Endpoint.read sink callback socket

def send (source : SourceId) (callback : Bool) (socket : Socket T) : Checked (Socket T) :=
  Endpoint.write source callback socket

def close (socket : Socket T) : Checked (Socket T) := do
  let closed ← Endpoint.close socket
  .ok { closed with armed := if socket.fd = -1 then closed.armed else false }

/-- `open(fd, std::nothrow)`. -/
def «open» (fd : Fd) (ctl : Option Errno) (socketError : Errno) (socket : Socket T) :
    Checked (Result Unit × Socket T) := do
  let closed ← socket.close
  let reading := { closed with events := Read }
  let (success, opened) ← reading.attach fd Read .onEvent ctl
  if success then .ok (.ok (), { opened with armed := socketError = 0 })
  else .ok (.error 19, opened)

/-- `connect(address, …, std::nothrow)`, up to the connected callback. -/
def connect (call : ConnectCall) (ctl : Option Errno) (socket : Socket T) :
    Checked (Result Unit × Socket T) := do
  let closed ← socket.close
  let reading := { closed with events := Read }
  match call with
  | .failed errno => .ok (.error errno, reading)
  | .inProgress fd => do
    let (success, opened) ← reading.attach fd (Read ||| Write) .onConnect ctl
    .ok (if success then .ok () else .error 19, opened)
  | .connected fd => do
    let connected := { reading with armed := true }
    let (success, opened) ← connected.attach fd Read .onEvent ctl
    .ok (if success then .ok () else .error 19, opened)

/-- What `onConnect` comes to. -/
inductive ConnectOutcome
  | connected
  /-- `callbackAndClose` is next. -/
  | failed (error : Errno)
  /-- An exception from `EventLoop::add`. -/
  | thrown (error : Errno)
  deriving DecidableEq, Repr

/-- `onConnect(fd, events)`, up to a callback. -/
def onConnect (fd : Fd) (socketError : Errno) (ctl : Option Errno) (socket : Socket T) :
    Checked (ConnectOutcome × Socket T) :=
  if socketError ≠ 0 then .ok (.failed socketError, socket)
  else
    match socket.eventLoop with
    | none => .ok (.failed 19, socket)
    | some loop => do
      let removed ← loop.remove fd
      match ← removed.add fd socket.events .onEvent ctl with
      | .error errno => .ok (.thrown errno, { socket with eventLoop := some removed })
      | .ok added => .ok (.connected, { socket with eventLoop := some added, armed := true })

def perform : Call → Socket T → Checked (Socket T)
  | .read sink callback, socket => socket.receive sink callback
  | .write source callback, socket => socket.send source callback
  | .open fd ctl socketError, socket => do
    let (_, opened) ← socket.open fd ctl socketError
    .ok opened
  | .close, socket => socket.close

variable [SinkData T]

def onEvent (fd : Fd) (events : Events) (b : Behaviour) (socket : Socket T) :
    Checked (Handled T) := do
  require (socket.fd = fd) .assertion
  require (socket.armed = true) .assertion
  if Meets (Error ||| Hup) events then callbackAndClose perform b.onClose b.socketError socket
  else do
    let handled ← onEventRead perform events b socket
    handled.andThen (onEventWrite perform events b)

end Socket

end Hlib
