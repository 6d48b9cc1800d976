import Hlib.SocketCalls
import Hlib.Transition

namespace Hlib

open Function (update update_self update_of_ne)
open FlagMask (Meets)
open EventLoop (Read Write Error Hup)

namespace Socket

def ReuseAddr : BitVec 32 := 0x01#32

def ReusePort : BitVec 32 := 0x02#32

/-- What the system calls of `listen` and `connect` give: the new descriptor, and an error where one
fails. -/
structure SystemCalls where
  socket : Result Fd
  closeOnExec : Option Errno := none
  nonBlocking : Option Errno := none
  reuseAddr : Option Errno := none
  reusePort : Option Errno := none
  bind : Option Errno := none
  listen : Option Errno := none
  connect : Option Errno := none
  /-- `EPOLL_CTL_ADD`. -/
  ctl : Option Errno := none

/-- `set_reuse(fd, options)`. -/
def setReuse (options : BitVec 32) (calls : SystemCalls) : Option Errno :=
  if Meets ReuseAddr options ∧ calls.reuseAddr ≠ none then calls.reuseAddr
  else if Meets ReusePort options then calls.reusePort
  else none

/-- What the calls of `connect` come to, before the loop is told. -/
def SystemCalls.connectCall (options : BitVec 32) (calls : SystemCalls) : ConnectCall :=
  match calls.socket with
  | .error errno => .failed errno
  | .ok fd =>
    match [calls.nonBlocking, setReuse options calls].findSome? id with
    | some errno => .failed errno
    | none =>
      match calls.connect with
      | none => .connected fd
      | some errno => if errno ≠ 115 then .failed errno else .inProgress fd

/-- A socket, and the descriptors that are open in its process. -/
structure Process (T : Type) where
  socket : Socket T
  opened : Fd → Bool

namespace Process

variable {T : Type}

/-- `file::fd_close(fd)`. -/
def fdClose (fd : Fd) (p : Process T) : Process T :=
  if fd < 0 then p else { p with opened := update p.opened fd false }

def close (p : Process T) : Checked (Process T) := do
  let socket ← p.socket.close
  .ok (fdClose p.socket.fd { p with socket })

/-- The end of `open`, `listen` and `connect`, where the handle is stored or destroyed. -/
def attach (fd : Fd) (events : Events) (callback : Handler) (ctl : Option Errno) (p : Process T) :
    Checked (Result Unit × Process T) := do
  let (success, socket) ← p.socket.attach fd events callback ctl
  if success then .ok (.ok (), { p with socket })
  else .ok (.error 19, fdClose fd { p with socket })

/-- `open(fd, std::nothrow)`. -/
def «open» (fd : Fd) (ctl : Option Errno) (socketError : Errno) (p : Process T) :
    Checked (Result Unit × Process T) := do
  let closed ← p.close
  let (result, opened) ← attach fd Read .onEvent ctl { closed with socket := Closed.reading closed.socket }
  match result with
  | .error errno => .ok (.error errno, opened)
  | .ok () => .ok (.ok (), { opened with socket := { opened.socket with armed := socketError = 0 } })

/-- `listen(address, type, protocol, backlog, options, std::nothrow)`. -/
def listen (options : BitVec 32) (calls : SystemCalls) (p : Process T) :
    Checked (Result Unit × Process T) := do
  let closed ← p.close
  let reading := { closed with socket := Closed.reading closed.socket }
  match calls.socket with
  | .error errno => .ok (.error errno, reading)
  | .ok fd =>
    let made := { reading with opened := update reading.opened fd true }
    match [calls.closeOnExec, calls.nonBlocking, setReuse options calls, calls.bind,
      calls.listen].findSome? id with
    | some errno => .ok (.error errno, made.fdClose fd)
    | none => made.attach fd Read .onAccept calls.ctl

/-- `connect(address, type, protocol, options, std::nothrow)`, up to the connected callback. -/
def connect (options : BitVec 32) (calls : SystemCalls) (p : Process T) :
    Checked (Result Unit × Process T) := do
  let closed ← p.close
  let reading := { closed with socket := Closed.reading closed.socket }
  match calls.socket with
  | .error errno => .ok (.error errno, reading)
  | .ok fd =>
    let made := { reading with opened := update reading.opened fd true }
    match [calls.nonBlocking, setReuse options calls].findSome? id with
    | some errno => .ok (.error errno, made.fdClose fd)
    | none =>
      match calls.connect with
      | none =>
        attach fd Read .onEvent calls.ctl { made with socket := { made.socket with armed := true } }
      | some errno =>
        if errno ≠ 115 then .ok (.error errno, made.fdClose fd)
        else made.attach fd (Read ||| Write) .onConnect calls.ctl

end Process

/-- Where the dispatching thread stands. -/
inductive Phase
  | idle
  /-- In `onAccept`, before `accept`. -/
  | accepting
  /-- In `onEvent`, before the read half. -/
  | reading (events : Events)
  | writing (events : Events)
  /-- In `callbackAndClose`, before `close()`; `onAccept` may go on behind it. -/
  | closing (accepts : Bool)
  deriving DecidableEq, Repr

/-- What is seen of a connection: a call that begins one, system calls on it, and its callbacks. -/
inductive Act
  | began
  | accept
  | recv
  | send
  | onAccept
  | onConnected
  | onReceived
  | onSent
  | onClose (error : Errno)
  deriving DecidableEq, Repr

/-- A socket through the calls and events on it. `returned` is what the last step returned, if it was
a call that opens, with the descriptor it was about. -/
structure Life (T : Type) where
  process : Process T
  acceptCallback : Bool := false
  connectedCallback : Bool := false
  phase : Phase := .idle
  returned : Option (Result Unit × Result Fd) := none
  acts : List Act := []

/-- The calls on a socket. -/
inductive Request
  | receive (sink : Option SinkId) (callback : Bool)
  | send (source : SourceId) (callback : Bool)
  | setAcceptCallback (present : Bool)
  | setConnectedCallback (present : Bool)
  | setCloseCallback (present : Bool)
  | open (fd : Fd) (ctl : Option Errno) (socketError : Errno)
  | listen (options : BitVec 32) (calls : SystemCalls)
  | connect (options : BitVec 32) (calls : SystemCalls)
  | close

/-- What the system tells a handler when it is entered: `errno`, `SO_ERROR` and `EPOLL_CTL_ADD`. -/
structure Answers where
  errno : Errno := 0
  socketError : Errno := 0
  ctl : Option Errno := none

namespace Life

variable {T : Type}

abbrev socket (w : Life T) : Socket T := w.process.socket

def put (socket : Socket T) (w : Life T) : Life T :=
  { w with process := { w.process with socket }, returned := none }

def see (acts : List Act) (w : Life T) : Life T := { w with acts := w.acts ++ acts }

def goTo (phase : Phase) (w : Life T) : Life T := { w with phase, returned := none }

/-- The end of a call that opens. -/
def answer (result : Result Unit) (fd : Result Fd) (process : Process T) (w : Life T) : Life T :=
  see (match result with | .ok () => [.began] | .error _ => [])
    { w with process, returned := some (result, fd) }

def request : Request → Life T → Checked (Life T)
  | .receive sink callback, w => do
    let socket ← w.socket.receive sink callback
    .ok (w.put socket)
  | .send source callback, w => do
    let socket ← w.socket.send source callback
    .ok (w.put socket)
  | .setAcceptCallback present, w => .ok { w with acceptCallback := present, returned := none }
  | .setConnectedCallback present, w => .ok { w with connectedCallback := present, returned := none }
  | .setCloseCallback present, w => .ok (w.put { w.socket with closeCallback := present })
  | .open fd ctl socketError, w => do
    let (result, process) ← w.process.open fd ctl socketError
    .ok (w.answer result (.ok fd) process)
  | .listen options calls, w => do
    let (result, process) ← w.process.listen options calls
    .ok (w.answer result calls.socket process)
  | .connect options calls, w => do
    let (result, process) ← w.process.connect options calls
    let answered := w.answer result calls.socket process
    match result with
    | .error _ => .ok answered
    | .ok () =>
      if process.socket.armed ∧ w.connectedCallback then .ok (answered.see [.onConnected])
      else .ok answered
  | .close, w => do
    let process ← w.process.close
    .ok { w with process, returned := none }

/-- `callbackAndClose(error)`, up to `close()`. -/
def callbackAndClose (error : Errno) (accepts : Bool) (w : Life T) : Life T :=
  (w.goTo (.closing accepts)).see (if w.socket.closeCallback then [.onClose error] else [])

/-- `onAccept(fd, events)`, up to `accept`. -/
def onAccept (fd : Fd) (events : Events) (errno : Errno) (w : Life T) : Checked (Life T) := do
  require (w.socket.fd = fd) .assertion
  require (w.acceptCallback = true) .assertion
  if Meets Error events then .ok (w.callbackAndClose errno true) else .ok (w.goTo .accepting)

/-- The rest of `onAccept`: `accept` gives a descriptor that goes to the callback. -/
def accept (peer : Result Fd) (nonBlocking : Option Errno) (w : Life T) : Life T :=
  let called := w.see [.accept]
  match peer, nonBlocking with
  | .error errno, _ => called.callbackAndClose errno false
  | .ok _, some errno => called.callbackAndClose errno false
  | .ok fd, none =>
    let accepted := { called.process with opened := update called.process.opened fd true }
    ({ called with process := accepted }.goTo .idle).see [.onAccept]

def onConnect (fd : Fd) (answers : Answers) (w : Life T) : Checked (Life T) := do
  let (outcome, socket) ← w.socket.onConnect fd answers.socketError answers.ctl
  match outcome with
  | .connected => .ok ((w.put socket).see (if w.connectedCallback then [.onConnected] else []))
  | .failed errno => .ok ((w.put socket).callbackAndClose errno false)
  | .thrown _ => .ok (w.put socket)

/-- `onEvent(fd, events)`, up to the read half. -/
def onEvent (fd : Fd) (events : Events) (socketError : Errno) (w : Life T) : Checked (Life T) := do
  require (w.socket.fd = fd) .assertion
  require (w.socket.armed = true) .assertion
  if Meets (Error ||| Hup) events then .ok (w.callbackAndClose socketError false)
  else .ok (w.goTo (.reading events))

/-- The call of the loop for an event. -/
def dispatch (fd : Fd) (events : Events) (answers : Answers) (w : Life T) : Handler → Checked (Life T)
  | .onAccept => w.onAccept fd events answers.errno
  | .onConnect => w.onConnect fd answers
  | .onEvent => w.onEvent fd events answers.socketError
  | .foreign => .ok (w.goTo .idle)

def finish (accepts : Bool) (w : Life T) : Checked (Life T) := do
  let process ← w.process.close
  .ok ({ w with process }.goTo (if accepts then .accepting else .idle))

def writePart (events : Events) (call : Result Nat) (w : Life T) : Checked (Life T) :=
  if Meets Write events then do
    let half ← w.socket.writeHalf call
    let sent := (w.put half.io).see [.send]
    match half.outcome with
    | .more => .ok (sent.goTo .idle)
    | .completed entry => .ok ((sent.goTo .idle).see (if entry.callback then [.onSent] else []))
    | .failed errno => .ok (sent.callbackAndClose errno false)
  else .ok (w.goTo .idle)

variable [SinkData T]

/-- The read half with its callback; `recv` is seen also where the sink gives no room for it. -/
def readPart (events : Events) (call : ReadCall) (w : Life T) : Checked (Life T) :=
  if Meets Read events then do
    let half ← w.socket.readHalf call
    let received := (w.put half.io).see [.recv]
    match half.outcome with
    | .more => .ok (received.goTo (.writing events))
    | .full _ callback =>
      .ok ((received.goTo (.writing events)).see (if callback then [.onReceived] else []))
    | .eof _ callback =>
      .ok ((received.see (if callback then [.onReceived] else [])).callbackAndClose 0 false)
    | .failed errno => .ok (received.callbackAndClose errno false)
  else .ok (w.goTo (.writing events))

inductive Label
  | request (request : Request)
  | event (fd : Fd) (events : Events) (answers : Answers)
  | accept (peer : Result Fd) (nonBlocking : Option Errno)
  | read (call : ReadCall)
  | write (call : Result Nat)
  | closed
  | expire
  | elsewhere (loop : EventLoop Handler)

/-- One step of a socket: a call from a callback or from another thread, the start of a handler or the
next part of it, the loop's end, or what other objects do to the loop. A call that faults has none. -/
inductive Step : Life T → Label → Life T → Prop
  | request {w w' : Life T} {request} (h : w.request request = .ok w') :
      Step w (.request request) w'
  | event {w w' : Life T} {loop fd events handler answers} (idle : w.phase = .idle)
      (alive : w.socket.eventLoop = some loop) (watched : loop.interest fd ≠ none)
      (called : loop.callbacks fd = some handler) (h : w.dispatch fd events answers handler = .ok w') :
      Step w (.event fd events answers) w'
  | accept {w : Life T} {peer nonBlocking} (here : w.phase = .accepting) :
      Step w (.accept peer nonBlocking) (w.accept peer nonBlocking)
  | read {w w' : Life T} {events call} (here : w.phase = .reading events)
      (h : w.readPart events call = .ok w') : Step w (.read call) w'
  | write {w w' : Life T} {events call} (here : w.phase = .writing events)
      (h : w.writePart events call = .ok w') : Step w (.write call) w'
  | closed {w w' : Life T} {accepts} (here : w.phase = .closing accepts)
      (h : w.finish accepts = .ok w') : Step w .closed w'
  | expire {w : Life T} : Step w .expire (w.put { w.socket with eventLoop := none })
  | elsewhere {w : Life T} {loop loop' : EventLoop Handler} (alive : w.socket.eventLoop = some loop)
      (own : ∀ fd handler, handler ≠ .foreign →
        (loop'.callbacks fd = some handler ↔ loop.callbacks fd = some handler))
      (interest : loop'.interest w.socket.fd = loop.interest w.socket.fd) :
      Step w (.elsewhere loop') (w.put { w.socket with eventLoop := some loop' })

def initial (eventLoop : Option (EventLoop Handler)) (sinks : SinkId → SinkAdapter T)
    (sources : SourceId → Source) (opened : Fd → Bool) : Life T where
  process := { socket := create eventLoop sinks sources, opened }

end Life

end Socket

end Hlib
