import Hlib.FileDescriptorIo
import Hlib.Socket
import Hlib.EndpointHalves

namespace Hlib

open Function (update)
open FlagMask (Meets)
open EventLoop (Read Write Error Hup)

/-- Which of the two near-copies of the handlers an object has. -/
inductive Implementation
  | fileDescriptorIo
  | socket
  deriving DecidableEq, Repr

/-- An object in `onEvent`, up to `callbackAndClose`. -/
structure Reached (T : Type) where
  io : Endpoint Handler T
  notices : List Notice := []
  /-- The sink that `completed` took from the object. -/
  completed : Option SinkId := none
  /-- What goes to `callbackAndClose`, if that is next. -/
  error : Option Errno := none

namespace Reached

variable {T : Type}

/-- The next part of `onEvent`, unless the last one is to close. -/
def andThen (reached : Reached T) (part : Endpoint Handler T → Checked (Reached T)) :
    Checked (Reached T) :=
  match reached.error with
  | some _ => .ok reached
  | none => do
    let next ← part reached.io
    .ok { next with
      notices := reached.notices ++ next.notices
      completed := reached.completed.or next.completed }

def finish (perform : Call → Endpoint Handler T → Checked (Endpoint Handler T)) (calls : List Call)
    (reached : Reached T) : Checked (Handled T) :=
  match reached.error with
  | none => .ok { goesOn := true, io := reached.io, notices := reached.notices }
  | some error => do
    let closed ← callbackAndClose perform calls error reached.io
    .ok { closed with notices := reached.notices ++ closed.notices }

end Reached

section Parts

variable {T : Type} (perform : Call → Endpoint Handler T → Checked (Endpoint Handler T))

/-- `onEventRead` before it closes. -/
def readReached [SinkData T] (events : Events) (b : Behaviour) (io : Endpoint Handler T) :
    Checked (Reached T) :=
  if Meets Read events then do
    let half ← io.readHalf b.read
    match half.outcome with
    | .more => .ok { io := half.io }
    | .full sink callback => do
      let called ← runCallback perform callback b.onRead half.io
      .ok { io := called, notices := if callback then [.onRead sink] else [], completed := some sink }
    | .eof sink callback => do
      let called ← runCallback perform callback b.onRead half.io
      .ok { io := called, notices := if callback then [.onRead sink] else [], completed := some sink,
            error := some 0 }
    | .failed errno => .ok { io := half.io, error := some errno }
  else .ok { io := io }

/-- `onEventWrite` before it closes. -/
def writeReached (events : Events) (b : Behaviour) (io : Endpoint Handler T) : Checked (Reached T) :=
  if Meets Write events then do
    let half ← io.writeHalf b.write
    match half.outcome with
    | .more => .ok { io := half.io }
    | .completed entry => do
      let called ← runCallback perform entry.callback b.onWritten half.io
      .ok { io := called, notices := if entry.callback then [.onWritten entry.source] else [] }
    | .failed errno => .ok { io := half.io, error := some errno }
  else .ok { io := io }

variable {perform} {events : Events} {b : Behaviour}

theorem callbackAndClose_goesOn {calls : List Call} {error : Errno} {io : Endpoint Handler T}
    {handled : Handled T} (h : callbackAndClose perform calls error io = .ok handled) :
    handled.goesOn = false := by
  obtain ⟨_, _, h⟩ := bind_ok h
  obtain ⟨_, _, h⟩ := bind_ok h
  cases h
  rfl

theorem finish_failed {calls : List Call} (io : Endpoint Handler T) (errno : Errno) :
    Reached.finish perform calls { io := io, error := some errno } =
      callbackAndClose perform calls errno io := by
  unfold Reached.finish
  dsimp only
  cases callbackAndClose perform calls errno io with
  | error fault => rfl
  | ok closed => rfl

theorem onEventRead_reached [SinkData T] (io : Endpoint Handler T) :
    onEventRead perform events b io =
      readReached perform events b io >>= Reached.finish perform b.onClose := by
  unfold onEventRead readReached
  split
  next =>
    cases io.readHalf b.read with
    | error fault => rfl
    | ok half =>
      simp only [ok_bind]
      cases half.outcome with
      | more => rfl
      | full sink callback =>
        dsimp only
        cases runCallback perform callback b.onRead half.io with
        | error fault => rfl
        | ok called => rfl
      | eof sink callback =>
        dsimp only
        cases runCallback perform callback b.onRead half.io with
        | error fault => rfl
        | ok called => rfl
      | failed errno => exact (finish_failed half.io errno).symm
  next => rfl

theorem onEventWrite_reached (io : Endpoint Handler T) :
    onEventWrite perform events b io =
      writeReached perform events b io >>= Reached.finish perform b.onClose := by
  unfold onEventWrite writeReached
  split
  next =>
    cases io.writeHalf b.write with
    | error fault => rfl
    | ok half =>
      simp only [ok_bind]
      cases half.outcome with
      | more => rfl
      | completed entry =>
        dsimp only
        cases runCallback perform entry.callback b.onWritten half.io with
        | error fault => rfl
        | ok called => rfl
      | failed errno => exact (finish_failed half.io errno).symm
  next => rfl

/-- To close at the end of a part, or behind all of them, is the same. -/
theorem andThen_finish {calls : List Call} (first : Checked (Reached T))
    {part : Endpoint Handler T → Checked (Handled T)} {part' : Endpoint Handler T → Checked (Reached T)}
    (h : ∀ io, part io = part' io >>= Reached.finish perform calls) :
    ((first >>= Reached.finish perform calls) >>= fun handled => handled.andThen part) =
      (first >>= fun reached => reached.andThen part') >>= Reached.finish perform calls := by
  cases first with
  | error fault => rfl
  | ok reached =>
    simp only [ok_bind]
    cases here : reached.error with
    | some error =>
      simp only [Reached.andThen, Reached.finish, here, ok_bind]
      cases closed : callbackAndClose perform calls error reached.io with
      | error fault => rfl
      | ok handled =>
        simp only [ok_bind, Handled.andThen]
        rw [callbackAndClose_goesOn closed, if_neg Bool.false_ne_true]
    | none =>
      have goes : reached.finish perform calls =
          .ok { goesOn := true, io := reached.io, notices := reached.notices } := by
        rw [Reached.finish, here]
      rw [goes, ok_bind, Handled.andThen, if_pos rfl, h, Reached.andThen, here]
      cases part' reached.io with
      | error fault => rfl
      | ok next =>
        simp only [ok_bind]
        unfold Reached.finish
        cases next.error with
        | none => rfl
        | some error =>
          dsimp only
          cases callbackAndClose perform calls error next.io with
          | error fault => rfl
          | ok closed => simp only [ok_bind, List.append_assoc]

end Parts

namespace Implementation

variable {T : Type}

def perform : Implementation → Call → Endpoint Handler T → Checked (Endpoint Handler T)
  | .fileDescriptorIo => FileDescriptorIo.perform
  | .socket => Socket.perform

variable [SinkData T]

def onEvent (fd : Fd) (events : Events) (b : Behaviour) :
    Implementation → Endpoint Handler T → Checked (Handled T)
  | .fileDescriptorIo, io => FileDescriptorIo.onEvent fd events b io
  | .socket, io => Socket.onEvent fd events b io

/-- `onEvent` before it closes. -/
def untilClose (fd : Fd) (events : Events) (b : Behaviour) :
    Implementation → Endpoint Handler T → Checked (Reached T)
  | .fileDescriptorIo, io => do
    require (io.fd = fd) .assertion
    let read ← readReached FileDescriptorIo.perform events b io
    let written ← read.andThen (writeReached FileDescriptorIo.perform events b)
    written.andThen fun io =>
      .ok { io := io, error := if Meets (Error ||| Hup) events then some b.socketError else none }
  | .socket, io => do
    require (io.fd = fd) .assertion
    require (io.armed = true) .assertion
    if Meets (Error ||| Hup) events then .ok { io := io, error := some b.socketError }
    else do
      let read ← readReached Socket.perform events b io
      read.andThen (writeReached Socket.perform events b)

/-- What no call changes. -/
def Kept (io io' : Endpoint Handler T) : Prop :=
  io'.sinks = io.sinks ∧ io'.closeCallback = io.closeCallback

omit [SinkData T] in
theorem Kept.trans {io io' io'' : Endpoint Handler T} (h : Kept io io') (h' : Kept io' io'') :
    Kept io io'' :=
  ⟨h'.1.trans h.1, h'.2.trans h.2⟩

omit [SinkData T] in
theorem attach_kept {io io' : Endpoint Handler T} {fd : Fd} {events : Events} {callback : Handler}
    {ctl : Option Errno} {success : Bool} (h : io.attach fd events callback ctl = .ok (success, io')) :
    Kept io io' := by
  obtain ⟨_, _, rfl⟩ | ⟨_, _, _, loop, _, _, _, rfl⟩ := Endpoint.attach_ok h
  · exact ⟨rfl, rfl⟩
  · exact ⟨rfl, rfl⟩

omit [SinkData T] in
theorem closed_kept {io io' : Endpoint Handler T} (h : Endpoint.close io = .ok io') : Kept io io' := by
  obtain ⟨_, rfl⟩ | ⟨_, eventLoop, rfl, _⟩ := Endpoint.close_ok h
  · exact ⟨rfl, rfl⟩
  · exact ⟨rfl, rfl⟩

omit [SinkData T] in
theorem close_kept (kind : Implementation) {io io' : Endpoint Handler T}
    (h : kind.perform .close io = .ok io') : Kept io io' := by
  cases kind with
  | fileDescriptorIo => exact closed_kept h
  | socket =>
    obtain ⟨closed, hc, h⟩ := bind_ok h
    cases h
    have kept := closed_kept hc
    exact ⟨kept.1, kept.2⟩

omit [SinkData T] in
theorem perform_kept (kind : Implementation) {call : Call} {io io' : Endpoint Handler T}
    (h : kind.perform call io = .ok io') : Kept io io' := by
  cases call with
  | read sink callback =>
    have done : io.read sink callback = .ok io' := by
      cases kind with
      | fileDescriptorIo => exact h
      | socket => exact h
    obtain ⟨eventLoop, events, rfl, _⟩ := Endpoint.read_ok done
    exact ⟨rfl, rfl⟩
  | write source callback =>
    have done : io.write source callback = .ok io' := by
      cases kind with
      | fileDescriptorIo => exact h
      | socket => exact h
    obtain ⟨eventLoop, events, rfl, _⟩ := Endpoint.write_ok done
    exact ⟨rfl, rfl⟩
  | «open» fd ctl socketError =>
    cases kind with
    | fileDescriptorIo =>
      obtain ⟨⟨result, opened⟩, done, h⟩ := bind_ok h
      cases h
      obtain ⟨closed, hc, done⟩ := bind_ok done
      obtain ⟨⟨success, attached⟩, ha, done⟩ := bind_ok done
      cases done
      exact (closed_kept hc).trans (attach_kept ha)
    | socket =>
      obtain ⟨⟨result, opened⟩, done, h⟩ := bind_ok h
      cases h
      obtain ⟨closed, hc, done⟩ := bind_ok done
      obtain ⟨⟨success, attached⟩, ha, done⟩ := bind_ok done
      have opened := attach_kept ha
      have kept : Kept io attached := (close_kept .socket hc).trans ⟨opened.1, opened.2⟩
      cases success with
      | true =>
        cases done
        exact kept
      | false =>
        cases done
        exact kept
  | close => exact close_kept kind h

omit [SinkData T] in
theorem runCalls_kept (kind : Implementation) {calls : List Call} {io io' : Endpoint Handler T}
    (h : runCalls kind.perform calls io = .ok io') : Kept io io' := by
  unfold runCalls at h
  induction calls generalizing io with
  | nil =>
    cases h
    exact ⟨rfl, rfl⟩
  | cons call calls ih =>
    rw [List.foldlM_cons] at h
    obtain ⟨called, hc, h⟩ := bind_ok h
    exact (perform_kept kind hc).trans (ih h)

omit [SinkData T] in
theorem runCallback_kept (kind : Implementation) {present : Bool} {calls : List Call}
    {io io' : Endpoint Handler T} (h : runCallback kind.perform present calls io = .ok io') :
    Kept io io' := by
  unfold runCallback at h
  split at h
  next => exact runCalls_kept kind h
  next =>
    cases h
    exact ⟨rfl, rfl⟩

omit [SinkData T] in
theorem writeReached_kept (kind : Implementation) {events : Events} {b : Behaviour}
    {io : Endpoint Handler T} {reached : Reached T}
    (h : writeReached kind.perform events b io = .ok reached) :
    Kept io reached.io ∧ reached.completed = none := by
  unfold writeReached at h
  split at h
  next =>
    obtain ⟨half, hw, h⟩ := bind_ok h
    have kept : Kept io half.io := by
      obtain ⟨front, rest, _, _, ⟨_, _, rfl⟩ | ⟨_, count, _, _, ⟨_, _, same⟩ | ⟨_, _, popped⟩⟩⟩ :=
        Endpoint.writeHalf_ok hw
      · exact ⟨rfl, rfl⟩
      · rw [same]
        exact ⟨rfl, rfl⟩
      · obtain ⟨eventLoop, events, same, _⟩ := popped
        rw [same]
        exact ⟨rfl, rfl⟩
    cases outcome : half.outcome with
    | more =>
      rw [outcome] at h
      cases h
      exact ⟨kept, rfl⟩
    | completed entry =>
      rw [outcome] at h
      obtain ⟨called, hc, h⟩ := bind_ok h
      cases h
      exact ⟨kept.trans (runCallback_kept kind hc), rfl⟩
    | failed errno =>
      rw [outcome] at h
      cases h
      exact ⟨kept, rfl⟩
  next =>
    cases h
    exact ⟨⟨rfl, rfl⟩, rfl⟩

theorem onEvent_untilClose (kind : Implementation) (fd : Fd) (events : Events) (b : Behaviour)
    (io : Endpoint Handler T) :
    kind.onEvent fd events b io =
      kind.untilClose fd events b io >>= Reached.finish kind.perform b.onClose := by
  cases kind with
  | fileDescriptorIo =>
    have last : ∀ io, (if Meets (Error ||| Hup) events then
          callbackAndClose FileDescriptorIo.perform b.onClose b.socketError io
        else .ok { goesOn := true, io := io, notices := [] }) =
        (Except.ok { io := io, error := if Meets (Error ||| Hup) events then some b.socketError else none } :
            Checked (Reached T)) >>= Reached.finish FileDescriptorIo.perform b.onClose := by
      intro io
      rw [ok_bind]
      split
      next => exact (finish_failed io b.socketError).symm
      next => rfl
    show (require (io.fd = fd) .assertion >>= fun _ => _) =
      (require (io.fd = fd) .assertion >>= fun _ => _) >>= _
    cases require (io.fd = fd) .assertion with
    | error fault => rfl
    | ok u =>
      simp only [ok_bind]
      rw [onEventRead_reached, ← bind_assoc, andThen_finish _ onEventWrite_reached, andThen_finish _ last]
      simp only [bind_assoc]
      rfl
  | socket =>
    show (require (io.fd = fd) .assertion >>= fun _ => require (io.armed = true) .assertion >>= fun _ => _) =
      (require (io.fd = fd) .assertion >>= fun _ => require (io.armed = true) .assertion >>= fun _ => _) >>= _
    cases require (io.fd = fd) .assertion with
    | error fault => rfl
    | ok u =>
      cases require (io.armed = true) .assertion with
      | error fault => rfl
      | ok u =>
        simp only [ok_bind]
        split
        next => exact (finish_failed io b.socketError).symm
        next => rw [onEventRead_reached, andThen_finish _ onEventWrite_reached]; rfl

end Implementation

end Hlib
