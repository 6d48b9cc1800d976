import Hlib.FileDescriptorIoReentry
import Hlib.SocketReentry

namespace Hlib

open FlagMask (Meets)
open EventLoop (Read Write Error Hup)

/-- For an object whose registered interest matches its pending work, the sink and the queue are
there when `onEvent` uses them, unless a read callback interferes. A `Socket` that is closed for an
error never comes to them. -/
theorem onEvent_survives_iff {T : Type} [SinkData T] {io : Endpoint Handler T} {events : Events}
    (b : Behaviour) (h : io.Matched) (deliverable : io.Deliverable events) :
    (Avoids OwnAssertion (FileDescriptorIo.onEvent io.fd events b io) ↔
      ¬Interferes (FileDescriptorIo.account io.foreign) io events b) ∧
    (Avoids OwnAssertion (Socket.onEvent io.fd events b io) ↔
      Meets (Error ||| Hup) events ∨ ¬Interferes (Socket.account io.foreign) io events b) :=
  ⟨FileDescriptorIo.onEvent_avoids_iff h deliverable, Socket.onEvent_avoids_iff h deliverable⟩

/-- Open on descriptor 5, with a dynamic sink and a source at work. -/
def exchanging : Endpoint Handler StringData where
  eventLoop := some ⟨Function.update (fun _ => none) 5 (some (Read ||| Write)),
    Function.update (fun _ => none) 5 (some .onEvent)⟩
  fd := 5
  armed := true
  events := Read ||| Write
  readSink := some 0
  readCallback := true
  writeQueue := [⟨0, false⟩]
  sinks := fun _ => { data := [] }
  sources := fun _ => ⟨[7#8], 0⟩

theorem exchanging_matched : exchanging.Matched := by
  refine ⟨by decide, ⟨rfl, by decide, by decide, ?_⟩, _, rfl, ⟨?_, rfl⟩, by decide⟩
  · intro _ _ loop alive
    cases Option.some.inj alive
    rfl
  · intro fd
    by_cases own : fd = 5
    · subst own
      decide
    · simp [own]

theorem exchanging_deliverable : exchanging.Deliverable (Read ||| Write) :=
  ⟨_, Read ||| Write, rfl, rfl, id, id⟩

/-- One byte arrives; `calls` are the read callback's. -/
def arrival (calls : List Call) : Behaviour :=
  { read := ⟨.ok 1, .ok [3#8], true⟩, write := .ok 1, onRead := calls }

/-- A read callback that asks for more data leaves the write half its queue. -/
theorem onEvent_survives_iff_again :
    ¬Interferes (FileDescriptorIo.account exchanging.foreign) exchanging (Read ||| Write)
        (arrival [.read (some 1) true]) ∧
      Avoids OwnAssertion (FileDescriptorIo.onEvent 5 (Read ||| Write)
        (arrival [.read (some 1) true]) exchanging) ∧
      Avoids OwnAssertion (Socket.onEvent 5 (Read ||| Write) (arrival [.read (some 1) true])
        exchanging) := by
  have both := onEvent_survives_iff (arrival [.read (some 1) true]) exchanging_matched
    exchanging_deliverable
  have quiet : ¬Interferes (FileDescriptorIo.account exchanging.foreign) exchanging (Read ||| Write)
      (arrival [.read (some 1) true]) := by
    rintro ⟨_, _, _, _, opened, emptied⟩
    cases emptied
  have quietSocket : ¬Interferes (Socket.account exchanging.foreign) exchanging (Read ||| Write)
      (arrival [.read (some 1) true]) := by
    rintro ⟨_, _, _, _, opened, emptied⟩
    cases emptied
  exact ⟨quiet, both.1.mpr quiet, both.2.mpr (Or.inr quietSocket)⟩

section

variable (perform : Call → Endpoint Handler StringData → Checked (Endpoint Handler StringData))
  (onEvent : Fd → Events → Behaviour → Endpoint Handler StringData → Checked (Handled StringData))

/-- However calls got a `created` object to a state whose registered interest matches its pending
work, its `onEvent` keeps to its assertions. -/
def Survives (created : Endpoint Handler StringData) : Prop :=
  ∀ calls io events b, runCalls perform calls created = .ok io → io.Matched →
    io.Deliverable events → Avoids OwnAssertion (onEvent io.fd events b io)

end

/-- A new object on an empty loop; a `FileDescriptorIo` is armed from the start. -/
def created (armed : Bool) : Endpoint Handler StringData where
  eventLoop := some ⟨fun _ => none, fun _ => none⟩
  armed := armed
  sinks := fun _ => { data := [] }
  sources := fun _ => ⟨[7#8], 0⟩

def exchange : List Call := [.open 5 none 0, .read (some 0) true, .write 0 false]

theorem exchanging_reached :
    runCalls FileDescriptorIo.perform exchange (created true) = .ok exchanging := by
  have told : Function.update (Function.update (Function.update (fun _ : Fd => none) 5
      (some (0#32 : Events))) 5 (some Read)) 5 (some (Read ||| Write)) =
      Function.update (fun _ => none) 5 (some (Read ||| Write)) := by
    simp only [Function.update_idem]
  unfold exchanging
  rw [← told]
  rfl

theorem exchanging_reached_connected :
    runCalls Socket.perform exchange (created false) = .ok exchanging := by
  have told : Function.update (Function.update (fun _ : Fd => none) 5
      (some Read)) 5 (some (Read ||| Write)) =
      Function.update (fun _ => none) 5 (some (Read ||| Write)) := by
    simp only [Function.update_idem]
  unfold exchanging
  rw [← told]
  rfl

/-- A read callback that closes the object takes the queue from the write half. -/
theorem onEvent_closed_by_callback :
    ¬Survives FileDescriptorIo.perform FileDescriptorIo.onEvent (created true) ∧
      ¬Survives Socket.perform Socket.onEvent (created false) := by
  constructor
  · intro survives
    exact survives exchange exchanging (Read ||| Write) (arrival [.close]) exchanging_reached
      exchanging_matched exchanging_deliverable .emptyQueue rfl (Or.inr rfl)
  · intro survives
    exact survives exchange exchanging (Read ||| Write) (arrival [.close])
      exchanging_reached_connected exchanging_matched exchanging_deliverable .emptyQueue rfl
      (Or.inr rfl)

end Hlib
