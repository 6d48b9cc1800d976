import Hlib.SocketSteps

namespace Hlib

open Function (update update_self)
open FlagMask (Meets)
open EventLoop (Read Write)
open Endpoint (Retuned Registered)

/-- The work pending on an object, and the event set it has for it. -/
structure Work where
  events : Events
  queue : List SendTuple
  sink : Option SinkId

namespace Work

/-- What calls and events do to pending work on a descriptor that stays open. -/
inductive Step : Work → Work → Prop
  | receive (w : Work) (sink : Option SinkId) :
      Step w { w with
        events := if sink ≠ none then w.events ||| Read else w.events &&& ~~~Read, sink := sink }
  | send (w : Work) (entry : SendTuple) :
      Step w { w with
        events := if w.queue = [] then w.events ||| Write else w.events
        queue := w.queue ++ [entry] }
  | received (w : Work) : Step w { w with events := w.events &&& ~~~Read, sink := none }
  | sent (w : Work) (front : SendTuple) (rest : List SendTuple) (queued : w.queue = front :: rest) :
      Step w { w with
        events := if rest = [] then w.events &&& ~~~Write else w.events, queue := rest }
  | same (w : Work) : Step w w

def Stable (good : Work → Prop) : Prop := ∀ {w w'}, good w → Step w w' → good w'

end Work

namespace Socket

variable {T : Type} {socket socket' : Socket T}

def work (socket : Socket T) : Work := ⟨socket.events, socket.writeQueue, socket.readSink⟩

/-- A connected socket of a live loop is open, told the loop what it waits for, and has its
`onEvent` called. -/
structure Linked (socket : Socket T) : Prop where
  held : socket.armed = true → socket.fd ≠ -1 ∨ socket.eventLoop = none
  registered : socket.Registered
  called : socket.armed = true → ∀ loop, socket.eventLoop = some loop →
    loop.callbacks socket.fd ≠ some .onConnect

/-- A change to nothing but the pending work, that the loop was told of. -/
structure Worked (socket socket' : Socket T) : Prop where
  fd : socket'.fd = socket.fd
  armed : socket'.armed = socket.armed
  retuned : Retuned socket.fd socket.eventLoop socket'.eventLoop
  registered : socket.Registered → socket'.Registered
  work : Work.Step socket.work socket'.work

theorem Linked.worked (h : Linked socket) (worked : Worked socket socket') : Linked socket' := by
  refine ⟨?_, worked.registered h.registered, ?_⟩
  · rw [worked.armed, worked.fd, worked.retuned.none_iff]
    exact h.held
  · rw [worked.armed, worked.fd]
    intro armed loop' alive'
    obtain ⟨loop, alive, same, _⟩ := worked.retuned.callbacks alive'
    rw [same]
    exact h.called armed loop alive

theorem receive_worked {sink : Option SinkId} {callback : Bool}
    (h : socket.receive sink callback = .ok socket') : Worked socket socket' := by
  obtain ⟨_, _, rfl, rfl, retuned, registered⟩ := Endpoint.read_ok h
  exact ⟨rfl, rfl, retuned, registered, .receive _ sink⟩

theorem send_worked {source : SourceId} {callback : Bool}
    (h : socket.send source callback = .ok socket') : Worked socket socket' := by
  obtain ⟨_, _, rfl, rfl, retuned, registered⟩ := Endpoint.write_ok h
  exact ⟨rfl, rfl, retuned, registered, .send _ ⟨source, callback⟩⟩

theorem readHalf_worked [SinkData T] {call : ReadCall} {half : ReadHalf Handler T}
    (h : socket.readHalf call = .ok half) : Worked socket half.io := by
  obtain ⟨_, _, ⟨_, _, rfl⟩ | ⟨_, _, _, _, ⟨_, kept⟩ | ⟨_, completed⟩⟩⟩ := Endpoint.readHalf_ok h
  · exact ⟨rfl, rfl, Or.inl rfl, id, .same _⟩
  · rw [kept]
    exact ⟨rfl, rfl, Or.inl rfl, id, .same _⟩
  · obtain ⟨_, he, retuned, registered⟩ := Endpoint.completeRead_ok completed
    rw [he] at registered ⊢
    exact ⟨rfl, rfl, retuned, fun _ => registered, .received _⟩

theorem writeHalf_worked {call : Result Nat} {half : WriteHalf Handler T}
    (h : socket.writeHalf call = .ok half) : Worked socket half.io := by
  obtain ⟨front, rest, queued, _, ⟨_, _, rfl⟩ | ⟨_, count, _, _, more | popped⟩⟩ :=
    Endpoint.writeHalf_ok h
  · exact ⟨rfl, rfl, Or.inl rfl, id, .same _⟩
  · rw [more.2.2]
    exact ⟨rfl, rfl, Or.inl rfl, id, .same _⟩
  · obtain ⟨_, _, _, _, he, rfl, retuned, registered⟩ := popped
    rw [he] at registered ⊢
    exact ⟨rfl, rfl, retuned, registered, .sent _ front rest queued⟩

theorem Linked.unarmed (h : Linked socket) (closed : Closed socket socket')
    (armed : socket'.armed = true) : socket'.eventLoop = none := by
  obtain ⟨shut, before⟩ := closed.armed armed
  exact closed.alive.mpr ((h.held before).resolve_left (not_not.mpr shut))

theorem Linked.closed (h : Linked socket) (closed : Closed socket socket') : Linked socket' := by
  refine ⟨fun armed => Or.inr (h.unarmed closed armed), fun _ valid => absurd closed.shut valid, ?_⟩
  intro armed loop alive
  cases alive.symm.trans (h.unarmed closed armed)

theorem linked_of_gone (gone : socket.eventLoop = none) : Linked socket := by
  refine ⟨fun _ => Or.inr gone, ?_, ?_⟩
  · intro _ _ loop alive
    cases alive.symm.trans gone
  · intro _ loop alive
    cases alive.symm.trans gone

theorem linked_of_watched {loop : EventLoop Handler} (alive : socket.eventLoop = some loop)
    (valid : socket.fd ≠ -1) (told : socket.armed = true →
      loop.interest socket.fd = some socket.events ∧ loop.callbacks socket.fd ≠ some .onConnect) :
    Linked socket := by
  refine ⟨fun _ => Or.inl valid, ?_, ?_⟩
  · intro armed _ loop' alive'
    cases Option.some.inj (alive.symm.trans alive')
    exact (told armed).1
  · intro armed loop' alive'
    cases Option.some.inj (alive.symm.trans alive')
    exact (told armed).2

theorem open_linked {fd : Fd} {ctl : Option Errno} {socketError : Errno} {result : Result Unit}
    (h : socket.open fd ctl socketError = .ok (result, socket')) : Linked socket' := by
  obtain ⟨closed, opened, _, ⟨gone, rfl⟩ | ⟨loop, alive, valid, rfl⟩, rfl⟩ := open_ok h
  · exact linked_of_gone gone
  · refine linked_of_watched rfl valid fun _ => ⟨update_self fd _ _, ?_⟩
    intro connecting
    cases (update_self fd _ loop.callbacks).symm.trans connecting

theorem connect_linked {call : ConnectCall} {ctl : Option Errno} {result : Result Unit}
    (h : Linked socket) (hc : socket.connect call ctl = .ok (result, socket')) : Linked socket' := by
  obtain ⟨closed, hclosed, after⟩ := connect_ok hc
  cases call with
  | failed errno =>
    rw [show socket' = Closed.reading closed from after]
    have linked := h.closed hclosed
    exact ⟨linked.held, fun _ valid => absurd hclosed.shut valid, linked.called⟩
  | inProgress fd =>
    obtain ⟨gone, rfl⟩ | ⟨loop, alive, valid, rfl⟩ := after
    · exact linked_of_gone gone
    · refine linked_of_watched rfl valid fun armed => ?_
      have gone := h.unarmed hclosed (show closed.armed = true from armed)
      cases alive.symm.trans gone
  | connected fd =>
    obtain ⟨gone, rfl⟩ | ⟨loop, alive, valid, rfl⟩ := after
    · exact linked_of_gone gone
    · refine linked_of_watched rfl valid fun _ => ⟨update_self fd _ _, ?_⟩
      intro connecting
      cases (update_self fd _ loop.callbacks).symm.trans connecting

theorem onConnect_linked {socketError : Errno} {ctl : Option Errno} {outcome : ConnectOutcome}
    (h : Linked socket)
    (called : ∀ loop, socket.eventLoop = some loop → loop.callbacks socket.fd = some .onConnect)
    (hc : socket.onConnect socket.fd socketError ctl = .ok (outcome, socket')) : Linked socket' := by
  obtain ⟨_, _, rfl⟩ | ⟨_, valid, loop, alive, ⟨_, _, rfl⟩ | ⟨_, _, rfl⟩⟩ := onConnect_ok hc
  · exact h
  · refine linked_of_watched rfl valid fun armed => ?_
    exact absurd (called loop alive) (h.called armed loop alive)
  · refine linked_of_watched rfl valid fun _ => ⟨update_self socket.fd _ _, ?_⟩
    intro connecting
    cases (update_self socket.fd _ _).symm.trans connecting

variable [SinkData T]

theorem step_linked {s t : State T} {label : Label} (h : Linked s.socket) (hs : Step s label t) :
    Linked t.socket := by
  cases hs with
  | receive hr => exact h.worked (receive_worked hr)
  | send hw => exact h.worked (send_worked hw)
  | «open» ho => exact open_linked ho
  | connect hc => exact connect_linked h hc
  | close hc => exact h.closed (close_closed hc)
  | closed hc => exact h.closed (close_closed hc)
  | onConnect called hc => exact onConnect_linked h called hc
  | readHalf _ hr => exact h.worked (readHalf_worked hr)
  | writeHalf _ hw => exact h.worked (writeHalf_worked hw)
  | expire => exact linked_of_gone rfl
  | elsewhere alive interest callbacks =>
    refine ⟨?_, ?_, ?_⟩
    · intro armed
      refine Or.inl ((h.held armed).resolve_right ?_)
      simp [alive]
    · intro armed valid loop' alive'
      cases Option.some.inj alive'
      exact interest.trans (h.registered armed valid _ alive)
    · intro armed loop' alive'
      cases Option.some.inj alive'
      exact fun connecting => h.called armed _ alive (callbacks.symm.trans connecting)
  | event | broken | readSkip | writeSkip => exact h

omit [SinkData T] in
theorem create_linked (eventLoop : Option (EventLoop Handler)) (sinks : SinkId → SinkAdapter T)
    (sources : SourceId → Source) : Linked (create eventLoop sinks sources) :=
  ⟨nofun, nofun, nofun⟩

/-- Whether what is pending on a socket is `good` as long as it is connected. -/
def WhileConnected (good : Work → Prop) (socket : Socket T) : Prop :=
  socket.armed = true → socket.eventLoop ≠ none → good socket.work

/-- The work a socket starts with after `close()` and the assignment of `m_events`. -/
def restarted (socket : Socket T) : Work where
  events := Read
  queue := if socket.fd = -1 then socket.writeQueue else []
  sink := if socket.fd = -1 then socket.readSink else none

/-- A step that connects a socket finds or makes its work `good`. -/
def Connects (good : Work → Prop) (s : State T) : Label → Prop
  | .open _ _ socketError => socketError = 0 → s.socket.eventLoop ≠ none → good s.socket.restarted
  | .connect (.connected _) _ => s.socket.eventLoop ≠ none → good s.socket.restarted
  | .onConnect socketError ctl =>
    socketError = 0 → ctl = none → s.socket.eventLoop ≠ none → good s.socket.work
  | _ => True

section

omit [SinkData T]

variable {good : Work → Prop}

theorem whileConnected_gone (gone : socket.eventLoop = none) : WhileConnected good socket :=
  fun _ alive => absurd gone alive

theorem WhileConnected.worked (h : WhileConnected good socket) (stable : Work.Stable good)
    (worked : Worked socket socket') : WhileConnected good socket' := by
  intro armed alive
  rw [worked.armed] at armed
  rw [ne_eq, worked.retuned.none_iff] at alive
  exact stable (h armed alive) worked.work

theorem whileConnected_closed (h : Linked socket) (closed : Closed socket socket') :
    WhileConnected good socket' :=
  fun armed alive => absurd (h.unarmed closed armed) alive

theorem Closed.restarted {closed : Socket T} (h : Closed socket closed) :
    (Closed.reading closed).work = socket.restarted := by
  rw [work, Closed.reading, Socket.restarted, ← h.queue, ← h.sink]

theorem open_connects {fd : Fd} {ctl : Option Errno} {socketError : Errno} {result : Result Unit}
    (h : socket.open fd ctl socketError = .ok (result, socket')) :
    WhileConnected good socket' ↔
      (socketError = 0 → socket.eventLoop ≠ none → good socket.restarted) := by
  obtain ⟨closed, opened, hclosed, ⟨gone, rfl⟩ | ⟨loop, alive, valid, rfl⟩, rfl⟩ := open_ok h
  · exact iff_of_true (whileConnected_gone gone)
      (fun _ lives => absurd (hclosed.alive.mp gone) lives)
  · have lives : closed.eventLoop ≠ none := by
      rw [show closed.eventLoop = some loop from alive]
      exact nofun
    have before : socket.eventLoop ≠ none := mt hclosed.alive.mpr lives
    rw [if_neg lives, ← hclosed.restarted]
    constructor
    · exact fun h noError _ => h (decide_eq_true noError) nofun
    · exact fun h armed _ => h (of_decide_eq_true armed) before

theorem connect_connects {s : State T} {call : ConnectCall} {ctl : Option Errno}
    {result : Result Unit} (linked : Linked s.socket)
    (h : s.socket.connect call ctl = .ok (result, socket')) :
    WhileConnected good socket' ↔ Connects good s (.connect call ctl) := by
  obtain ⟨closed, hclosed, after⟩ := connect_ok h
  cases call with
  | failed errno =>
    rw [show socket' = Closed.reading closed from after]
    exact iff_of_true (fun armed alive => absurd (linked.unarmed hclosed armed) alive) trivial
  | inProgress fd =>
    refine iff_of_true ?_ trivial
    obtain ⟨gone, rfl⟩ | ⟨loop, alive, valid, rfl⟩ := after
    · exact whileConnected_gone gone
    · intro armed
      have gone := linked.unarmed hclosed (show closed.armed = true from armed)
      cases alive.symm.trans gone
  | connected fd =>
    obtain ⟨gone, rfl⟩ | ⟨loop, alive, valid, rfl⟩ := after
    · exact iff_of_true (whileConnected_gone gone)
        (fun lives => absurd (hclosed.alive.mp gone) lives)
    · have lives : closed.eventLoop ≠ none := by
        rw [show closed.eventLoop = some loop from alive]
        exact nofun
      have before : s.socket.eventLoop ≠ none := mt hclosed.alive.mpr lives
      change _ ↔ (_ → good s.socket.restarted)
      rw [← hclosed.restarted]
      exact ⟨fun h _ => h rfl nofun, fun h _ _ => h before⟩

theorem onConnect_connects {s : State T} {socketError : Errno} {ctl : Option Errno}
    {outcome : ConnectOutcome} (linked : Linked s.socket) (before : WhileConnected good s.socket)
    (called : ∀ loop, s.socket.eventLoop = some loop →
      loop.callbacks s.socket.fd = some .onConnect)
    (h : s.socket.onConnect s.socket.fd socketError ctl = .ok (outcome, socket')) :
    WhileConnected good socket' ↔ Connects good s (.onConnect socketError ctl) := by
  obtain ⟨failed, _, rfl⟩ | ⟨noError, valid, loop, alive, ⟨refused, _, rfl⟩ | ⟨granted, _, rfl⟩⟩ :=
    onConnect_ok h
  · refine iff_of_true before ?_
    intro noError _ lives
    exact absurd (failed.resolve_left (not_not.mpr noError)) lives
  · refine iff_of_true ?_ (fun _ granted => absurd granted refused)
    intro armed
    exact absurd (called loop alive) (linked.called armed loop alive)
  · have lives : s.socket.eventLoop ≠ none := by
      rw [alive]
      exact nofun
    exact ⟨fun h _ _ _ => h rfl nofun, fun h _ _ => h noError granted lives⟩

end

/-- Every step keeps good work good while connected, except for one that connects without. -/
theorem whileConnected_step {good : Work → Prop} (stable : Work.Stable good) {s t : State T}
    {label : Label} (linked : Linked s.socket) (h : WhileConnected good s.socket)
    (hs : Step s label t) : WhileConnected good t.socket ↔ Connects good s label := by
  cases hs with
  | receive hr => exact iff_of_true (h.worked stable (receive_worked hr)) trivial
  | send hw => exact iff_of_true (h.worked stable (send_worked hw)) trivial
  | «open» ho => exact open_connects ho
  | connect hc => exact connect_connects linked hc
  | close hc => exact iff_of_true (whileConnected_closed linked (close_closed hc)) trivial
  | closed hc => exact iff_of_true (whileConnected_closed linked (close_closed hc)) trivial
  | onConnect called hc => exact onConnect_connects linked h called hc
  | readHalf _ hr => exact iff_of_true (h.worked stable (readHalf_worked hr)) trivial
  | writeHalf _ hw => exact iff_of_true (h.worked stable (writeHalf_worked hw)) trivial
  | expire => exact iff_of_true (whileConnected_gone rfl) trivial
  | elsewhere alive _ _ =>
    refine iff_of_true (fun armed _ => h armed ?_) trivial
    simp [alive]
  | event | broken | readSkip | writeSkip => exact iff_of_true h trivial

theorem whileConnected_run {good : Work → Prop} (stable : Work.Stable good)
    {eventLoop : Option (EventLoop Handler)} {sinks : SinkId → SinkAdapter T}
    {sources : SourceId → Source} {labels : List Label} {s : State T}
    (run : Transition.Run (Transition.Restrict (Connects good) Step)
      (initial eventLoop sinks sources) labels s) :
    Linked s.socket ∧ WhileConnected good s.socket := by
  apply run.invariant
  · exact ⟨create_linked eventLoop sinks sources, nofun⟩
  · rintro s label t ⟨linked, h⟩ ⟨connects, hs⟩
    exact ⟨step_linked linked hs, (whileConnected_step stable linked h hs).mpr connects⟩

end Socket

end Hlib
