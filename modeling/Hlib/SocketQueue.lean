import Hlib.SocketWork

namespace Hlib

open FlagMask (Meets)
open EventLoop (Read Write)
open Transition (Run Restrict)

def Work.SendAwaited (w : Work) : Prop := w.queue ≠ [] → Meets Write w.events

theorem Work.sendAwaited_stable : Work.Stable Work.SendAwaited := by
  intro w w' h hs
  cases hs with
  | receive sink =>
    intro queued
    cases sink with
    | none => simpa using h queued
    | some id => simpa using h queued
  | send entry =>
    intro _
    by_cases empty : w.queue = []
    · simp [empty]
    · simpa [empty] using h empty
  | received => exact fun queued => by simpa using h queued
  | sent front rest queued =>
    intro some
    simpa [show rest ≠ [] from some] using h (by simp [queued])
  | same => exact h

namespace Socket

variable {T : Type} {socket : Socket T}

/-- Data queued on a connected socket with a live loop is waited for, by it and by the loop. -/
def Awaited (socket : Socket T) : Prop :=
  socket.armed = true → ∀ loop, socket.eventLoop = some loop → socket.writeQueue ≠ [] →
    Meets Write socket.events ∧
      ∃ interest, loop.interest socket.fd = some interest ∧ Meets Write interest

theorem awaited_iff (h : Linked socket) :
    Awaited socket ↔ WhileConnected Work.SendAwaited socket := by
  constructor
  · intro awaited armed lives queued
    obtain ⟨loop, alive⟩ := Option.ne_none_iff_exists'.mp lives
    exact (awaited armed loop alive queued).1
  · intro whileConnected armed loop alive queued
    have lives : socket.eventLoop ≠ none := by simp [alive]
    have valid := (h.held armed).resolve_right lives
    have wanted := whileConnected armed lives queued
    exact ⟨wanted, _, h.registered armed valid loop alive, wanted⟩

/-- A socket without a descriptor is opened or connected with nothing queued, and a connection that
is established finds the queue empty or `Write` asked for. -/
def FindsNoBacklog (s : State T) : Label → Prop
  | .open _ _ socketError =>
    socketError = 0 → s.socket.eventLoop ≠ none → s.socket.fd = -1 → s.socket.writeQueue = []
  | .connect (.connected _) _ =>
    s.socket.eventLoop ≠ none → s.socket.fd = -1 → s.socket.writeQueue = []
  | .onConnect socketError ctl =>
    socketError = 0 → ctl = none → s.socket.eventLoop ≠ none →
      s.socket.writeQueue = [] ∨ Meets Write s.socket.events
  | _ => True

theorem restarted_sendAwaited :
    socket.restarted.SendAwaited ↔ (socket.fd = -1 → socket.writeQueue = []) := by
  have unasked : ¬Meets Write socket.restarted.events := by
    change ¬Meets Write Read
    decide
  change (socket.restarted.queue ≠ [] → _) ↔ _
  rw [imp_iff_not unasked, not_not]
  change (if socket.fd = -1 then socket.writeQueue else []) = [] ↔ _
  split
  next shut => exact ⟨fun empty _ => empty, fun empty => empty shut⟩
  next valid => exact iff_of_true rfl (fun shut => absurd shut valid)

theorem findsNoBacklog_iff {s : State T} {label : Label} :
    FindsNoBacklog s label ↔ Connects Work.SendAwaited s label := by
  cases label with
  | «open» fd ctl socketError =>
    exact imp_congr_right fun _ => imp_congr_right fun _ => restarted_sendAwaited.symm
  | connect call ctl =>
    cases call with
    | connected fd => exact imp_congr_right fun _ => restarted_sendAwaited.symm
    | failed errno => exact Iff.rfl
    | inProgress fd => exact Iff.rfl
  | onConnect socketError ctl =>
    exact imp_congr_right fun _ => imp_congr_right fun _ => imp_congr_right fun _ =>
      Decidable.or_iff_not_imp_left
  | receive | send | close | event | broken | readHalf | writeHalf | skip | closed | expire
  | elsewhere => exact Iff.rfl

variable [SinkData T]

/-- In a run that never connects a socket over a backlog, queued data is waited for in every state;
and a step from such a state strands queued data just when it does so. -/
theorem queue_awaited {eventLoop : Option (EventLoop Handler)} {sinks : SinkId → SinkAdapter T}
    {sources : SourceId → Source} {labels : List Label} {s : State T}
    (run : Run (Restrict FindsNoBacklog Step) (initial eventLoop sinks sources) labels s) :
    Awaited s.socket ∧
      ∀ {label t}, Step s label t → (Awaited t.socket ↔ FindsNoBacklog s label) := by
  have same : FindsNoBacklog (T := T) = Connects Work.SendAwaited := by
    funext s label
    exact propext findsNoBacklog_iff
  rw [same] at run
  obtain ⟨linked, h⟩ := whileConnected_run Work.sendAwaited_stable run
  refine ⟨(awaited_iff linked).mpr h, ?_⟩
  intro label t hs
  rw [awaited_iff (step_linked linked hs), findsNoBacklog_iff]
  exact whileConnected_step Work.sendAwaited_stable linked h hs

theorem queue_awaited_opened :
    ∃ s : State StringData,
      Run (Restrict FindsNoBacklog Step)
        (initial (some ⟨fun _ => none, fun _ => none⟩) (fun _ => { data := [] })
          (fun _ => ⟨[7#8], 0⟩))
        [.open 5 none 0, .send 0 false] s ∧ Awaited s.socket := by
  refine Exists.imp (fun s run => ⟨run, (queue_awaited run).1⟩) ?_
  exact ⟨_, (Run.start.next ⟨fun _ _ _ => rfl, .open rfl⟩).next ⟨trivial, .send rfl⟩⟩

/-- Queued data is waited for in every state of every run. -/
def QueueAwaited : Prop :=
  ∀ (eventLoop : Option (EventLoop Handler)) (sinks : SinkId → SinkAdapter StringData)
    (sources : SourceId → Source) (labels : List Label) (s : State StringData),
    Run Step (initial eventLoop sinks sources) labels s → Awaited s.socket

/-- What was sent before `open` is left in the queue, and `Write` is not asked for. -/
theorem queue_stranded_by_open : ¬QueueAwaited := by
  intro awaited
  have wrong := awaited (some ⟨fun _ => none, fun _ => none⟩) (fun _ => { data := [] })
    (fun _ => ⟨[7#8], 0⟩) [.send 0 false, .open 5 none 0] _
    ((Run.start.next (.send rfl)).next (.open rfl)) rfl _ rfl (List.cons_ne_nil _ _)
  exact absurd wrong.1 (by decide)

end Socket

end Hlib
