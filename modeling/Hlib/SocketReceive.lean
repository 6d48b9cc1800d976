import Hlib.SocketWork
import Hlib.Reentrancy

namespace Hlib

open FlagMask (Meets)
open EventLoop (Read Write)
open Transition (Run Restrict)

def Work.SinkReady (w : Work) : Prop := Meets Read w.events → w.sink ≠ none

theorem Work.sinkReady_stable : Work.Stable Work.SinkReady := by
  intro w w' h hs
  cases hs with
  | receive sink =>
    intro asked
    cases sink with
    | none => simp at asked
    | some id => simp
  | send entry =>
    intro asked
    refine h ?_
    by_cases empty : w.queue = []
    · simpa [empty] using asked
    · simpa [empty] using asked
  | received => exact fun asked => absurd asked (EventLoop.read_cleared _)
  | sent front rest queued =>
    intro asked
    refine h ?_
    by_cases last : rest = []
    · simpa [last] using asked
    · simpa [last] using asked
  | same => exact h

namespace Socket

variable {T : Type} {socket : Socket T}

/-- The loop of a connected socket waits for data only with a sink to put it in. -/
def ReadsToSink (socket : Socket T) : Prop :=
  socket.armed = true → ∀ loop interest, socket.eventLoop = some loop →
    loop.interest socket.fd = some interest → Meets Read interest → socket.readSink ≠ none

theorem readsToSink_iff (h : Linked socket) :
    ReadsToSink socket ↔ WhileConnected Work.SinkReady socket := by
  constructor
  · intro reads armed lives asked
    obtain ⟨loop, alive⟩ := Option.ne_none_iff_exists'.mp lives
    have valid := (h.held armed).resolve_right lives
    exact reads armed loop _ alive (h.registered armed valid loop alive) asked
  · intro whileConnected armed loop interest alive watched asked
    have lives : socket.eventLoop ≠ none := by simp [alive]
    have valid := (h.held armed).resolve_right lives
    cases Option.some.inj (watched.symm.trans (h.registered armed valid loop alive))
    exact whileConnected armed lives asked

/-- A socket is opened or connected without a descriptor and with a sink, and a connection that is
established finds a sink or `Read` no longer asked for. -/
def FindsSink (s : State T) : Label → Prop
  | .open _ _ socketError =>
    socketError = 0 → s.socket.eventLoop ≠ none → s.socket.fd = -1 ∧ s.socket.readSink ≠ none
  | .connect (.connected _) _ =>
    s.socket.eventLoop ≠ none → s.socket.fd = -1 ∧ s.socket.readSink ≠ none
  | .onConnect socketError ctl =>
    socketError = 0 → ctl = none → s.socket.eventLoop ≠ none →
      Meets Read s.socket.events → s.socket.readSink ≠ none
  | _ => True

theorem restarted_sinkReady :
    socket.restarted.SinkReady ↔ socket.fd = -1 ∧ socket.readSink ≠ none := by
  have asked : Meets Read socket.restarted.events := by
    change Meets Read Read
    decide
  change (_ → (if socket.fd = -1 then socket.readSink else none) ≠ none) ↔ _
  rw [forall_prop_of_true asked]
  split
  next shut => exact (and_iff_right shut).symm
  next valid => exact iff_of_false (fun some => some rfl) (fun both => valid both.1)

theorem findsSink_iff {s : State T} {label : Label} :
    FindsSink s label ↔ Connects Work.SinkReady s label := by
  cases label with
  | «open» fd ctl socketError =>
    exact imp_congr_right fun _ => imp_congr_right fun _ => restarted_sinkReady.symm
  | connect call ctl =>
    cases call with
    | connected fd => exact imp_congr_right fun _ => restarted_sinkReady.symm
    | failed errno => exact Iff.rfl
    | inProgress fd => exact Iff.rfl
  | onConnect | receive | send | close | event | broken | readHalf | writeHalf | skip | closed
  | expire | elsewhere => exact Iff.rfl

variable [SinkData T]

/-- In a run whose steps find a sink where they connect, `Read` is awaited only for a sink, so that a
read half that is due has one; and a step from such a state loses this just when it finds none. -/
theorem read_awaited_for_sink {eventLoop : Option (EventLoop Handler)}
    {sinks : SinkId → SinkAdapter T} {sources : SourceId → Source} {labels : List Label} {s : State T}
    (run : Run (Restrict FindsSink Step) (initial eventLoop sinks sources) labels s) :
    ReadsToSink s.socket ∧
      (∀ {events call}, s.socket.armed = true → s.socket.Deliverable events → Meets Read events →
        Avoids OwnAssertion (s.socket.readHalf call)) ∧
      ∀ {label t}, Step s label t → (ReadsToSink t.socket ↔ FindsSink s label) := by
  have same : FindsSink (T := T) = Connects Work.SinkReady := by
    funext s label
    exact propext findsSink_iff
  rw [same] at run
  obtain ⟨linked, h⟩ := whileConnected_run Work.sinkReady_stable run
  have reads := (readsToSink_iff linked).mpr h
  refine ⟨reads, ?_, ?_⟩
  · intro events call armed deliverable asked
    obtain ⟨loop, interest, alive, watched, read, _⟩ := deliverable
    rw [Endpoint.readHalf_avoids_iff]
    exact reads armed loop interest alive watched (read asked)
  · intro label t hs
    rw [readsToSink_iff (step_linked linked hs), findsSink_iff]
    exact whileConnected_step Work.sinkReady_stable linked h hs

theorem read_awaited_for_sink_opened :
    ∃ s : State StringData,
      Run (Restrict FindsSink Step)
        (initial (some ⟨fun _ => none, fun _ => none⟩) (fun _ => { data := [] })
          (fun _ => ⟨[], 0⟩))
        [.receive (some 0) true, .open 5 none 0] s ∧ ReadsToSink s.socket := by
  refine Exists.imp (fun s run => ⟨run, (read_awaited_for_sink run).1⟩) ?_
  exact ⟨_, (Run.start.next ⟨trivial, .receive rfl⟩).next
    ⟨fun _ _ => ⟨rfl, Option.some_ne_none 0⟩, .open rfl⟩⟩

/-- In every state of every run `Read` is awaited only for a sink. -/
def ReadAwaitedForSink : Prop :=
  ∀ (eventLoop : Option (EventLoop Handler)) (sinks : SinkId → SinkAdapter StringData)
    (sources : SourceId → Source) (labels : List Label) (s : State StringData),
    Run Step (initial eventLoop sinks sources) labels s → ReadsToSink s.socket

/-- `open` waits for data before there is a sink. -/
theorem read_awaited_by_open : ¬ReadAwaitedForSink := by
  intro reads
  exact reads (some ⟨fun _ => none, fun _ => none⟩) (fun _ => { data := [] }) (fun _ => ⟨[], 0⟩)
    [.open 5 none 0] _ (Run.start.next (.open rfl)) rfl _ Read rfl rfl (by decide) rfl

end Socket

end Hlib
