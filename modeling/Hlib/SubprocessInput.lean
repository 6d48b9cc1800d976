import Hlib.SubprocessOutput

namespace Hlib

open Function (update update_self update_of_ne)
open FlagMask (Meets)
open EventLoop (Read Write Error Hup)
open Transition (Run Restrict)

namespace FileDescriptorIo

variable {T : Type} {io io' : FileDescriptorIo T} {events : Events} {b : Behaviour} {id : SourceId}
  {handled : Handled T}

/-- What the write half of an `onEvent` gives its descriptor. -/
def given (io : FileDescriptorIo T) (events : Events) (call : Result Nat) : List Byte :=
  if Meets Write events then
    match io.writeHalf call with
    | .ok half => half.accepted
    | .error _ => []
  else []

theorem given_asked {call : Result Nat} {half : WriteHalf Handler T} (asked : Meets Write events)
    (hw : io.writeHalf call = .ok half) : given io events call = half.accepted := by
  rw [given, if_pos asked, hw]

theorem given_unasked {call : Result Nat} (unasked : ¬Meets Write events) : given io events call = [] :=
  if_neg unasked

theorem close_shuts (h : io.close = .ok io') : io'.fd = -1 ∧ io'.sources = io.sources := by
  obtain ⟨shut, rfl⟩ | ⟨_, _, rfl, _⟩ := Endpoint.close_ok h
  · exact ⟨shut, rfl⟩
  · exact ⟨rfl, rfl⟩

theorem callbackAndClose_shuts {error : Errno} (h : callbackAndClose perform [] error io = .ok handled) :
    handled.goesOn = false ∧ handled.io.fd = -1 ∧ handled.io.sources = io.sources := by
  obtain ⟨called, hc, h⟩ := bind_ok h
  obtain ⟨closed, hp, h⟩ := bind_ok h
  cases h
  have same : called = io := by
    unfold runCallback at hc
    split at hc <;> exact (Except.ok.inj hc).symm
  change called.close = .ok closed at hp
  obtain ⟨shut, sources⟩ := close_shuts hp
  exact ⟨rfl, shut, by rw [sources, same]⟩

/-- Where an object with one source to send stands after a write half. -/
inductive Wrote (io : FileDescriptorIo T) (id : SourceId) (call : Result Nat) : List Byte → Handled T → Prop
  | idle {notices} : Wrote io id call [] ⟨true, io, notices⟩
  | more {count notices} (short : count < (io.sources id).remaining.length) :
      Wrote io id call ((io.sources id).remaining.take count) ⟨true, io.advanced id count, notices⟩
  | closed {io' notices} (shut : io'.fd = -1) (spent : (io'.sources id).remaining = []) :
      Wrote io id call (io.sources id).remaining ⟨true, io', notices⟩
  | failed {io' notices errno} (refused : call = .error errno) (shut : io'.fd = -1)
      (same : io'.sources = io.sources) : Wrote io id call [] ⟨false, io', notices⟩

theorem onEventWrite_wrote (h : onEventWrite perform events b io = .ok handled)
    (queued : io.writeQueue = [⟨id, true⟩]) (written : b.onWritten = [.close]) (closed : b.onClose = []) :
    Wrote io id b.write (given io events b.write) handled := by
  unfold onEventWrite at h
  split at h
  next asked =>
    obtain ⟨half, hw, h⟩ := bind_ok h
    rw [given_asked asked hw]
    obtain ⟨front, rest, queued', _, ⟨errno, refused, same⟩ | ⟨_, count, bound, accepted, outcome⟩⟩ :=
      Endpoint.writeHalf_ok hw
    · rw [same] at h ⊢
      rw [closed] at h
      obtain ⟨stops, shut, sources⟩ := callbackAndClose_shuts h
      obtain ⟨goesOn, io', notices⟩ := handled
      cases stops
      exact .failed refused shut sources
    · cases queued.symm.trans queued'
      obtain ⟨short, more, same⟩ | ⟨whole, completed, popped⟩ := outcome
      · rw [more, same] at h
        cases h
        rw [accepted]
        exact .more short
      · rw [completed] at h
        obtain ⟨called, hc, h⟩ := bind_ok h
        cases h
        rw [written] at hc
        obtain ⟨after, hp, last⟩ := bind_ok hc
        cases last
        change half.io.close = .ok called at hp
        obtain ⟨shut, sources⟩ := close_shuts hp
        obtain ⟨_, _, same, _⟩ := popped
        rw [accepted, whole, List.take_length]
        refine .closed shut ?_
        rw [sources, same]
        exact (io.advanced_self id count).trans (List.drop_eq_nil_of_le (Nat.le_of_eq whole.symm))
  next unasked =>
    cases h
    rw [given_unasked unasked]
    exact .idle

/-- The last part of an event closes the object if the event is an error or a hang-up, and leaves it otherwise. -/
theorem andThen_last {next : Handled T} (goesOn : next.goesOn = true) (closed : b.onClose = [])
    (h : next.andThen (fun io =>
      if Meets (Error ||| Hup) events then callbackAndClose perform b.onClose b.socketError io
      else .ok { goesOn := true, io := io, notices := [] }) = .ok handled) :
    Meets (Error ||| Hup) events ∧ handled.io.fd = -1 ∧ handled.io.sources = next.io.sources ∨
      ¬Meets (Error ||| Hup) events ∧ handled.io = next.io := by
  unfold Handled.andThen at h
  rw [if_pos goesOn] at h
  obtain ⟨last, hl, h⟩ := bind_ok h
  cases h
  split at hl
  next broken =>
    rw [closed] at hl
    obtain ⟨_, shut, same⟩ := callbackAndClose_shuts hl
    exact Or.inl ⟨broken, shut, same⟩
  next whole =>
    cases hl
    exact Or.inr ⟨whole, rfl⟩

/-- What an event that is not for input makes of an object with one source to send. -/
structure Sends (io : FileDescriptorIo T) (id : SourceId) (events : Events) (call : Result Nat)
    (given : List Byte) (io' : FileDescriptorIo T) : Prop where
  whole : given ++ (io'.sources id).remaining = (io.sources id).remaining
  shut : io'.fd = -1 → (io'.sources id).remaining = [] ∨ Meets (Error ||| Hup) events ∨ ∃ errno, call = .error errno
  left : io'.fd ≠ -1 → io'.writeQueue = io.writeQueue ∧ io'.readSink = io.readSink ∧
    ((io'.sources id).remaining = [] → (io.sources id).remaining = [])

variable [SinkData T]

theorem onEvent_sends (h : onEvent io.fd events b io = .ok handled) (unasked : ¬Meets Read events)
    (valid : io.fd ≠ -1) (queued : io.writeQueue = [⟨id, true⟩]) (written : b.onWritten = [.close])
    (closed : b.onClose = []) : Sends io id events b.write (given io events b.write) handled.io := by
  obtain ⟨_, _, h⟩ := bind_ok h
  obtain ⟨first, hf, h⟩ := bind_ok h
  unfold onEventRead at hf
  rw [if_neg unasked] at hf
  cases hf
  obtain ⟨second, hs, h⟩ := bind_ok h
  obtain ⟨next, hw, hs⟩ := bind_ok hs
  cases hs
  have wrote : Wrote io id b.write (given io events b.write) next :=
    onEventWrite_wrote hw queued written closed
  generalize given io events b.write = bytes at wrote ⊢
  cases wrote with
  | idle =>
    obtain ⟨broken, shut, sources⟩ | ⟨_, kept⟩ := andThen_last rfl closed h
    · exact ⟨by rw [sources]; rfl, fun _ => Or.inr (Or.inl broken), fun open_ => absurd shut open_⟩
    · rw [kept]
      exact ⟨rfl, fun shut => absurd shut valid, fun _ => ⟨rfl, rfl, fun none => none⟩⟩
  | @more count notices short =>
    have left := io.advanced_self id count
    obtain ⟨broken, shut, sources⟩ | ⟨_, kept⟩ := andThen_last rfl closed h
    · refine ⟨?_, fun _ => Or.inr (Or.inl broken), fun open_ => absurd shut open_⟩
      rw [sources, left, List.take_append_drop]
    · rw [kept]
      refine ⟨?_, fun shut => absurd shut valid, fun _ => ⟨rfl, rfl, fun none => ?_⟩⟩
      · rw [left, List.take_append_drop]
      · rw [left, List.drop_eq_nil_iff] at none
        exact absurd short (Nat.not_lt.mpr none)
  | closed shut spent =>
    obtain ⟨broken, shut', sources⟩ | ⟨_, kept⟩ := andThen_last rfl closed h
    · refine ⟨?_, fun _ => Or.inr (Or.inl broken), fun open_ => absurd shut' open_⟩
      rw [sources, spent, List.append_nil]
    · rw [kept]
      refine ⟨?_, fun _ => Or.inl spent, fun open_ => absurd shut open_⟩
      rw [spent, List.append_nil]
  | failed refused shut sources =>
    unfold Handled.andThen at h
    rw [if_neg Bool.false_ne_true] at h
    cases h
    refine ⟨?_, fun _ => Or.inr (Or.inr ⟨_, refused⟩), fun open_ => absurd shut open_⟩
    rw [sources]
    rfl

end FileDescriptorIo

namespace Subprocess

open FileDescriptorIo (given onEvent_sends Sends)

/-- `run` with what the pipe of the child's standard input has taken. -/
structure Feeding where
  state : State
  fed : List Byte := []

/-- What a step writes to the child's standard input. -/
def State.gives (s : State) : Label → List Byte
  | .handle _ accepted _ =>
    match s.stage with
    | .handling .stdIn events => given (s.parent.linked .stdIn) events accepted
    | _ => []
  | _ => []

inductive FeedStep : Feeding → Label → Feeding → Prop
  | step {f : Feeding} {label t} (h : Step f.state label t) : FeedStep f label ⟨t, f.fed ++ f.state.gives label⟩

/-- The parent's end of the child's standard input. -/
def Feeding.input (f : Feeding) : FileDescriptorIo BufferData := f.state.parent.io .stdIn

/-- A child that keeps its standard input to the end, where it finds no writer any more, before it exits,
and a pipe that takes what it is given. -/
def Patient (f : Feeding) : Label → Prop
  | .close pipe => pipe ≠ .stdIn
  | .exit => f.input.fd = -1
  | .handle _ accepted _ => ∃ size, accepted = .ok size
  | _ => True

/-- The input is on its way to the child, or has got there. -/
structure Fed (input : Source) (f : Feeding) : Prop where
  whole : f.fed ++ (f.input.sources 0).remaining = input.remaining
  open_ : f.input.fd ≠ -1 → f.input.writeQueue = [⟨0, true⟩] ∧ f.input.readSink = none ∧
    ((f.input.sources 0).remaining = [] → input.remaining = [])
  shut : f.input.fd = -1 → (f.input.sources 0).remaining = []
  held : f.state.exited = false → f.state.held .stdIn = true
  exited : f.state.exited = true → f.input.fd = -1
  reported : ∀ events, f.state.stage = .handling .stdIn events →
    f.input.fd ≠ -1 ∧ ¬Meets Read events ∧ ¬Meets (Error ||| Hup) events

variable {input : Source} {f g : Feeding} {label : Label} {labels : List Label} {parent : Subprocess}

theorem open_keeps {io io' : FileDescriptorIo BufferData} {fd : Fd} {loop : EventLoop Handler}
    (alive : io.eventLoop = some loop) (shut : io.fd = -1)
    (h : FileDescriptorIo.perform (.open fd none 0) io = .ok io') :
    io'.fd ≠ -1 ∧ io'.writeQueue = io.writeQueue ∧ io'.readSink = io.readSink ∧ io'.sources = io.sources := by
  obtain ⟨⟨_, opened⟩, ho, h⟩ := bind_ok h
  obtain ⟨closed, hc, ho⟩ := bind_ok ho
  obtain ⟨⟨success, attached⟩, ha, ho⟩ := bind_ok ho
  cases ho
  cases h
  cases hc.symm.trans (Endpoint.close_shut shut)
  obtain ⟨_, gone, _⟩ | ⟨_, valid, _, _, _, _, _, rfl⟩ := Endpoint.attach_ok ha
  · cases alive.symm.trans gone
  · exact ⟨valid, rfl, rfl, rfl⟩

theorem launch_input {wake : Fd} {fds : Pipe → Fd} (h : (create wake input).launch fds = .ok parent) :
    (parent.io .stdIn).fd ≠ -1 ∧ (parent.io .stdIn).writeQueue = [⟨0, true⟩] ∧
      (parent.io .stdIn).readSink = none ∧ (parent.io .stdIn).sources 0 = input := by
  obtain ⟨p₁, h₁, h⟩ := bind_ok h
  obtain ⟨p₂, h₂, h⟩ := bind_ok h
  obtain ⟨p₃, h₃, h⟩ := bind_ok h
  obtain ⟨p₄, h₄, h⟩ := bind_ok h
  obtain ⟨p₅, h₅, h₆⟩ := bind_ok h
  obtain ⟨apart₁, same₁, _⟩ := on_open (create_apart wake input) rfl h₁
  obtain ⟨apart₂, same₂, _⟩ := on_open apart₁ (by rw [same₁ .stdOut nofun]; rfl) h₂
  obtain ⟨apart₃, same₃, _⟩ := on_open apart₂ (by rw [same₂ .stdErr nofun, same₁ .stdErr nofun]; rfl) h₃
  obtain ⟨apart₄, _⟩ := on_write apart₃ h₄
  obtain ⟨apart₅, same₅, _⟩ := on_read apart₄ h₅
  obtain ⟨_, same₆, _⟩ := on_read apart₅ h₆
  obtain ⟨io₁, opened, he₁⟩ := on_ok h₁
  obtain ⟨io₄, written, he₄⟩ := on_ok h₄
  obtain ⟨valid, queue, sink, sources⟩ := open_keeps rfl rfl opened
  obtain ⟨_, _, same, _⟩ := Endpoint.write_ok written
  have first : p₁.io .stdIn = io₁ := by rw [he₁, io_store_self]
  have before : p₃.io .stdIn = io₁ := by rw [same₃ .stdIn nofun, same₂ .stdIn nofun, first]
  have after : parent.io .stdIn = io₄ := by
    rw [same₆ .stdIn nofun, same₅ .stdIn nofun, he₄, io_store_self]
  rw [after, same, linked, before]
  refine ⟨valid, ?_, sink, ?_⟩
  · change io₁.writeQueue ++ [⟨0, true⟩] = _
    rw [queue]
    rfl
  · change io₁.sources 0 = _
    rw [sources]
    rfl

theorem launch_fed {wake : Fd} {fds : Pipe → Fd} (h : (create wake input).launch fds = .ok parent) :
    Fed input ⟨begin parent, []⟩ := by
  obtain ⟨valid, queue, sink, source⟩ := launch_input h
  refine ⟨?_, fun _ => ⟨queue, sink, ?_⟩, fun shut => absurd shut valid, fun _ => rfl, ?_, ?_⟩
  · exact congrArg Source.remaining source
  · intro none
    exact (congrArg Source.remaining source).symm.trans none
  · intro exited
    cases exited
  · intro events handling
    cases handling

/-- Steps that leave the parent's end of the input as it is. -/
theorem still_fed (h : Fed input f) (none : f.state.gives label = []) {t : State}
    (same : t.parent.io .stdIn = f.input)
    (held : t.exited = false → t.held .stdIn = true) (exited : t.exited = true → f.input.fd = -1)
    (reported : ∀ events, t.stage = .handling .stdIn events →
      f.input.fd ≠ -1 ∧ ¬Meets Read events ∧ ¬Meets (Error ||| Hup) events) :
    Fed input ⟨t, f.fed ++ f.state.gives label⟩ := by
  rw [none, List.append_nil]
  have now : (⟨t, f.fed⟩ : Feeding).input = f.input := same
  refine ⟨?_, ?_, ?_, held, ?_, ?_⟩
  all_goals rw [now]
  · exact h.whole
  · exact h.open_
  · exact h.shut
  · exact exited
  · exact reported

theorem handle_fed (h : Fed input f) {events : Events} {alloc : Bool} {size : Nat} {error : Errno}
    {handled : Handled BufferData} {count : Nat} (due : f.state.stage = .handling .stdIn events)
    (hh : FileDescriptorIo.onEvent (f.state.parent.linked .stdIn).fd events
      (behaviour f.state .stdIn alloc (.ok size) error) (f.state.parent.linked .stdIn) = .ok handled) :
    Fed input ⟨f.state.handled .stdIn count handled,
      f.fed ++ given (f.state.parent.linked .stdIn) events (.ok size)⟩ := by
  obtain ⟨valid, unasked, unbroken⟩ := h.reported events due
  obtain ⟨queue, sink, some⟩ := h.open_ valid
  have sends := onEvent_sends hh unasked valid queue rfl rfl
  have now : (⟨f.state.handled .stdIn count handled,
      f.fed ++ given (f.state.parent.linked .stdIn) events (.ok size)⟩ : Feeding).input = handled.io :=
    io_store_self
  refine ⟨?_, ?_, ?_, h.held, ?_, ?_⟩
  · rw [now, List.append_assoc]
    exact (congrArg (f.fed ++ ·) sends.whole).trans h.whole
  · rw [now]
    intro open_
    obtain ⟨queue', sink', spent⟩ := sends.left open_
    exact ⟨queue'.trans queue, sink'.trans sink, fun none => some (spent none)⟩
  · rw [now]
    intro shut
    obtain none | broken | ⟨errno, refused⟩ := sends.shut shut
    · exact none
    · exact absurd broken unbroken
    · cases refused
  · intro exited
    exact absurd (h.exited exited) valid
  · intro events' handling
    cases handling

theorem step_fed (apart : Apart f.state.parent) (h : Fed input f) (patient : Patient f label)
    (hs : FeedStep f label g) : Fed input g := by
  obtain ⟨hs⟩ := hs
  cases hs with
  | @write pipe bytes output held reader =>
    exact still_fed h rfl rfl h.held h.exited h.reported
  | @close pipe held =>
    refine still_fed h rfl rfl (fun running => ?_) h.exited h.reported
    exact (update_of_ne (Ne.symm patient) _ _).trans (h.held running)
  | exit running =>
    exact still_fed h rfl rfl (fun running => by cases running) (fun _ => patient)
      fun events handling => h.reported events handling
  | @report pipe events free truthful =>
    refine still_fed h rfl rfl h.held h.exited ?_
    intro events' handling
    cases handling
    obtain ⟨loop, interest, alive, watched, reads, _⟩ := truthful.watched
    have inStep := apart.inStep .stdIn
    have registered := inStep.registered inStep.armed truthful.valid loop alive
    cases watched.symm.trans registered
    refine ⟨truthful.valid, ?_, ?_⟩
    · intro asked
      exact inStep.read.mp (reads.mp asked).1 (h.open_ truthful.valid).2.1
    · intro broken
      have running : f.state.exited = false :=
        Bool.eq_false_iff.mpr fun exited => truthful.valid (h.exited exited)
      cases (h.held running).symm.trans (truthful.broken.mp broken)
  | @handle pipe events alloc accepted error handled due hh =>
    obtain ⟨size, rfl⟩ := patient
    by_cases own : pipe = .stdIn
    · subst own
      rw [State.gives, due]
      exact handle_fed h due hh
    · have none : f.state.gives (.handle alloc (.ok size) error) = [] := by
        rw [State.gives, due]
        cases pipe with
        | stdIn => exact absurd rfl own
        | stdOut | stdErr => rfl
      refine still_fed h none (io_store_other (Ne.symm own)) h.held h.exited ?_
      intro events' handling
      cases handling
  | wake free interrupted =>
    refine still_fed h rfl rfl h.held h.exited ?_
    intro events handling
    cases handling
  | wait joining exited =>
    refine still_fed h rfl rfl h.held h.exited ?_
    intro events handling
    cases handling

theorem run_fed {wake : Fd} {fds : Pipe → Fd} (launched : (create wake input).launch fds = .ok parent)
    (run : Run (Restrict Patient FeedStep) ⟨begin parent, []⟩ labels f) : Apart f.state.parent ∧ Fed input f := by
  induction run with
  | start => exact ⟨(launch_ready launched).1, launch_fed launched⟩
  | next _ hs ih =>
    obtain ⟨apart, fed⟩ := ih
    obtain ⟨patient, hs⟩ := hs
    have after := step_fed apart fed patient hs
    obtain ⟨hs⟩ := hs
    exact ⟨step_apart apart hs, after⟩

/-- The parent waits for the exit of a child that waits for the end of its input. -/
structure Stuck (f : Feeding) : Prop where
  waiting : f.state.stage = .waiting
  running : f.state.exited = false
  open_ : f.input.fd ≠ -1

theorem step_stuck (h : Stuck f) (patient : Patient f label) (hs : FeedStep f label g) : Stuck g := by
  obtain ⟨hs⟩ := hs
  cases hs with
  | write | close => exact ⟨h.waiting, h.running, h.open_⟩
  | exit => exact absurd patient h.open_
  | report free | wake free => cases h.waiting.symm.trans free
  | handle due => cases h.waiting.symm.trans due
  | wait _ exited => cases h.running.symm.trans exited

theorem run_one {t : State} (hs : Step f.state label t) (patient : Patient f label) :
    Run (Restrict Patient FeedStep) f [label] ⟨t, f.fed ++ f.state.gives label⟩ :=
  Run.start.next ⟨patient, .step hs⟩

/-- The child exits, if it has not yet, and `wait` returns. -/
theorem waiting_returns (waiting : f.state.stage = .waiting) (shut : f.input.fd = -1) :
    ∃ more g, Run (Restrict Patient FeedStep) f more g ∧ g.state.stage = .returned := by
  cases running : f.state.exited with
  | true => exact ⟨_, _, run_one (.wait waiting running) trivial, rfl⟩
  | false =>
    have exit := run_one (.exit running) shut
    exact ⟨_, _, exit.trans (run_one (.wait waiting rfl) trivial), rfl⟩

/-- A child that reads its input to the end before it exits is at any time given a beginning of the input,
and all of it just when the parent's end is closed. Once a pipe has ended and the loop is left, `run` can
return if and only if this is so; else parent and child wait for each other for ever. -/
theorem returns_iff_fed {wake : Fd} {fds : Pipe → Fd} (launched : (create wake input).launch fds = .ok parent)
    (run : Run (Restrict Patient FeedStep) ⟨begin parent, []⟩ labels f) :
    f.fed <+: input.remaining ∧
      (input.remaining ≠ [] → (f.input.fd = -1 ↔ f.fed = input.remaining)) ∧
      (f.state.stage = .waiting →
        ((∃ more g, Run (Restrict Patient FeedStep) f more g ∧ g.state.stage = .returned) ↔
          f.input.fd = -1)) := by
  obtain ⟨_, fed⟩ := run_fed launched run
  refine ⟨⟨_, fed.whole⟩, ?_, fun waiting => ⟨?_, waiting_returns waiting⟩⟩
  · intro some
    have whole := fed.whole
    constructor
    · intro shut
      rwa [fed.shut shut, List.append_nil] at whole
    · intro all
      by_contra open_
      rw [all, List.append_right_eq_self] at whole
      exact some ((fed.open_ open_).2.2 whole)
  · rintro ⟨more, g, rest, returned⟩
    by_contra open_
    have running : f.state.exited = false :=
      Bool.eq_false_iff.mpr fun exited => open_ (fed.exited exited)
    have stuck : Stuck g := by
      refine rest.invariant ⟨waiting, running, open_⟩ ?_
      intro s label t h hs
      exact step_stuck h hs.1 hs.2
    cases stuck.waiting.symm.trans returned

/-- A child that has closed its standard output and still waits for its input. -/
theorem returns_iff_fed_output : ∃ parent f, (create 4 ⟨[65#8], 0⟩).launch descriptors = .ok parent ∧
    Run (Restrict Patient FeedStep) ⟨begin parent, []⟩
      [.close .stdOut, .report .stdOut Hup, .handle true (.ok 0) 0, .wake] f ∧
    ¬∃ more g, Run (Restrict Patient FeedStep) f more g ∧ g.state.stage = .returned := by
  have output : Pipe.stdOut ≠ .stdIn := by decide
  have run : ∃ parent f, (create 4 ⟨[65#8], 0⟩).launch descriptors = .ok parent ∧
      Run (Restrict Patient FeedStep) ⟨begin parent, []⟩
        [.close .stdOut, .report .stdOut Hup, .handle true (.ok 0) 0, .wake] f ∧
      f.state.stage = .waiting ∧ f.input.fd ≠ -1 :=
    ⟨_, _, rfl, (((run_one (.close rfl) output).trans (run_one
      (.report rfl ⟨by decide, ⟨_, _, rfl, rfl, by decide, by decide⟩, by decide, by decide⟩) trivial)).trans
      (run_one (.handle rfl rfl) ⟨0, rfl⟩)).trans (run_one (.wake rfl rfl) trivial), rfl, by decide⟩
  obtain ⟨parent, f, launched, run, waiting, open_⟩ := run
  exact ⟨parent, f, launched, run, mt ((returns_iff_fed launched run).2.2 waiting).mp open_⟩

end Subprocess

end Hlib
