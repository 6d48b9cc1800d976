import Hlib.FileDescriptorIoEvent
import Hlib.Subprocess

namespace Hlib

open Function (update update_self update_of_ne)
open FlagMask (Meets)
open EventLoop (Read Write Error Hup)
open FileDescriptorIo (Framed Quiet)

namespace Subprocess

variable {p p' : Subprocess} {pipe other : Pipe} {io : FileDescriptorIo BufferData}

/-- Three objects on one live loop, each in step with it, on descriptors of their own. -/
structure Apart (p : Subprocess) : Prop where
  alive : ∃ loop, p.eventLoop = some loop
  inStep : ∀ pipe, (p.linked pipe).InStep
  apart : ∀ {pipe other}, pipe ≠ other → (p.io pipe).fd ≠ -1 → (p.io pipe).fd ≠ (p.io other).fd

theorem io_store_self : (p.store pipe io).io pipe = io := update_self _ _ _

theorem linked_store_self : (p.store pipe io).linked pipe = io := by
  rw [linked, io_store_self]
  rfl

theorem io_store_other (h : other ≠ pipe) : (p.store pipe io).io other = p.io other :=
  update_of_ne h _ _

theorem store_inStep_other (h : Apart p) (ne : other ≠ pipe) {loop loop' : EventLoop Handler}
    (before : p.eventLoop = some loop) (after : io.eventLoop = some loop')
    (same : (p.io other).fd ≠ -1 →
      loop'.interest (p.io other).fd = loop.interest (p.io other).fd) :
    ((p.store pipe io).linked other).InStep := by
  obtain ⟨armed, read, write, registered⟩ := h.inStep other
  have unmoved : (p.store pipe io).linked other = { p.io other with eventLoop := io.eventLoop } := by
    rw [linked, io_store_other ne]
    rfl
  rw [unmoved]
  refine ⟨armed, read, write, ?_⟩
  intro _ valid loop'' alive
  cases Option.some.inj (after.symm.trans alive)
  exact (same valid).trans (registered armed valid loop before)

theorem store_apart (h : Apart p) (framed : Framed (p.linked pipe) io) :
    Apart (p.store pipe io) := by
  obtain ⟨loop, alive⟩ := h.alive
  obtain ⟨loop', alive', same⟩ := framed.loop alive
  refine ⟨⟨loop', alive'⟩, ?_, ?_⟩
  · intro other
    by_cases own : other = pipe
    · subst own
      rw [linked_store_self]
      exact framed.inStep (h.inStep other)
    · refine store_inStep_other h own alive alive' ?_
      intro valid
      exact same _ valid (h.apart own valid)
  · intro one two ne valid
    by_cases first : one = pipe
    · subst first
      rw [io_store_self] at valid ⊢
      rw [io_store_other (Ne.symm ne), framed.fd.resolve_right valid]
      refine h.apart ne ?_
      intro shut
      exact valid ((framed.fd.resolve_right valid).trans shut)
    · rw [io_store_other first] at valid ⊢
      by_cases second : two = pipe
      · subst second
        rw [io_store_self]
        rcases framed.fd with kept | shut
        · rw [kept]
          exact h.apart ne valid
        · rwa [shut]
      · rw [io_store_other second]
        exact h.apart ne valid

theorem open_apart (h : Apart p) (shut : (p.io pipe).fd = -1) {fd : Fd} {events : Events}
    {loop : EventLoop Handler} (alive : p.eventLoop = some loop) (valid : fd ≠ -1)
    (unwatched : loop.interest fd = none)
    (inStep : ((p.linked pipe).attached loop fd events .onEvent).InStep) :
    Apart (p.store pipe ((p.linked pipe).attached loop fd events .onEvent)) := by
  have fresh : ∀ {other}, (p.io other).fd ≠ -1 → (p.io other).fd ≠ fd := by
    intro other valid same
    obtain ⟨armed, _, _, registered⟩ := h.inStep other
    have watched := registered armed valid loop alive
    rw [show (p.linked other).fd = fd from same, unwatched] at watched
    cases watched
  refine ⟨⟨_, rfl⟩, ?_, ?_⟩
  · intro other
    by_cases own : other = pipe
    · subst own
      rw [linked_store_self]
      exact inStep
    · refine store_inStep_other h own alive rfl ?_
      intro valid
      exact update_of_ne (fresh valid) _ _
  · intro one two ne valid'
    by_cases first : one = pipe
    · subst first
      rw [io_store_self, io_store_other (Ne.symm ne)]
      change fd ≠ _
      by_cases shut' : (p.io two).fd = -1
      · rwa [shut']
      · exact (fresh shut').symm
    · rw [io_store_other first] at valid' ⊢
      by_cases second : two = pipe
      · subst second
        rw [io_store_self]
        exact fresh valid'
      · rw [io_store_other second]
        exact h.apart ne valid'

theorem create_apart (wake : Fd) (input : Source) : Apart (create wake input) := by
  refine ⟨⟨_, rfl⟩, ?_, fun _ valid => absurd rfl valid⟩
  intro pipe
  refine ⟨rfl, ?_, ?_, fun _ valid => absurd rfl valid⟩
  · exact iff_of_false EventLoop.read_zero nofun
  · exact iff_of_false EventLoop.write_zero (not_not.mpr rfl)

/-- An object that nothing was written to and nothing was read from, whose sink, if any, is the
dynamic one. -/
structure Untouched (io : FileDescriptorIo BufferData) : Prop where
  queue : io.writeQueue = []
  sink : (io.sinks 0).contents = []
  maximum : (io.sinks 0).maximum = 0
  pending : ∀ id, io.readSink = some id → id = 0

theorem create_untouched (wake : Fd) (input : Source) (pipe : Pipe) :
    Untouched ((create wake input).io pipe) :=
  ⟨rfl, rfl, rfl, nofun⟩

theorem on_ok {call : FileDescriptorIo BufferData → Checked (FileDescriptorIo BufferData)}
    (h : p.on pipe call = .ok p') : ∃ io, call (p.linked pipe) = .ok io ∧ p' = p.store pipe io := by
  obtain ⟨io, hc, h⟩ := bind_ok h
  exact ⟨io, hc, (Except.ok.inj h).symm⟩

theorem on_open {fd : Fd} (h : Apart p) (shut : (p.io pipe).fd = -1)
    (ho : p.on pipe (FileDescriptorIo.perform (.open fd none 0)) = .ok p') :
    Apart p' ∧ (∀ other, other ≠ pipe → p'.io other = p.io other) ∧
      (Untouched (p.io pipe) → Untouched (p'.io pipe)) := by
  obtain ⟨io, hp, rfl⟩ := on_ok ho
  obtain ⟨⟨_, opened⟩, ho, hp⟩ := bind_ok hp
  obtain ⟨closed, hc, ho⟩ := bind_ok ho
  obtain ⟨⟨success, attached⟩, ha, ho⟩ := bind_ok ho
  cases Except.ok.inj ho
  cases Except.ok.inj hp
  cases Except.ok.inj (hc.symm.trans (Endpoint.close_shut shut))
  have inStep := FileDescriptorIo.attach_inStep (h.inStep pipe) ha
  obtain ⟨loop, alive⟩ := h.alive
  obtain ⟨_, gone, _⟩ | ⟨_, valid, _, loop', alive', _, unwatched, rfl⟩ := Endpoint.attach_ok ha
  · cases alive.symm.trans gone
  · refine ⟨open_apart h shut alive' valid unwatched inStep, fun _ => io_store_other, ?_⟩
    intro untouched
    rw [io_store_self]
    exact ⟨untouched.queue, untouched.sink, untouched.maximum, untouched.pending⟩

theorem on_write {source : SourceId} {callback : Bool} (h : Apart p)
    (hw : p.on pipe (FileDescriptorIo.perform (.write source callback)) = .ok p') :
    Apart p' ∧ ∀ other, other ≠ pipe → p'.io other = p.io other := by
  obtain ⟨io, hp, rfl⟩ := on_ok hw
  exact ⟨store_apart h (FileDescriptorIo.write_framed hp), fun _ => io_store_other⟩

theorem on_read {callback : Bool} (h : Apart p)
    (hr : p.on pipe (FileDescriptorIo.perform (.read (some 0) callback)) = .ok p') :
    Apart p' ∧ (∀ other, other ≠ pipe → p'.io other = p.io other) ∧
      (Untouched (p.io pipe) → Untouched (p'.io pipe)) := by
  obtain ⟨io, hp, rfl⟩ := on_ok hr
  refine ⟨store_apart h (FileDescriptorIo.read_framed hp), fun _ => io_store_other, ?_⟩
  intro untouched
  obtain ⟨_, _, rfl, _⟩ := Endpoint.read_ok hp
  rw [io_store_self]
  exact ⟨untouched.queue, untouched.sink, untouched.maximum, fun _ same => (Option.some.inj same).symm⟩

/-- After `launch` the objects are apart, and the two for output are as they were made. -/
theorem launch_ready {wake : Fd} {input : Source} {fds : Pipe → Fd}
    (h : (create wake input).launch fds = .ok p) :
    Apart p ∧ Untouched (p.io .stdOut) ∧ Untouched (p.io .stdErr) := by
  have out := create_untouched wake input .stdOut
  have err := create_untouched wake input .stdErr
  obtain ⟨p₁, h₁, h⟩ := bind_ok h
  obtain ⟨apart₁, same₁, _⟩ := on_open (create_apart wake input) rfl h₁
  rw [← same₁ .stdOut nofun] at out
  rw [← same₁ .stdErr nofun] at err
  obtain ⟨p₂, h₂, h⟩ := bind_ok h
  have shut₁ : (p₁.io .stdOut).fd = -1 := by rw [same₁ .stdOut nofun]; rfl
  obtain ⟨apart₂, same₂, out₂⟩ := on_open apart₁ shut₁ h₂
  rw [← same₂ .stdErr nofun] at err
  obtain ⟨p₃, h₃, h⟩ := bind_ok h
  have shut₂ : (p₂.io .stdErr).fd = -1 := by rw [same₂ .stdErr nofun, same₁ .stdErr nofun]; rfl
  obtain ⟨apart₃, same₃, err₃⟩ := on_open apart₂ shut₂ h₃
  replace out := out₂ out
  rw [← same₃ .stdOut nofun] at out
  replace err := err₃ err
  obtain ⟨p₄, h₄, h⟩ := bind_ok h
  obtain ⟨apart₄, same₄⟩ := on_write apart₃ h₄
  rw [← same₄ .stdOut nofun] at out
  rw [← same₄ .stdErr nofun] at err
  obtain ⟨p₅, h₅, h⟩ := bind_ok h
  obtain ⟨apart₅, same₅, out₅⟩ := on_read apart₄ h₅
  rw [← same₅ .stdErr nofun] at err
  obtain ⟨apart₆, same₆, err₆⟩ := on_read apart₅ h
  replace out := out₅ out
  rw [← same₆ .stdOut nofun] at out
  exact ⟨apart₆, out, err₆ err⟩

/-- Where an output pipe stands: what was read and what was not make up what was written, and
nothing was read as long as the sink is pending. -/
structure Piped (s : State) (pipe : Pipe) : Prop where
  queue : (s.parent.io pipe).writeQueue = []
  balance : s.parent.captured pipe ++ (s.unread pipe).map some = (s.written pipe).map some
  pending : ∀ id, (s.parent.io pipe).readSink = some id →
    id = 0 ∧ s.parent.captured pipe = [] ∧ ((s.parent.io pipe).sinks 0).maximum = 0
  reported : ∀ events, s.stage = .handling pipe events →
    (Meets Read events → s.unread pipe ≠ []) ∧
    (¬Meets Read events → Meets (Error ||| Hup) events → (s.parent.io pipe).readSink ≠ none →
      s.unread pipe = [] ∧ s.held pipe = false)

theorem begin_piped (untouched : Untouched (p.io pipe)) : Piped (begin p) pipe := by
  refine ⟨untouched.queue, ?_, ?_, nofun⟩
  · change p.captured pipe ++ [] = []
    rw [List.append_nil]
    exact untouched.sink
  · exact fun id pending => ⟨untouched.pending id pending, untouched.sink, untouched.maximum⟩

section Handle

variable {s : State} {events : Events} {alloc : Bool} {accepted : Result Nat} {error : Errno}
  {handled : Handled BufferData}

theorem handle_quiet (h : FileDescriptorIo.onEvent (s.parent.linked pipe).fd events
      (behaviour s pipe alloc accepted error) (s.parent.linked pipe) = .ok handled) :
    Meets Read events ∧
        (∃ half, (s.parent.linked pipe).readHalf (behaviour s pipe alloc accepted error).read =
          .ok half ∧ Quiet half.io handled.io) ∨
      ¬Meets Read events ∧ Quiet (s.parent.linked pipe) handled.io := by
  refine FileDescriptorIo.onEvent_quiet nofun ?_ nofun h
  intro call hm
  exact List.mem_singleton.mp hm

theorem handle_framed (h : FileDescriptorIo.onEvent (s.parent.linked pipe).fd events
      (behaviour s pipe alloc accepted error) (s.parent.linked pipe) = .ok handled) :
    Framed (s.parent.linked pipe) handled.io := by
  obtain ⟨_, half, hr, quiet⟩ | ⟨_, quiet⟩ := handle_quiet h
  · exact (FileDescriptorIo.readHalf_framed hr).trans quiet.toFramed
  · exact quiet.toFramed

/-- A read event empties its pipe into the pending sink, and the object is done with reading. -/
theorem handle_drains (piped : Piped s pipe) (due : s.stage = .handling pipe events)
    (asked : Meets Read events) (h : FileDescriptorIo.onEvent (s.parent.linked pipe).fd events
      (behaviour s pipe alloc accepted error) (s.parent.linked pipe) = .ok handled) :
    s.parent.captured pipe = [] ∧ (handled.io.sinks 0).contents = (s.unread pipe).map some ∧
      handled.io.readSink = none ∧ handled.io.writeQueue = [] ∧
      (s.unread pipe).drop (taken (s.parent.linked pipe) events
        (behaviour s pipe alloc accepted error).read) = [] := by
  obtain ⟨_, half, hr, quiet⟩ | ⟨unasked, _⟩ := handle_quiet h
  · obtain ⟨id, pending, _⟩ := Endpoint.readHalf_ok hr
    obtain ⟨rfl, empty, dynamic⟩ := piped.pending id pending
    obtain ⟨returned, contents, done, queue⟩ := FileDescriptorIo.readHalf_drains pending empty
      dynamic ((piped.reported events due).1 asked) hr
    refine ⟨empty, ?_, ?_, quiet.queue (queue.trans piped.queue), ?_⟩
    · rw [quiet.sinks]
      exact contents
    · rcases quiet.sink with same | none
      · exact same.trans done
      · exact none
    · rw [taken, if_pos asked, hr]
      dsimp only
      rw [returned, List.drop_length]
  · exact absurd asked unasked

theorem taken_unasked (unasked : ¬Meets Read events) (io : FileDescriptorIo BufferData)
    (call : ReadCall) : taken io events call = 0 := if_neg unasked

end Handle

theorem step_apart {s t : State} {label : Label} (h : Apart s.parent) (hs : Step s label t) :
    Apart t.parent := by
  cases hs with
  | handle _ hh => exact store_apart h (handle_framed hh)
  | write | close | exit | report | wake | wait => exact h

section Piped

variable {s : State}

theorem wrote_piped {bytes : List Byte} (h : Piped s pipe) (held : s.held pipe = true) :
    Piped (s.wrote pipe bytes) pipe := by
  refine ⟨h.queue, ?_, h.pending, ?_⟩
  · dsimp only [State.wrote]
    rw [update_self, update_self, List.map_append, List.map_append, ← List.append_assoc, h.balance]
  · intro events due
    dsimp only [State.wrote]
    rw [update_self]
    refine ⟨fun asked => List.append_ne_nil_of_left_ne_nil ((h.reported events due).1 asked) _, ?_⟩
    intro unasked broken pending
    cases held.symm.trans ((h.reported events due).2 unasked broken pending).2

theorem wrote_piped_other {bytes : List Byte} (h : Piped s pipe) (ne : pipe ≠ other) :
    Piped (s.wrote other bytes) pipe := by
  refine ⟨h.queue, ?_, h.pending, ?_⟩
  · dsimp only [State.wrote]
    rw [update_of_ne ne, update_of_ne ne]
    exact h.balance
  · dsimp only [State.wrote]
    rw [update_of_ne ne]
    exact h.reported

/-- The child may only let go of a pipe, and then writes nothing more. -/
theorem released_piped {held : Pipe → Bool} {exited : Bool} (h : Piped s pipe)
    (fewer : s.held pipe = false → held pipe = false) :
    Piped { s with held := held, exited := exited } pipe := by
  refine ⟨h.queue, h.balance, h.pending, ?_⟩
  intro events due
  refine ⟨(h.reported events due).1, ?_⟩
  intro unasked broken pending
  obtain ⟨empty, shut⟩ := (h.reported events due).2 unasked broken pending
  exact ⟨empty, fewer shut⟩

/-- An event of a pending pipe that is not for input comes without data. -/
theorem reported_piped {events : Events} (apart : Apart s.parent) (h : Piped s pipe)
    (truthful : Truthful s other events) :
    Piped { s with stage := .handling other events } pipe := by
  refine ⟨h.queue, h.balance, h.pending, ?_⟩
  intro events due
  cases due
  obtain ⟨loop, interest, alive, watched, reads, _⟩ := truthful.watched
  refine ⟨fun asked => (reads.mp asked).2, ?_⟩
  intro unasked broken pending
  refine ⟨?_, truthful.broken.mp broken⟩
  have inStep := apart.inStep pipe
  have registered := inStep.registered inStep.armed truthful.valid loop alive
  cases Option.some.inj (watched.symm.trans registered)
  by_contra some
  exact unasked (reads.mpr ⟨inStep.read.mpr pending, some⟩)

theorem handled_piped {events : Events} {alloc : Bool} {accepted : Result Nat} {error : Errno}
    {handled : Handled BufferData} (h : Piped s pipe) (due : s.stage = .handling pipe events)
    (hh : FileDescriptorIo.onEvent (s.parent.linked pipe).fd events
      (behaviour s pipe alloc accepted error) (s.parent.linked pipe) = .ok handled) :
    Piped (s.handled pipe (taken (s.parent.linked pipe) events
      (behaviour s pipe alloc accepted error).read) handled) pipe := by
  by_cases asked : Meets Read events
  · obtain ⟨empty, contents, done, queue, rest⟩ := handle_drains h due asked hh
    refine ⟨?_, ?_, ?_, nofun⟩ <;> dsimp only [State.handled]
    · rw [io_store_self]
      exact queue
    · rw [captured, io_store_self, contents, update_self, rest, List.map_nil, List.append_nil,
        ← h.balance, empty, List.nil_append]
    · rw [io_store_self, done]
      exact nofun
  · obtain ⟨asked', _⟩ | ⟨_, quiet⟩ := handle_quiet hh
    · exact absurd asked' asked
    · refine ⟨?_, ?_, ?_, nofun⟩ <;> dsimp only [State.handled]
      · rw [io_store_self]
        exact quiet.queue h.queue
      · rw [captured, io_store_self, quiet.sinks, update_self, taken_unasked asked, List.drop_zero]
        exact h.balance
      · rw [captured, io_store_self, quiet.sinks]
        intro id pending
        rcases quiet.sink with same | none
        · exact h.pending id (same ▸ pending)
        · cases pending.symm.trans none

theorem handled_piped_other {count : Nat} {handled : Handled BufferData} (h : Piped s pipe)
    (ne : pipe ≠ other) : Piped (s.handled other count handled) pipe := by
  refine ⟨?_, ?_, ?_, nofun⟩ <;> dsimp only [State.handled]
  · rw [io_store_other ne]
    exact h.queue
  · rw [captured, io_store_other ne, update_of_ne ne]
    exact h.balance
  · rw [captured, io_store_other ne]
    exact h.pending

end Piped

theorem step_piped {s t : State} {label : Label} (apart : Apart s.parent) (h : Piped s pipe)
    (hs : Step s label t) : Piped t pipe := by
  cases hs with
  | @write other bytes output held reader =>
    by_cases own : pipe = other
    · subst own
      exact wrote_piped h held
    · exact wrote_piped_other h own
  | @close other held =>
    refine released_piped h ?_
    intro shut
    by_cases own : pipe = other
    · subst own
      exact update_self _ _ _
    · exact (update_of_ne own _ _).trans shut
  | exit running => exact released_piped h fun _ => rfl
  | report free truthful => exact reported_piped apart h truthful
  | @handle other events alloc accepted error handled due hh =>
    by_cases own : pipe = other
    · subst own
      exact handled_piped h due hh
    · exact handled_piped_other h own
  | wake => exact ⟨h.queue, h.balance, h.pending, nofun⟩
  | wait => exact ⟨h.queue, h.balance, h.pending, nofun⟩

end Subprocess

end Hlib
