import Hlib.SubprocessPipes

namespace Hlib

open Function (update update_self update_of_ne)
open FlagMask (Meets)
open EventLoop (Read Write Error Hup)
open Transition (Run Restrict)

namespace Subprocess

variable {s t : State} {label : Label} {pipe : Pipe}

/-- `output()` and `error()` hold exactly what the child wrote. -/
def Complete (s : State) : Prop :=
  ∀ pipe, pipe ≠ .stdIn → s.parent.captured pipe = (s.written pipe).map some

def Over (s : State) : Prop := s.stage = .waiting ∨ s.stage = .returned

/-- There is something in a pipe that will not be read. -/
def Lost (s : State) (pipe : Pipe) : Prop :=
  s.unread pipe ≠ [] ∧ ((s.parent.io pipe).readSink = none ∨ Over s)

/-- The child writes to a pipe only before its first read and before the loop is interrupted, and the
loop is interrupted only with both pipes empty. -/
def Drains (s : State) : Label → Prop
  | .write pipe bytes => bytes = [] ∨ (s.parent.io pipe).readSink ≠ none ∧ ¬Over s
  | .wake => ∀ pipe, pipe ≠ .stdIn → s.unread pipe = []
  | _ => True

theorem not_over {stage : Stage} (h : s.stage = stage) (waiting : stage ≠ .waiting)
    (returned : stage ≠ .returned) : ¬Over s := by
  rintro (ended | ended)
  · exact waiting (h.symm.trans ended)
  · exact returned (h.symm.trans ended)

theorem step_lost (h : Lost s pipe) (hs : Step s label t) : Lost t pipe := by
  obtain ⟨some, reason⟩ := h
  cases hs with
  | @write other bytes output held reader =>
    refine ⟨?_, reason⟩
    dsimp only [State.wrote]
    by_cases own : pipe = other
    · subst own
      rw [update_self]
      exact List.append_ne_nil_of_left_ne_nil some _
    · rwa [update_of_ne own]
  | close | exit => exact ⟨some, reason⟩
  | report free truthful =>
    exact ⟨some, Or.inl (reason.resolve_right (not_over free nofun nofun))⟩
  | @handle other events alloc accepted error handled due hh =>
    have done := reason.resolve_right (not_over due nofun nofun)
    dsimp only [State.handled, Lost]
    by_cases own : pipe = other
    · subst own
      rw [io_store_self, update_self]
      obtain ⟨_, half, hr, _⟩ | ⟨unasked, quiet⟩ := handle_quiet hh
      · obtain ⟨id, pending, _⟩ := Endpoint.readHalf_ok hr
        cases done.symm.trans pending
      · rw [taken_unasked unasked, List.drop_zero]
        refine ⟨some, Or.inl ?_⟩
        rcases quiet.sink with same | none
        · exact same.trans done
        · exact none
    · rw [io_store_other own, update_of_ne own]
      exact ⟨some, Or.inl done⟩
  | wake free interrupted => exact ⟨some, Or.inr (Or.inl rfl)⟩
  | wait joining exited => exact ⟨some, Or.inr (Or.inr rfl)⟩

theorem lost_of_not_drains (undrained : ¬Drains s label) (hs : Step s label t) :
    ∃ pipe, pipe ≠ .stdIn ∧ Lost t pipe := by
  cases hs with
  | @write pipe bytes output held reader =>
    obtain ⟨some, unread⟩ := not_or.mp undrained
    refine ⟨pipe, output, ?_, ?_⟩
    · dsimp only [State.wrote]
      rw [update_self]
      exact List.append_ne_nil_of_right_ne_nil _ some
    · rcases not_and_or.mp unread with done | ended
      · exact Or.inl (not_not.mp done)
      · exact Or.inr (not_not.mp ended)
  | wake free interrupted =>
    obtain ⟨pipe, h⟩ := not_forall.mp undrained
    obtain ⟨output, some⟩ := Classical.not_imp.mp h
    exact ⟨pipe, output, some, Or.inr (Or.inl rfl)⟩
  | close | exit | report | handle | wait => exact absurd trivial undrained

theorem handle_keeps {events : Events} {alloc : Bool} {accepted : Result Nat} {error : Errno}
    {handled : Handled BufferData} (piped : Piped s pipe) (h : ¬Lost s pipe)
    (due : s.stage = .handling pipe events)
    (hh : FileDescriptorIo.onEvent (s.parent.linked pipe).fd events
      (behaviour s pipe alloc accepted error) (s.parent.linked pipe) = .ok handled) :
    ¬Lost (s.handled pipe (taken (s.parent.linked pipe) events
      (behaviour s pipe alloc accepted error).read) handled) pipe := by
  dsimp only [State.handled, Lost]
  rw [io_store_self, update_self]
  rintro ⟨some, reason⟩
  have done := reason.resolve_right (not_over rfl nofun nofun)
  by_cases asked : Meets Read events
  · exact some (handle_drains piped due asked hh).2.2.2.2
  · rw [taken_unasked asked, List.drop_zero] at some
    by_cases broken : Meets (Error ||| Hup) events
    · by_cases pending : (s.parent.io pipe).readSink = none
      · exact h ⟨some, Or.inl pending⟩
      · exact some ((piped.reported events due).2 asked broken pending).1
    · rw [FileDescriptorIo.onEvent_idle hh piped.queue asked broken] at done
      exact h ⟨some, Or.inl done⟩

theorem step_keeps (output : pipe ≠ .stdIn) (piped : Piped s pipe) (h : ¬Lost s pipe)
    (drains : Drains s label) (hs : Step s label t) : ¬Lost t pipe := by
  cases hs with
  | @write other bytes _ held reader =>
    rintro ⟨some, reason⟩
    dsimp only [State.wrote] at some
    by_cases own : pipe = other
    · subst own
      rw [update_self] at some
      rcases drains with rfl | ⟨pending, dispatching⟩
      · rw [List.append_nil] at some
        exact h ⟨some, reason⟩
      · exact reason.elim pending dispatching
    · rw [update_of_ne own] at some
      exact h ⟨some, reason⟩
  | close | exit => exact h
  | report free truthful =>
    rintro ⟨some, reason⟩
    exact h ⟨some, Or.inl (reason.resolve_right (not_over rfl nofun nofun))⟩
  | @handle other events alloc accepted error handled due hh =>
    by_cases own : pipe = other
    · subst own
      exact handle_keeps piped h due hh
    · dsimp only [State.handled, Lost]
      rw [io_store_other own, update_of_ne own]
      rintro ⟨some, reason⟩
      exact h ⟨some, Or.inl (reason.resolve_right (not_over rfl nofun nofun))⟩
  | wake free interrupted => exact fun lost => lost.1 (drains pipe output)
  | wait joining exited => exact fun lost => h ⟨lost.1, Or.inr (Or.inl joining)⟩

theorem complete_iff (piped : ∀ pipe, pipe ≠ .stdIn → Piped s pipe) (returned : s.stage = .returned) :
    Complete s ↔ ¬∃ pipe, pipe ≠ .stdIn ∧ Lost s pipe := by
  constructor
  · rintro complete ⟨pipe, output, some, _⟩
    have balance := (piped pipe output).balance
    rw [complete pipe output, List.append_right_eq_self, List.map_eq_nil_iff] at balance
    exact some balance
  · intro kept pipe output
    have empty : s.unread pipe = [] := by
      by_contra some
      exact kept ⟨pipe, output, some, Or.inr (Or.inr returned)⟩
    rw [← (piped pipe output).balance, empty, List.map_nil, List.append_nil]

/-- A run that returns has captured all output just when every step of it drains. -/
theorem output_complete_iff {wake : Fd} {input : Source} {fds : Pipe → Fd} {parent : Subprocess}
    {labels : List Label} (launched : (create wake input).launch fds = .ok parent)
    (run : Run Step (begin parent) labels s) (returned : s.stage = .returned) :
    Complete s ↔ Run (Restrict Drains Step) (begin parent) labels s := by
  obtain ⟨apart, out, err⟩ := launch_ready launched
  have first : ∀ pipe, pipe ≠ .stdIn → Piped (begin parent) pipe := by
    intro pipe output
    cases pipe with
    | stdIn => exact absurd rfl output
    | stdOut => exact begin_piped out
    | stdErr => exact begin_piped err
  have sound : Apart s.parent ∧ ∀ pipe, pipe ≠ .stdIn → Piped s pipe := by
    apply run.invariant
    · exact ⟨apart, first⟩
    · rintro s label t ⟨apart, piped⟩ hs
      exact ⟨step_apart apart hs, fun pipe output => step_piped apart (piped pipe output) hs⟩
  rw [complete_iff sound.2 returned]
  constructor
  · intro kept
    refine (run.restrict_or lost_of_not_drains ?_).resolve_right kept
    rintro s label t ⟨pipe, output, lost⟩ hs
    exact ⟨pipe, output, step_lost lost hs⟩
  · rintro drained ⟨pipe, output, lost⟩
    have kept : Apart s.parent ∧ Piped s pipe ∧ ¬Lost s pipe := by
      apply drained.invariant
      · exact ⟨apart, first pipe output, fun lost => lost.1 rfl⟩
      · rintro s label t ⟨apart, piped, kept⟩ ⟨drains, hs⟩
        exact ⟨step_apart apart hs, step_piped apart piped hs,
          step_keeps output piped kept drains hs⟩
    exact kept.2.2 lost

def descriptors : Pipe → Fd
  | .stdIn => 5
  | .stdOut => 6
  | .stdErr => 7

def oneLine : List Label :=
  [.write .stdOut [65#8], .exit, .report .stdOut (Read ||| Hup), .handle true (.ok 0) 0, .wake, .wait]

theorem one_line_returns :
    ∃ parent s, (create 4 ⟨[], 0⟩).launch descriptors = .ok parent ∧
      Run Step (begin parent) oneLine s ∧ s.stage = .returned ∧
      s.parent.captured .stdOut = [some 65#8] :=
  ⟨_, _, rfl, (((((Run.start.next (.write (by decide) rfl (by decide))).next (.exit rfl)).next
    (.report rfl ⟨by decide, ⟨_, _, rfl, rfl, by decide, by decide⟩, by decide, by decide⟩)).next
    (.handle rfl rfl)).next (.wake rfl rfl)).next (.wait rfl rfl), rfl, rfl⟩

theorem output_complete_iff_line :
    ∃ parent s, (create 4 ⟨[], 0⟩).launch descriptors = .ok parent ∧
      s.parent.captured .stdOut = [some 65#8] ∧
      (Complete s ↔ Run (Restrict Drains Step) (begin parent) oneLine s) := by
  obtain ⟨parent, s, launched, run, returned, captured⟩ := one_line_returns
  exact ⟨parent, s, launched, captured, output_complete_iff launched run returned⟩

/-- Every run that returns has captured all output. -/
def CapturesAll : Prop :=
  ∀ wake input fds parent labels s, (create wake input).launch fds = .ok parent →
    Run Step (begin parent) labels s → s.stage = .returned → Complete s

/-- Standard input is closed, the child writes a line, which is read, and another one, which is
not. -/
theorem second_line_lost : ¬CapturesAll := by
  intro captures
  have complete := captures 4 ⟨[], 0⟩ descriptors _ [.report .stdIn Write, .handle true (.ok 0) 0,
    .write .stdOut [65#8], .report .stdOut Read, .handle true (.ok 0) 0, .write .stdOut [66#8],
    .exit, .report .stdErr Hup, .handle true (.ok 0) 0, .wake, .wait] _ rfl
    (((((((((((Run.start.next
      (.report rfl ⟨by decide, ⟨_, _, rfl, rfl, by decide, by decide⟩, by decide, by decide⟩)).next
      (.handle rfl rfl)).next (.write (by decide) rfl (by decide))).next
      (.report rfl ⟨by decide, ⟨_, _, rfl, rfl, by decide, by decide⟩, by decide, by decide⟩)).next
      (.handle rfl rfl)).next (.write (by decide) rfl (by decide))).next (.exit rfl)).next
      (.report rfl ⟨by decide, ⟨_, _, rfl, rfl, by decide, by decide⟩, by decide, by decide⟩)).next
      (.handle rfl rfl)).next (.wake rfl rfl)).next (.wait rfl rfl)) rfl .stdOut (by decide)
  cases complete

end Subprocess

end Hlib
