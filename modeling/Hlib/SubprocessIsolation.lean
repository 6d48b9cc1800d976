import Hlib.SubprocessDescriptors

namespace Hlib

open DescriptorTable (Holds exec)
open Transition (Run along_iff)

namespace Subprocess

/-- A process that runs others: its descriptors, the processes that there are of its children, each
with the number of the `run` that it stems from, and how many there have been. -/
structure Processes where
  parent : Descriptors
  descendants : List (Nat × Descriptors)
  runs : Nat

inductive Move
  | run (system : System) (settings : CloseFds)
  /-- The parent does something else with its descriptors. -/
  | parent
  /-- Its children do: they open, duplicate and close descriptors, fork, execute programs and exit. -/
  | descendants

/-- No end of a pipe is held that was not held before: none is got from another process. -/
def Passes (before after : Descriptors) : Prop :=
  ∀ child pipe writer, Holds after (.pipeEnd child pipe writer) → Holds before (.pipeEnd child pipe writer)

inductive Moves : Processes → Move → Processes → Prop
  | forked {s : Processes} {system settings forked parent program}
      (h : runDescriptors system settings s.runs s.parent = .ok (.ok forked, parent))
      (child : forked.child = .ok program) :
      Moves s (.run system settings) ⟨parent, (s.runs, program) :: s.descendants, s.runs + 1⟩
  | failed {s : Processes} {system settings errno parent}
      (h : runDescriptors system settings s.runs s.parent = .ok (.error errno, parent)) :
      Moves s (.run system settings) { s with parent }
  | parent {s : Processes} {parent} (passes : Passes s.parent parent)
      (used : ∀ pipe, parent (standard pipe) ≠ none) : Moves s .parent { s with parent }
  | descendants {s : Processes} {descendants}
      (passes : ∀ n after, (n, after) ∈ descendants → ∀ child pipe writer,
        Holds after (.pipeEnd child pipe writer) →
          ∃ before, (n, before) ∈ s.descendants ∧ Holds before (.pipeEnd child pipe writer)) :
      Moves s .descendants { s with descendants }

/-- What the processes of a child hold of pipes are ends that their `run` made for the child. -/
def Isolated (s : Processes) : Prop :=
  ∀ n program, (n, program) ∈ s.descendants → ∀ child pipe writer,
    Holds program (.pipeEnd child pipe writer) → child = n ∧ writer = childWrites pipe

/-- A `run` that succeeds closes in the child all ends of earlier pipes which its parent has. -/
def Seals (s : Processes) : Move → Prop
  | .run system settings => system.fork = none → ∀ fd descriptor, s.parent fd = some descriptor →
      (∃ child pipe, descriptor.file = parentEnd child pipe) → (∀ pipe, fd ≠ standard pipe) →
      descriptor.cloexec = true ∨ settings.Closes system.maxFd fd
  | _ => True

/-- The parent holds ends that were made for it, and its standard descriptors are in use. -/
structure Parental (s : Processes) : Prop where
  used : ∀ pipe, s.parent (standard pipe) ≠ none
  ends : ∀ child pipe writer, Holds s.parent (.pipeEnd child pipe writer) →
    child < s.runs ∧ writer = !childWrites pipe

variable {s t : Processes} {move : Move}

theorem moves_parental (h : Parental s) (hm : Moves s move t) : Parental t := by
  cases hm with
  | @forked system settings forked parent program ran child =>
    obtain ⟨_, new, old⟩ := run_inherits ran
    refine ⟨fun pipe => ?_, ?_⟩
    · have other : ∀ p, standard pipe ≠ forked.fds p := by
        intro p same
        exact h.used pipe (same ▸ (new p).1)
      change parent (standard pipe) ≠ none
      rw [old _ other]
      exact h.used pipe
    · rintro child pipe writer ⟨fd, descriptor, found, refers⟩
      change parent fd = some descriptor at found
      by_cases own : ∃ p, fd = forked.fds p
      · obtain ⟨p, rfl⟩ := own
        rw [(new p).2] at found
        cases found
        obtain ⟨rfl, rfl, rfl⟩ := OpenFile.pipeEnd.inj refers
        exact ⟨Nat.lt_succ_self _, rfl⟩
      · rw [old fd fun p same => own ⟨p, same⟩] at found
        obtain ⟨earlier, side⟩ := h.ends child pipe writer ⟨fd, descriptor, found, refers⟩
        exact ⟨Nat.lt_succ_of_lt earlier, side⟩
  | failed ran =>
    rw [runDescriptors_failed ran]
    exact h
  | parent passes used => exact ⟨used, fun child pipe writer held => h.ends child pipe writer (passes _ _ _ held)⟩
  | descendants passes => exact ⟨h.used, h.ends⟩

/-- What a new child holds is an end that was made for it, or one that `run` did not close. -/
theorem forked_holds {system : System} {settings : CloseFds} {forked : Forked} {parent program : Descriptors}
    (h : Parental s) (ran : runDescriptors system settings s.runs s.parent = .ok (.ok forked, parent))
    (started : forked.child = .ok program) (child : Nat) (pipe : Pipe) (writer : Bool) :
    Holds program (.pipeEnd child pipe writer) ↔ (child = s.runs ∧ writer = childWrites pipe) ∨
      ∃ fd descriptor, s.parent fd = some descriptor ∧ descriptor.file = .pipeEnd child pipe writer ∧
        (∀ pipe, fd ≠ standard pipe) ∧ descriptor.cloexec = false ∧ ¬settings.Closes system.maxFd fd := by
  obtain ⟨⟨_, inside, rest⟩, _, _⟩ := run_inherits ran
  obtain ⟨_, inside', standards⟩ := child_standards ran h.used
  cases started.symm.trans inside
  cases started.symm.trans inside'
  have inherited : ∀ fd descriptor, (∀ pipe, fd ≠ standard pipe) →
      (program fd = some descriptor ↔ s.parent fd = some descriptor ∧ descriptor.cloexec = false ∧
        ¬settings.Closes system.maxFd fd) := by
    intro fd descriptor other
    rw [rest fd other]
    by_cases closed : settings.Closes system.maxFd fd
    · simp [closed]
    · simp [closed, DescriptorTable.exec_apply, Option.filter_eq_some_iff]
  constructor
  · rintro ⟨fd, descriptor, found, refers⟩
    by_cases own : ∃ p, fd = standard p
    · obtain ⟨p, rfl⟩ := own
      rw [standards p] at found
      cases found
      obtain ⟨rfl, rfl, rfl⟩ := OpenFile.pipeEnd.inj refers
      exact Or.inl ⟨rfl, rfl⟩
    · have other : ∀ p, fd ≠ standard p := fun p same => own ⟨p, same⟩
      obtain ⟨before, flag, kept⟩ := (inherited fd descriptor other).mp found
      exact Or.inr ⟨fd, descriptor, before, refers, other, flag, kept⟩
  · rintro (⟨rfl, rfl⟩ | ⟨fd, descriptor, before, refers, other, flag, kept⟩)
    · exact ⟨standard pipe, _, standards pipe, rfl⟩
    · exact ⟨fd, descriptor, (inherited fd descriptor other).mpr ⟨before, flag, kept⟩, refers⟩

theorem moves_isolated_iff (h : Parental s) (isolated : Isolated s) (hm : Moves s move t) :
    Isolated t ↔ Seals s move := by
  cases hm with
  | @forked system settings forked parent program ran started =>
    have holds := forked_holds h ran started
    constructor
    · intro after _ fd descriptor found refers other
      obtain ⟨child, pipe, refers⟩ := refers
      by_contra open_
      rw [not_or, Bool.not_eq_true] at open_
      have kept := (holds child pipe (!childWrites pipe)).mpr
        (Or.inr ⟨fd, descriptor, found, refers, other, open_.1, open_.2⟩)
      obtain ⟨_, side⟩ := after s.runs program (List.mem_cons_self ..) child pipe _ kept
      cases hw : childWrites pipe <;> rw [hw] at side <;> cases side
    · intro seals n other member child pipe writer held
      have forks := (runDescriptors_fork ran).mpr ⟨forked, rfl⟩
      rcases List.mem_cons.mp member with new | old
      · cases new
        rcases (holds child pipe writer).mp held with own | ⟨fd, descriptor, found, refers, apart, flag, kept⟩
        · exact own
        · obtain ⟨_, side⟩ := h.ends child pipe writer ⟨fd, descriptor, found, refers⟩
          subst side
          rcases seals forks fd descriptor found ⟨child, pipe, refers⟩ apart with closed | closed
          · rw [closed] at flag
            cases flag
          · exact absurd closed kept
      · exact isolated n other old child pipe writer held
  | @failed system settings errno parent ran =>
    have forks : system.fork ≠ none := by
      intro succeeds
      obtain ⟨forked, ok⟩ := (runDescriptors_fork ran).mp succeeds
      cases ok
    constructor
    · exact fun _ succeeds => absurd succeeds forks
    · exact fun _ => isolated
  | parent passes used => exact ⟨fun _ => trivial, fun _ => isolated⟩
  | descendants passes =>
    refine ⟨fun _ => trivial, fun _ n after member child pipe writer held => ?_⟩
    obtain ⟨before, old, held⟩ := passes n after member child pipe writer held
    exact isolated n before old child pipe writer held

/-- A process that has run nothing yet. -/
structure Fresh (s : Processes) : Prop where
  used : ∀ pipe, s.parent (standard pipe) ≠ none
  ends : ∀ child pipe writer, ¬Holds s.parent (.pipeEnd child pipe writer)
  alone : s.descendants = []

/-- In every run of a process that keeps its standard descriptors in use, where no process gets an end of a
pipe from another one: no process of a child ever holds an end of a pipe but the ends made for it, in
particular none that keeps the input of another child open, if and only if every `run` that forks closes
all the ends of earlier pipes that the parent has. -/
theorem isolated_iff {start : Processes} (fresh : Fresh start) (moves : List Move) :
    (∀ done rest s, moves = done ++ rest → Run Moves start done s → Isolated s) ↔
      ∀ done move rest s t, moves = done ++ move :: rest → Run Moves start done s → Moves s move t →
        Seals s move := by
  have parental : Parental start :=
    ⟨fresh.used, fun child pipe writer held => absurd held (fresh.ends child pipe writer)⟩
  have isolated : Isolated start := by
    intro n program member
    rw [fresh.alone] at member
    cases member
  refine along_iff isolated (fun {done s move t} run isolated hm => ?_) moves
  exact moves_isolated_iff (run.invariant parental moves_parental) isolated hm

theorem terminal_fresh : Fresh ⟨terminal, [], 0⟩ where
  used := terminal_used
  ends := by
    rintro child pipe writer ⟨fd, descriptor, found, refers⟩
    simp only [terminal] at found
    split at found
    · cases found
      cases refers
    · cases found
  alone := rfl

theorem terminal_isolated_iff :
    (∀ done rest s,
      [Move.run { limit := 16, maxFd := 16 } .initial, .run { limit := 16, maxFd := 16 } (.set false ∅)] =
        done ++ rest → Run Moves ⟨terminal, [], 0⟩ done s → Isolated s) ↔
      ∀ done move rest s t,
        [Move.run { limit := 16, maxFd := 16 } .initial, .run { limit := 16, maxFd := 16 } (.set false ∅)] =
          done ++ move :: rest → Run Moves ⟨terminal, [], 0⟩ done s → Moves s move t → Seals s move :=
  isolated_iff terminal_fresh _

end Subprocess

end Hlib
