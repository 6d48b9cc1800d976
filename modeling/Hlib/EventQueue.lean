import Hlib.Transition

namespace Hlib

open Transition (Run Restrict)

/-- `Timer`: whether its descriptor is armed, and the expirations since that was last set or read. -/
structure Timer where
  armed : Bool := false
  expired : Nat := 0
  deriving DecidableEq, Repr

namespace Timer

/-- `timerfd_settime` with an interval, which keeps the timer armed when it expires. -/
def set : Timer := { armed := true, expired := 0 }

def clear : Timer := { armed := false, expired := 0 }

end Timer

namespace EventQueue

/-- Where the dispatching thread stands in `Timer::onExpire` and `onTimer`. -/
inductive Stage (κ : Type)
  | idle
  /-- In `onExpire`, before its `read`. -/
  | reported
  /-- In `onTimer`, before it pops. -/
  | entered
  /-- With a callback, after `lock.unlock()`. -/
  | popped (callback : κ)
  | running
  /-- Before `lock.lock()`. -/
  | returned

structure State (κ : Type) where
  queue : List κ
  timer : Timer
  stage : Stage κ

inductive Label (κ : Type)
  | push (callback : κ)
  | expire
  | report
  | read
  | failed
  | pop
  | call (callback : κ)
  | returned
  | thrown
  | settle

variable {κ : Type} {s t : State κ} {label : Label κ} {labels : List (Label κ)}

def initial : State κ := ⟨[], {}, .idle⟩

/-- One critical section of `m_mutex`, or what the dispatching thread does without it. `push` comes
from any thread, the callback that runs included. -/
inductive Step : State κ → Label κ → State κ → Prop
  | push {queue timer stage callback} :
      Step ⟨queue, timer, stage⟩ (.push callback) ⟨queue ++ [callback], .set, stage⟩
  | expire {queue expired stage} :
      Step ⟨queue, ⟨true, expired⟩, stage⟩ .expire ⟨queue, ⟨true, expired + 1⟩, stage⟩
  | report {queue armed expired} :
      Step ⟨queue, ⟨armed, expired + 1⟩, .idle⟩ .report ⟨queue, ⟨armed, expired + 1⟩, .reported⟩
  /-- A push can take the expiration away that was reported; `read` then waits for the next. -/
  | read {queue armed expired} :
      Step ⟨queue, ⟨armed, expired + 1⟩, .reported⟩ .read ⟨queue, ⟨armed, 0⟩, .entered⟩
  | failed {queue timer} : Step ⟨queue, timer, .reported⟩ .failed ⟨queue, timer, .idle⟩
  | pop {callback queue timer} :
      Step ⟨callback :: queue, timer, .entered⟩ .pop ⟨queue, timer, .popped callback⟩
  | call {queue timer callback} :
      Step ⟨queue, timer, .popped callback⟩ (.call callback) ⟨queue, timer, .running⟩
  | returned {queue timer} : Step ⟨queue, timer, .running⟩ .returned ⟨queue, timer, .returned⟩
  /-- The exception leaves `dispatch`, which may be called again. -/
  | thrown {queue timer} : Step ⟨queue, timer, .running⟩ .thrown ⟨queue, timer, .idle⟩
  | settle {queue timer} :
      Step ⟨queue, timer, .returned⟩ .settle
        ⟨queue, if queue.isEmpty then .clear else timer, .idle⟩

/-- Between the entry of `onTimer` and its return. -/
def Stage.InProgress : Stage κ → Prop
  | .entered | .popped _ | .running | .returned => True
  | _ => False

def Stage.Popped : Stage κ → Prop
  | .popped _ | .running | .returned => True
  | _ => False

structure Consistent (s : State κ) : Prop where
  expired : 0 < s.timer.expired → s.timer.armed = true
  queued : s.queue ≠ [] → s.timer.armed = true
  popped : s.stage.Popped → s.timer.armed = true
  armed : ¬s.stage.Popped → s.timer.armed = true → s.queue ≠ []
  entered : s.stage = .entered → s.timer.armed = true

theorem consistent_initial : Consistent (initial : State κ) :=
  ⟨nofun, fun h => absurd rfl h, nofun, nofun, nofun⟩

def LeavesQueue (s : State κ) : Label κ → Prop
  | .thrown => s.queue ≠ []
  | _ => True

theorem step_consistent (h : Consistent s) (leaves : LeavesQueue s label) (hs : Step s label t) :
    Consistent t := by
  cases hs with
  | push => exact ⟨nofun, fun _ => rfl, fun _ => rfl, fun _ _ => by simp, fun _ => rfl⟩
  | expire => exact ⟨fun _ => rfl, fun _ => rfl, fun _ => rfl, h.armed, fun _ => rfl⟩
  | report => exact ⟨h.expired, h.queued, nofun, fun _ => h.armed id, nofun⟩
  | read =>
    have armed := h.expired (Nat.succ_pos _)
    exact ⟨nofun, h.queued, nofun, fun _ => h.armed id, fun _ => armed⟩
  | failed => exact ⟨h.expired, h.queued, nofun, fun _ => h.armed id, nofun⟩
  | pop =>
    have armed := h.entered rfl
    exact ⟨h.expired, fun _ => armed, fun _ => armed, fun no => absurd trivial no, nofun⟩
  | call | returned =>
    exact ⟨h.expired, h.queued, fun _ => h.popped trivial, fun no => absurd trivial no, nofun⟩
  | thrown => exact ⟨h.expired, h.queued, nofun, fun _ _ => leaves, nofun⟩
  | @settle queue timer =>
    cases queue with
    | nil => exact ⟨nofun, fun h => absurd rfl h, nofun, nofun, nofun⟩
    | cons callback queue => exact ⟨h.expired, h.queued, nofun, fun _ _ => nofun, nofun⟩

theorem run_consistent (run : Run (Restrict LeavesQueue Step) initial labels s) : Consistent s :=
  run.invariant consistent_initial fun h hs => step_consistent h hs.1 hs.2

theorem entered_queued (h : Consistent s) (entered : s.stage = .entered) : s.queue ≠ [] :=
  h.armed (by rw [entered]; exact id) (h.entered entered)

theorem armed_iff_queued (h : Consistent s) (outside : ¬s.stage.InProgress) :
    s.timer.armed = true ↔ s.queue ≠ [] := by
  refine ⟨h.armed ?_, h.queued⟩
  intro popped
  cases hs : s.stage <;> rw [hs] at popped outside
  · exact popped
  · exact popped
  · exact popped
  · exact outside trivial
  · exact outside trivial
  · exact outside trivial

def pushed (labels : List (Label κ)) : List κ :=
  labels.filterMap fun
    | .push callback => some callback
    | _ => none

def called (labels : List (Label κ)) : List κ :=
  labels.filterMap fun
    | .call callback => some callback
    | _ => none

def State.awaiting (s : State κ) : List κ :=
  match s.stage with
  | .popped callback => callback :: s.queue
  | _ => s.queue

theorem step_awaiting (hs : Step s label t) :
    s.awaiting ++ pushed [label] = called [label] ++ t.awaiting := by
  cases hs with
  | @push queue timer stage callback => cases stage <;> rfl
  | expire | report | read | failed | pop | call | returned | thrown | settle =>
    simp [State.awaiting, pushed, called]

theorem pushed_eq (run : Run Step initial labels s) :
    pushed labels = called labels ++ s.awaiting := by
  induction run with
  | start => rfl
  | @next labels s label t _ hs ih =>
    calc pushed (labels ++ [label])
        = called labels ++ (s.awaiting ++ pushed [label]) := by
          rw [pushed, List.filterMap_append, ← pushed, ih, List.append_assoc, ← pushed]
      _ = called labels ++ called [label] ++ t.awaiting := by
          rw [step_awaiting hs, List.append_assoc]
      _ = called (labels ++ [label]) ++ t.awaiting := by
          rw [called, called, called, List.filterMap_append]

def Returns : Label κ → Prop
  | .thrown => False
  | _ => True

theorem returns_leaves (returns : Returns label) : LeavesQueue s label := by
  cases label with
  | thrown => exact returns.elim
  | _ => trivial

/-- Where every callback returns, `onTimer` finds a callback, callbacks are called in the order of
their pushes, and outside `onTimer` the timer is armed just when one is queued. -/
theorem fifo (run : Run (Restrict (fun _ => Returns) Step) initial labels s) :
    (s.stage = .entered → s.queue ≠ []) ∧ called labels <+: pushed labels ∧
      (¬s.stage.InProgress → (s.timer.armed = true ↔ s.queue ≠ [])) := by
  have consistent : Consistent s :=
    run.invariant consistent_initial fun h hs => step_consistent h (returns_leaves hs.1) hs.2
  refine ⟨entered_queued consistent, ⟨s.awaiting, ?_⟩, armed_iff_queued consistent⟩
  exact (pushed_eq (run.mono fun hs => hs.2)).symm

theorem fifo_pushed_from_callback :
    ∃ s : State Nat, Run (Restrict (fun _ => Returns) Step) initial
      [.push 1, .expire, .report, .read, .pop, .call 1, .push 2, .returned, .settle] s ∧
      s.queue = [2] ∧ (s.timer.armed = true ↔ s.queue ≠ []) := by
  have last : ∃ s : State Nat, Run (Restrict (fun _ => Returns) Step) initial
      [.push 1, .expire, .report, .read, .pop, .call 1, .push 2, .returned, .settle] s ∧
      s.queue = [2] ∧ s.stage = .idle := by
    refine ⟨_, ((((((((Run.start.next ⟨trivial, .push⟩).next ⟨trivial, .expire⟩).next
      ⟨trivial, .report⟩).next ⟨trivial, .read⟩).next ⟨trivial, .pop⟩).next ⟨trivial, .call⟩).next
      ⟨trivial, .push⟩).next ⟨trivial, .returned⟩).next ⟨trivial, .settle⟩, rfl, rfl⟩
  obtain ⟨s, run, queue, idle⟩ := last
  exact ⟨s, run, queue, (fifo run).2.2 (by rw [idle]; exact id)⟩

/-- `onTimer` finds a callback, and outside it the timer is armed only if one is queued. -/
def Safe (s : State κ) : Prop :=
  (s.stage = .entered → s.queue ≠ []) ∧
    (¬s.stage.InProgress → s.timer.armed = true → s.queue ≠ [])

theorem safe_of_consistent (h : Consistent s) : Safe s :=
  ⟨entered_queued h, fun outside => (armed_iff_queued h outside).mp⟩

theorem thrown_safe (h : Consistent s) (hs : Step s .thrown t) :
    Safe t ↔ LeavesQueue s .thrown := by
  constructor
  · intro safe
    cases hs
    exact safe.2 id (h.popped trivial)
  · intro leaves
    exact safe_of_consistent (step_consistent h leaves hs)

/-- In a run whose every throwing callback leaves a non-empty queue, `onTimer` never finds it empty;
and after a next callback that throws this stays so just when that one does. -/
theorem safe_while_queued (run : Run (Restrict LeavesQueue Step) initial labels s) :
    Safe s ∧ ∀ {t}, Step s .thrown t → (Safe t ↔ LeavesQueue s .thrown) :=
  ⟨safe_of_consistent (run_consistent run), fun hs => thrown_safe (run_consistent run) hs⟩

theorem safe_while_queued_two :
    ∃ s : State Nat, Run (Restrict LeavesQueue Step) initial
      [.push 1, .push 2, .expire, .report, .read, .pop, .call 1, .thrown] s ∧ Safe s := by
  refine Exists.imp (fun s run => ⟨run, (safe_while_queued run).1⟩) ?_
  refine ⟨_, (((((((Run.start.next ⟨trivial, .push⟩).next ⟨trivial, .push⟩).next
    ⟨trivial, .expire⟩).next ⟨trivial, .report⟩).next ⟨trivial, .read⟩).next ⟨trivial, .pop⟩).next
    ⟨trivial, .call⟩).next ⟨?_, .thrown⟩⟩
  exact List.cons_ne_nil 2 []

/-- `onTimer` never finds the queue empty, whatever the callbacks do. -/
def NeverEmpty : Prop :=
  ∀ (labels : List (Label Unit)) (s : State Unit), Run Step initial labels s → Safe s

/-- The only callback throws, and `dispatch` is called again. -/
theorem empty_after_thrown : ¬NeverEmpty := by
  intro never
  have safe := never [.push (), .expire, .report, .read, .pop, .call (), .thrown, .expire, .report,
    .read] _ ((((((((((Run.start.next .push).next .expire).next .report).next .read).next .pop).next
      .call).next .thrown).next .expire).next .report).next .read)
  exact safe.1 rfl rfl

end EventQueue

end Hlib
