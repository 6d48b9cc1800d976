import Hlib.EventLoop
import Hlib.Transition

namespace Hlib

open Transition (Run Restrict)

namespace EventLoop

/-- Where a thread stands in `dispatch`. -/
inductive Stage (κ : Type)
  | outside
  /-- At the test of `m_interrupt`. -/
  | top
  /-- In `epoll_wait`. -/
  | waiting
  /-- With an event, before `lock.lock()`. -/
  | arrived (fd : Fd) (events : Events)
  /-- Before `m_callbacks.find`. -/
  | looking (fd : Fd) (events : Events)
  /-- With a callback, after `lock.unlock()`. -/
  | found (fd : Fd) (events : Events) (callback : κ)
  | calling
  /-- Without its `unique_lock`, before it resets `m_thread_id` under the mutex. -/
  | leaving

/-- A loop with a thread that dispatches; `owned` tells whether that thread's `lock` owns `m_mutex`.
Other calls own it only for the one step that they are. -/
structure State (κ : Type) where
  loop : EventLoop κ
  interrupt : Bool
  owned : Bool
  stage : Stage κ

inductive Label (κ : Type)
  | dispatch
  | interrupted
  | wait
  | eintr
  | failed
  | timeout
  | arrive (fd : Fd) (events : Events)
  | lock
  | find
  | invoke
  | interrupt
  | returned
  | thrown
  | leave
  | add (fd : Fd) (events : Events) (callback : κ) (ctl : Option Errno)
  | modify (fd : Fd) (events : Events)
  | change (fd : Fd) (callback : κ)
  | remove (fd : Fd)

variable {κ : Type}

def initial (loop : EventLoop κ) : State κ := ⟨loop, false, false, .outside⟩

/-- One step of the dispatching thread, or one call on the loop, from that thread's callback or from
another thread. All calls but `modify` take the mutex; one that throws changes nothing. -/
inductive Step : State κ → Label κ → State κ → Prop
  | dispatch {loop interrupt owned} :
      Step ⟨loop, interrupt, owned, .outside⟩ .dispatch ⟨loop, false, owned, .top⟩
  | interrupted {loop owned} :
      Step ⟨loop, true, owned, .top⟩ .interrupted ⟨loop, true, false, .leaving⟩
  | wait {loop owned} : Step ⟨loop, false, owned, .top⟩ .wait ⟨loop, false, owned, .waiting⟩
  | eintr {loop interrupt owned} :
      Step ⟨loop, interrupt, owned, .waiting⟩ .eintr ⟨loop, interrupt, owned, .top⟩
  | failed {loop interrupt owned} :
      Step ⟨loop, interrupt, owned, .waiting⟩ .failed ⟨loop, interrupt, false, .leaving⟩
  | timeout {loop interrupt owned} :
      Step ⟨loop, interrupt, owned, .waiting⟩ .timeout ⟨loop, interrupt, false, .leaving⟩
  | arrive {loop interrupt owned fd events} (watched : loop.interest fd ≠ none) :
      Step ⟨loop, interrupt, owned, .waiting⟩ (.arrive fd events)
        ⟨loop, interrupt, owned, .arrived fd events⟩
  | lock {loop interrupt fd events} :
      Step ⟨loop, interrupt, false, .arrived fd events⟩ .lock
        ⟨loop, interrupt, true, .looking fd events⟩
  /-- A `unique_lock` that owns its mutex throws `resource_deadlock_would_occur`. -/
  | relock {loop interrupt fd events} :
      Step ⟨loop, interrupt, true, .arrived fd events⟩ .lock ⟨loop, interrupt, false, .leaving⟩
  | find {loop interrupt owned fd events callback} (known : loop.callbacks fd = some callback) :
      Step ⟨loop, interrupt, owned, .looking fd events⟩ .find
        ⟨loop, interrupt, false, .found fd events callback⟩
  /-- The `break` leaves the `switch` past `lock.unlock()`. -/
  | miss {loop interrupt owned fd events} (unknown : loop.callbacks fd = none) :
      Step ⟨loop, interrupt, owned, .looking fd events⟩ .find ⟨loop, interrupt, owned, .top⟩
  | invoke {loop interrupt owned fd events callback} :
      Step ⟨loop, interrupt, owned, .found fd events callback⟩ .invoke
        ⟨loop, interrupt, owned, .calling⟩
  /-- What the callback of `m_pipe` does. -/
  | interrupt {loop interrupt owned} :
      Step ⟨loop, interrupt, owned, .calling⟩ .interrupt ⟨loop, true, owned, .calling⟩
  | returned {loop interrupt owned} :
      Step ⟨loop, interrupt, owned, .calling⟩ .returned ⟨loop, interrupt, owned, .top⟩
  | thrown {loop interrupt owned} :
      Step ⟨loop, interrupt, owned, .calling⟩ .thrown ⟨loop, interrupt, false, .leaving⟩
  | leave {loop interrupt owned} :
      Step ⟨loop, interrupt, owned, .leaving⟩ .leave ⟨loop, interrupt, owned, .outside⟩
  | add {loop loop' interrupt stage fd events callback ctl}
      (h : loop.add fd events callback ctl = .ok (.ok loop')) :
      Step ⟨loop, interrupt, false, stage⟩ (.add fd events callback ctl)
        ⟨loop', interrupt, false, stage⟩
  | modify {loop loop' interrupt owned stage fd events}
      (h : loop.modify fd events = .ok (.ok loop')) :
      Step ⟨loop, interrupt, owned, stage⟩ (.modify fd events) ⟨loop', interrupt, owned, stage⟩
  | change {loop loop' interrupt stage fd callback} (h : loop.change fd callback = .ok loop') :
      Step ⟨loop, interrupt, false, stage⟩ (.change fd callback) ⟨loop', interrupt, false, stage⟩
  | remove {loop loop' interrupt stage fd} (h : loop.remove fd = .ok loop') :
      Step ⟨loop, interrupt, false, stage⟩ (.remove fd) ⟨loop', interrupt, false, stage⟩

/-- The steps in which the dispatching thread waits, calls or locks. -/
def Label.Exposed : Label κ → Prop
  | .dispatch | .wait | .invoke | .lock | .leave => True
  | _ => False

/-- The thread is about to wait, call or lock only while it does not own the mutex. -/
def ExposedUnowned (s : State κ) : Prop :=
  ∀ label t, Step s label t → label.Exposed → s.owned = false

def Finds (s : State κ) : Label κ → Prop
  | .find => ∀ fd events, s.stage = .looking fd events → s.loop.callbacks fd ≠ none
  | _ => True

/-- Between `lock.lock()` and `lock.unlock()`. -/
def Stage.Critical : Stage κ → Prop
  | .looking _ _ => True
  | _ => False

/-- Past the test of `m_interrupt`, and before a callback that may set it. -/
def Stage.Tested : Stage κ → Prop
  | .waiting | .arrived _ _ | .looking _ _ | .found _ _ _ => True
  | _ => False

structure Held (s : State κ) : Prop where
  owned : s.owned = true ↔ s.stage.Critical
  quiet : s.stage.Tested → s.interrupt = false

theorem step_held {s t : State κ} {label : Label κ} (h : Held s) (finds : Finds s label)
    (hs : Step s label t) : Held t := by
  cases hs with
  | dispatch | wait => exact ⟨h.owned, fun _ => rfl⟩
  | eintr | interrupt | returned | invoke | leave => exact ⟨h.owned, nofun⟩
  | interrupted | failed | timeout | relock | thrown => exact ⟨iff_of_false nofun id, nofun⟩
  | arrive => exact ⟨h.owned, fun _ => h.quiet trivial⟩
  | lock => exact ⟨iff_of_true rfl trivial, fun _ => h.quiet trivial⟩
  | find => exact ⟨iff_of_false nofun id, fun _ => h.quiet trivial⟩
  | miss unknown => exact absurd unknown (finds _ _ rfl)
  | add | modify | change | remove => exact ⟨h.owned, h.quiet⟩

theorem exposed_unowned {s : State κ} (h : Held s) : ExposedUnowned s := by
  intro label t hs exposed
  by_contra owned
  have critical := h.owned.mp (eq_true_of_ne_false owned)
  cases hs with
  | dispatch | wait | lock | relock | invoke | leave => exact critical
  | _ => exact exposed

theorem miss_exposed {s t : State κ} {fd : Fd} {events : Events} (h : Held s)
    (looking : s.stage = .looking fd events) (unknown : s.loop.callbacks fd = none)
    (hs : Step s .find t) : ¬ExposedUnowned t := by
  obtain ⟨loop, interrupt, owned, stage⟩ := s
  cases looking
  cases h.owned.mpr trivial
  cases h.quiet trivial
  cases hs with
  | find known => cases known.symm.trans unknown
  | miss =>
    intro unowned
    cases unowned .wait _ .wait trivial

/-- In a run whose every lookup finds the descriptor of its event, the dispatching thread never waits,
calls or locks while it owns the mutex; and a next lookup keeps this up just when it does so. -/
theorem never_waits_owning {loop : EventLoop κ} {labels : List (Label κ)} {s : State κ}
    (run : Run (Restrict Finds Step) (initial loop) labels s) :
    ExposedUnowned s ∧ ∀ {t}, Step s .find t → (ExposedUnowned t ↔ Finds s .find) := by
  have held : Held s := by
    refine run.invariant ⟨iff_of_false nofun id, nofun⟩ ?_
    exact fun h hs => step_held h hs.1 hs.2
  refine ⟨exposed_unowned held, ?_⟩
  intro t hs
  constructor
  · intro unowned fd events looking unknown
    exact miss_exposed held looking unknown hs unowned
  · exact fun finds => exposed_unowned (step_held held finds hs)

def watching : EventLoop Unit where
  interest := Function.update (fun _ => none) 5 (some Read)
  callbacks := Function.update (fun _ => none) 5 (some ())

theorem never_waits_owning_found :
    ∃ s : State Unit, Run (Restrict Finds Step) (initial watching)
      [.dispatch, .wait, .arrive 5 Read, .lock, .find] s ∧ ExposedUnowned s := by
  refine Exists.imp (fun s run => ⟨run, (never_waits_owning run).1⟩) ?_
  refine ⟨_, ((((Run.start.next ⟨trivial, .dispatch⟩).next ⟨trivial, .wait⟩).next
    ⟨trivial, .arrive (by decide)⟩).next ⟨trivial, .lock⟩).next ⟨?_, .find rfl⟩⟩
  intro fd events looking
  cases looking
  exact Option.some_ne_none ()

/-- In no run does the dispatching thread wait, call or lock while it owns the mutex. -/
def NeverWaitsOwning : Prop :=
  ∀ (loop : EventLoop Unit) (labels : List (Label Unit)) (s : State Unit),
    Run Step (initial loop) labels s → ExposedUnowned s

theorem waits_owning_after_remove : ¬NeverWaitsOwning := by
  intro never
  have unowned := never watching [.dispatch, .wait, .arrive 5 Read, .remove 5, .lock, .find] _
    ((((((Run.start.next .dispatch).next .wait).next (.arrive (by decide))).next (.remove rfl)).next
      .lock).next (.miss rfl))
  cases unowned .wait _ .wait trivial

end EventLoop

end Hlib
