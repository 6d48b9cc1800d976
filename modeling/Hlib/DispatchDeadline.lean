import Hlib.DispatchTimeout

namespace Hlib

open Transition (Run)

open Function (update update_self update_of_ne update_eq_self)

namespace EventLoop

namespace Timed

variable {κ : Type} {w w' : Timed κ} {label : TimedLabel κ}

/-- Past its deadline a `dispatch(timeout)` calls at most one callback. -/
def StopsInTime (w : Timed κ) : Prop := ∀ call, w.call = some call → call.calls ≤ 1

/-- What the labels of a run tell of the `dispatch(timeout)` under way: the readings, the events that the
polls report, and the calls on the loop. -/
structure Reports where
  deadline : Option Int := none
  /-- Whether the clock was read at or past the deadline. -/
  late : Bool := false
  /-- The descriptors that have a callback. -/
  registered : Fd → Bool
  /-- The descriptor of the event that was reported last. -/
  event : Option Fd := none
  /-- The descriptors of the events reported past the deadline that had a callback when they were looked up. -/
  due : List Fd := []

def Reports.next (r : Reports) : TimedLabel κ → Reports
  | .dispatch => { r with deadline := none, late := false, due := [] }
  | .dispatchFor timeout start =>
    { r with deadline := some (start.nanoseconds + timeout.nanoseconds), late := false, due := [] }
  | .waitFor current => { r with late := r.late || r.deadline.any (fun deadline => deadline ≤ current.nanoseconds) }
  | .other (.arrive fd _) => { r with event := some fd }
  | .other .find => if r.late then { r with due := r.due ++ (r.event.filter r.registered).toList } else r
  | .other (.add fd _ _ _) => { r with registered := update r.registered fd true }
  | .other (.remove fd) => if fd = -1 then r else { r with registered := update r.registered fd false }
  | _ => r

/-- What is told of a run before its first step. -/
def Reports.before (loop : EventLoop κ) : Reports where
  registered fd := (loop.callbacks fd).isSome

/-- The labels tell what the loop knows. -/
structure Tells (r : Reports) (w : Timed κ) : Prop where
  registered : ∀ fd, r.registered fd = (w.core.loop.callbacks fd).isSome
  event : ∀ fd events, w.core.stage = .arrived fd events ∨ w.core.stage = .looking fd events → r.event = some fd
  deadline : r.deadline = w.call.map Call.deadline
  late : r.late = w.call.any Call.late
  due : r.due.length = w.call.elim 0 Call.calls

theorem see_find {s : State κ} {fd : Fd} {events : Events} (looking : s.stage = .looking fd events)
    (call : Call) : (call.see s .find).calls =
      if call.late = true ∧ s.loop.callbacks fd ≠ none then call.calls + 1 else call.calls := by
  unfold Call.see
  rw [looking]
  dsimp only
  split
  next => rfl
  next => rfl

theorem see_other {s : State κ} {label : Label κ} (other : label ≠ .find) (call : Call) :
    call.see s label = call := by
  unfold Call.see
  split
  next => exact absurd rfl other
  next => rfl

theorem find_looking {s t : State κ} (hs : Step s .find t) : ∃ fd events, s.stage = .looking fd events := by
  cases hs with
  | find => exact ⟨_, _, rfl⟩
  | miss => exact ⟨_, _, rfl⟩

theorem registered_update {registered : Fd → Bool} {callbacks : Fd → Option κ}
    (h : ∀ fd, registered fd = (callbacks fd).isSome) (fd : Fd) (callback : Option κ) (x : Fd) :
    update registered fd callback.isSome x = (update callbacks fd callback x).isSome := by
  by_cases same : x = fd
  · rw [same, update_self, update_self]
  · rw [update_of_ne same, update_of_ne same]
    exact h x

theorem registered_step {r : Reports} {s t : State κ} {label : Label κ} (hs : Step s label t)
    (h : ∀ fd, r.registered fd = (s.loop.callbacks fd).isSome) :
    ∀ fd, (r.next (.other label)).registered fd = (t.loop.callbacks fd).isSome := by
  intro x
  cases hs with
  | @add _ _ _ _ fd _ callback _ added =>
    obtain ⟨_, _, _, _, rfl⟩ := add_ok added
    exact registered_update h fd (some callback) x
  | modify modified =>
    rw [(modify_ok modified).2.2]
    exact h x
  | @change _ _ _ _ fd callback changed =>
    obtain ⟨_, _, changed⟩ := bind_ok changed
    obtain ⟨_, hk, changed⟩ := bind_ok changed
    have known : r.registered fd = true := by
      rw [h fd]
      exact Option.isSome_iff_ne_none.mpr (require_ok hk)
    cases changed
    have changed := registered_update h fd (some callback) x
    rwa [Option.isSome_some, ← known, update_eq_self] at changed
  | @remove _ _ _ _ fd removed =>
    by_cases invalid : fd = -1
    · rw [remove, if_pos invalid] at removed
      cases removed
      rw [Reports.next, if_pos invalid]
      exact h x
    · rw [remove_ok removed invalid, Reports.next, if_neg invalid]
      exact registered_update h fd none x
  | find | miss =>
    unfold Reports.next
    dsimp only
    split
    next => exact h x
    next => exact h x
  | _ => exact h x

theorem event_step {r : Reports} {s t : State κ} {label : Label κ} (hs : Step s label t)
    (h : ∀ fd events, s.stage = .arrived fd events ∨ s.stage = .looking fd events → r.event = some fd) :
    ∀ fd events, t.stage = .arrived fd events ∨ t.stage = .looking fd events →
      (r.next (.other label)).event = some fd := by
  intro x events there
  cases hs with
  | arrive =>
    rcases there with here | here
    · cases here
      rfl
    · cases here
  | lock =>
    rcases there with here | here
    · cases here
    · cases here
      exact h _ _ (Or.inl rfl)
  | remove =>
    unfold Reports.next
    dsimp only
    split
    next => exact h x events there
    next => exact h x events there
  | add | modify | change => exact h x events there
  | _ =>
    rcases there with here | here
    · cases here
    · cases here

/-- Only the clock and the beginning of a `dispatch` tell of the deadline. -/
theorem next_same (label : Label κ) (r : Reports) :
    (r.next (.other label)).deadline = r.deadline ∧ (r.next (.other label)).late = r.late := by
  cases label with
  | find | remove =>
    unfold Reports.next
    dsimp only
    split
    next => exact ⟨rfl, rfl⟩
    next => exact ⟨rfl, rfl⟩
  | _ => exact ⟨rfl, rfl⟩

theorem next_other {label : Label κ} (other : label ≠ .find) (r : Reports) :
    (r.next (.other label)).due = r.due := by
  cases label with
  | find => exact absurd rfl other
  | remove =>
    unfold Reports.next
    dsimp only
    split
    next => rfl
    next => rfl
  | _ => rfl

theorem see_late (s : State κ) (label : Label κ) (call : Call) : (call.see s label).late = call.late := by
  unfold Call.see
  split
  next =>
    split
    next => rfl
    next => rfl
  next => rfl

/-- A callback is called past the deadline for every event that is due. -/
theorem find_due {r : Reports} {core : State κ} (h : Tells r w) (hs : Step w.core .find core) :
    (r.next (.other (.find : Label κ))).due.length =
      (w.call.map (·.see w.core .find)).elim 0 Call.calls := by
  obtain ⟨fd, events, looking⟩ := find_looking hs
  have due := h.due
  have late := h.late
  unfold Reports.next
  dsimp only
  rw [h.event fd events (Or.inr looking), late]
  cases called : w.call with
  | none =>
    rw [called] at due
    exact due
  | some call =>
    rw [called] at due
    have registered := h.registered fd
    rw [Option.map_some, Option.elim_some, see_find looking]
    change (if call.late = true then _ else r).due.length = _
    by_cases passed : call.late = true
    · cases known : w.core.loop.callbacks fd with
      | none =>
        rw [known] at registered
        simp [passed, registered, due]
      | some callback =>
        rw [known] at registered
        simp [passed, registered, due]
    · simp [passed, due]

/-- The steps that come with a reading of the clock, or its absence, leave the callbacks alone. -/
theorem timed_step {s t : State κ} {label : Label κ} (timed : ¬Untimed label) (hs : Step s label t) :
    t.loop = s.loop ∧ ∀ fd events, ¬(t.stage = .arrived fd events ∨ t.stage = .looking fd events) := by
  cases hs with
  | dispatch | wait | timeout => exact ⟨rfl, fun _ _ there => there.elim nofun nofun⟩
  | _ => exact absurd trivial timed

theorem tells_step {r : Reports} (h : Tells r w) (hs : TimedStep w label w') : Tells (r.next label) w' := by
  cases hs with
  | dispatch hs =>
    obtain ⟨loop, idle⟩ := timed_step id hs
    exact ⟨fun fd => loop ▸ h.registered fd, fun fd events there => absurd there (idle fd events), rfl, rfl, rfl⟩
  | dispatchFor _ hs =>
    obtain ⟨loop, idle⟩ := timed_step id hs
    exact ⟨fun fd => loop ▸ h.registered fd, fun fd events there => absurd there (idle fd events), rfl, rfl, rfl⟩
  | wait _ hs =>
    obtain ⟨loop, idle⟩ := timed_step id hs
    exact ⟨fun fd => loop ▸ h.registered fd, fun fd events there => absurd there (idle fd events), h.deadline,
      h.late, h.due⟩
  | @waitFor core call current called _ hs =>
    obtain ⟨loop, idle⟩ := timed_step id hs
    have deadline := h.deadline
    have late := h.late
    have due := h.due
    rw [called] at deadline late due
    refine ⟨fun fd => loop ▸ h.registered fd, fun fd events there => absurd there (idle fd events), deadline,
      ?_, due⟩
    show (r.late || r.deadline.any _) = _
    rw [late, deadline]
    rfl
  | timeout _ hs =>
    obtain ⟨loop, idle⟩ := timed_step id hs
    exact ⟨fun fd => loop ▸ h.registered fd, fun fd events there => absurd there (idle fd events), h.deadline,
      h.late, h.due⟩
  | @other core label untimed hs =>
    obtain ⟨deadline, late⟩ := next_same label r
    refine ⟨registered_step hs h.registered, event_step hs h.event, ?_, ?_, ?_⟩
    · rw [deadline, h.deadline, Option.map_map]
      exact congrArg (fun f => w.call.map f) (funext fun call => (see_same w.core label call).2.symm)
    · rw [late, h.late]
      cases w.call with
      | none => rfl
      | some call => exact (see_late w.core label call).symm
    · by_cases finds : label = .find
      · subst finds
        exact find_due h hs
      · have same : w.call.map (·.see w.core label) = w.call := by
          simp only [see_other finds]
          exact Option.map_id'
        rw [next_other finds, same]
        exact h.due

/-- Past the deadline, a callback is called for every event of a descriptor that still has one: of such, the
polls may report one at most. -/
theorem stopsInTime_iff {loop : EventLoop κ} {now : Int} {labels : List (TimedLabel κ)}
    (run : Run TimedStep { core := initial loop, now } labels w) :
    StopsInTime w ↔ (labels.foldl Reports.next (Reports.before loop)).due.length ≤ 1 := by
  have first : Tells (Reports.before loop) { core := initial loop, now } :=
    ⟨fun _ => rfl, fun _ _ there => there.elim nofun nofun, rfl, rfl, rfl⟩
  have tells := run.simulates Tells first tells_step
  rw [tells.due]
  unfold StopsInTime
  cases w.call with
  | none => exact iff_of_true nofun (Nat.zero_le 1)
  | some call => simp

/-- The top of the loop, at a time. -/
def atTop (loop : EventLoop κ) (now : Int) (call : Call) : Timed κ :=
  ⟨⟨loop, false, false, .top⟩, now, some call⟩

/-- A turn of the loop past the deadline, with an event of a descriptor that has a callback. -/
theorem busy_turn {loop : EventLoop κ} {fd : Fd} {callback : κ} {call : Call} {current : Clock}
    (watched : loop.interest fd ≠ none) (known : loop.callbacks fd = some callback)
    (late : call.deadline ≤ current.nanoseconds) :
    Run TimedStep (atTop loop current.nanoseconds call)
      [.waitFor current, .other (.arrive fd Read), .other .lock, .other .find, .other .invoke,
        .other .returned]
      (atTop loop current.nanoseconds { call.read current with calls := call.calls + 1 }) := by
  have counted : (call.read current).see ⟨loop, false, true, .looking fd Read⟩ .find =
      { call.read current with calls := call.calls + 1 } := by
    have passed : (call.read current).late = true := by
      show (call.late || decide _) = true
      rw [decide_eq_true late, Bool.or_true]
    have found : loop.callbacks fd ≠ none := by
      rw [known]
      exact Option.some_ne_none callback
    exact if_pos ⟨passed, found⟩
  have wait : TimedStep (atTop loop current.nanoseconds call) (.waitFor current)
      ⟨⟨loop, false, false, .waiting⟩, current.nanoseconds, some (call.read current)⟩ :=
    .waitFor rfl (Int.le_refl _) .wait
  have arrive : TimedStep ⟨⟨loop, false, false, .waiting⟩, current.nanoseconds, some (call.read current)⟩
      (.other (.arrive fd Read))
      ⟨⟨loop, false, false, .arrived fd Read⟩, current.nanoseconds, some (call.read current)⟩ :=
    .other trivial (.arrive watched)
  have lock : TimedStep ⟨⟨loop, false, false, .arrived fd Read⟩, current.nanoseconds, some (call.read current)⟩
      (.other .lock)
      ⟨⟨loop, false, true, .looking fd Read⟩, current.nanoseconds, some (call.read current)⟩ :=
    .other trivial .lock
  have find := TimedStep.other
    (w := ⟨⟨loop, false, true, .looking fd Read⟩, current.nanoseconds, some (call.read current)⟩)
    (show Untimed .find from trivial) (Step.find known)
  rw [Option.map_some, counted] at find
  have called := (((Run.start.next wait).next arrive).next lock).next find
  exact (called.next (.other (show Untimed .invoke from trivial) .invoke)).next
    (.other (show Untimed .returned from trivial) .returned)

/-- With no time to wait, on a descriptor that is always ready. -/
theorem dispatch_watching : TimedStep { core := initial watching, now := 0 } (.dispatchFor ⟨0, 0⟩ ⟨1, 0⟩)
    (atTop watching 1000000000 { start := ⟨1, 0⟩, timeout := ⟨0, 0⟩ }) :=
  .dispatchFor (by decide) .dispatch

theorem stopsInTime_iff_once :
    ∃ w, Run TimedStep { core := initial watching, now := 0 }
        [.dispatchFor ⟨0, 0⟩ ⟨1, 0⟩, .waitFor ⟨1, 0⟩, .other (.arrive 5 Read), .other .lock, .other .find,
          .other .invoke, .other .returned] w ∧
      w.call.map Call.calls = some 1 ∧ StopsInTime w := by
  have run := (Run.start.next dispatch_watching).trans
    (busy_turn (show watching.interest 5 ≠ none by decide) rfl (show _ ≤ Clock.nanoseconds ⟨1, 0⟩ by decide))
  exact ⟨_, run, rfl, (stopsInTime_iff run).mpr (by decide)⟩

/-- A descriptor that is always ready is called any number of times past the deadline. -/
theorem busy_calls {loop : EventLoop κ} {fd : Fd} {callback : κ} {call : Call} {current : Clock}
    (watched : loop.interest fd ≠ none) (known : loop.callbacks fd = some callback)
    (late : call.deadline ≤ current.nanoseconds) (n : Nat) :
    ∃ labels busy, Run TimedStep (atTop loop current.nanoseconds call) labels
      (atTop loop current.nanoseconds busy) ∧ busy.calls = call.calls + n ∧ busy.deadline = call.deadline := by
  induction n with
  | zero => exact ⟨[], call, Run.start, rfl, rfl⟩
  | succ n ih =>
    obtain ⟨labels, busy, run, calls, same⟩ := ih
    refine ⟨_, _, run.trans (busy_turn watched known (same ▸ late)), ?_, same⟩
    show busy.calls + 1 = _
    rw [calls, Nat.add_assoc]

/-- With no time to wait, a loop calls three callbacks of a descriptor that is always ready. -/
theorem busy_never_stops :
    ∃ labels w, Run TimedStep { core := initial watching, now := 0 }
        (.dispatchFor ⟨0, 0⟩ ⟨1, 0⟩ :: labels) w ∧
      w.call.map Call.calls = some 3 ∧ ¬StopsInTime w := by
  obtain ⟨labels, busy, run, calls, _⟩ := @busy_calls Unit watching 5 ()
    { start := ⟨1, 0⟩, timeout := ⟨0, 0⟩ } ⟨1, 0⟩ (by decide) rfl (by decide) 3
  refine ⟨labels, _, (Run.start.next dispatch_watching).trans run, congrArg some calls, ?_⟩
  intro stops
  have one := stops busy rfl
  omega

end Timed

end EventLoop

end Hlib
