import Hlib.Endpoint
import Hlib.EventQueue

namespace Hlib

namespace TimerDescriptors

open Function (update update_self update_of_ne)
open Transition (Run)

/-- What a descriptor of the process refers to. -/
inductive Descriptor
  | timer (state : Timer)
  | loop (n : Nat)
  | other
  deriving DecidableEq

/-- The callbacks of a loop: of its own pipe, and `Timer::onExpire` of a timer. -/
inductive Callback
  | interrupt
  | onExpire (timer : Nat)
  deriving DecidableEq

/-- An `EventLoop` with its descriptors. -/
structure Loop where
  epoll : Fd
  readEnd : Fd
  writeEnd : Fd
  table : EventLoop Callback

inductive LoopState
  | unborn
  | alive (loop : Loop)
  | gone

/-- A `Timer`, on its own or the member of an `EventQueue`. -/
inductive Owner
  | user
  | eventQueue
  deriving DecidableEq

/-- `Timer`: its descriptor and the loop that its `weak_ptr` is about. An empty one is as one whose loop is gone. -/
structure TimerObject where
  fd : Fd
  eventLoop : Nat
  owner : Owner

structure State where
  descriptors : Fd → Option Descriptor
  loops : Nat → LoopState
  timers : Nat → Option TimerObject

namespace State

/-- `m_event_loop.lock()`. -/
def lock (s : State) (n : Nat) : Option Loop :=
  match s.loops n with
  | .alive loop => some loop
  | .unborn | .gone => none

def setTable (s : State) (n : Nat) (loop : Loop) (table : EventLoop Callback) : State :=
  { s with loops := update s.loops n (.alive { loop with table := table }) }

def close (s : State) (fd : Fd) : State := { s with descriptors := update s.descriptors fd none }

def opened (s : State) (fd : Fd) (descriptor : Descriptor) : State :=
  { s with descriptors := update s.descriptors fd (some descriptor) }

/-- `EventLoop::EventLoop()`, where `epoll_create1` and the pipe give these descriptors. -/
def createLoop (s : State) (n : Nat) (epoll readEnd writeEnd : Fd) : Checked (Result State) := do
  let s := ((s.opened epoll (.loop n)).opened readEnd (.loop n)).opened writeEnd (.loop n)
  match ← EventLoop.add ⟨fun _ => none, fun _ => none⟩ readEnd EventLoop.Read .interrupt none with
  | .error error => .ok (.error error)
  | .ok table => .ok (.ok { s with loops := update s.loops n (.alive ⟨epoll, readEnd, writeEnd, table⟩) })

/-- `EventLoop::~EventLoop()`, after which every `weak_ptr` to the loop has expired. -/
def destroyLoop (s : State) (n : Nat) (loop : Loop) : State :=
  let s := ((s.close loop.epoll).close loop.readEnd).close loop.writeEnd
  { s with loops := update s.loops n .gone }

/-- `Timer::Timer(event_loop, callback)`, where `timerfd_create` returns `fd` and `ctl` is the error with which
`EventLoop::add` throws, if any. No destructor runs for an object whose constructor throws. -/
def construct (s : State) (id : Nat) (owner : Owner) (n : Nat) (fd : Fd) (ctl : Option Errno) :
    Checked (Result Unit × State) := do
  require (fd ≠ -1) .assertion
  let s := s.opened fd (.timer {})
  let made := { s with timers := update s.timers id (some ⟨fd, n, owner⟩) }
  match s.lock n with
  | none => .ok (.ok (), made)
  | some loop =>
    match ← loop.table.add fd EventLoop.Read (.onExpire id) ctl with
    | .error error => .ok (.error error, s)
    | .ok table => .ok (.ok (), made.setTable n loop table)

/-- `timerfd_settime`; `failure` is an error other than `EBADF` and `EINVAL` for what is no timer. -/
def settime (s : State) (timer : TimerObject) (state : Timer) (failure : Bool) : Bool × State :=
  match s.descriptors timer.fd with
  | some (.timer _) => if failure then (false, s) else (true, s.opened timer.fd (.timer state))
  | _ => (false, s)

/-- `Timer::set(expire, interval)`. -/
def set (s : State) (timer : TimerObject) (failure : Bool) : Bool × State := s.settime timer .set failure

/-- `Timer::clear()`. -/
def clear (s : State) (timer : TimerObject) (failure : Bool) : Bool × State := s.settime timer .clear failure

/-- `Timer::~Timer()`. -/
def destruct (s : State) (id : Nat) (timer : TimerObject) : Checked State := do
  let gone := { s with timers := update s.timers id none }
  if timer.fd = -1 then .ok gone
  else do
    let removed ← match s.lock timer.eventLoop with
      | none => .ok gone
      | some loop => do
        let table ← loop.table.remove timer.fd
        .ok (gone.setTable timer.eventLoop loop table)
    if timer.fd = -1 then .ok (removed.close timer.fd) else .ok removed

end State

inductive Label
  | createLoop (n : Nat) (epoll readEnd writeEnd : Fd)
  | destroyLoop (n : Nat)
  | create (id : Nat) (owner : Owner) (n : Nat) (fd : Fd) (ctl : Option Errno)
  | set (id : Nat) (failure : Bool)
  | clear (id : Nat) (failure : Bool)
  /-- `EventQueue::push`, which sets the timer of the queue. -/
  | push (id : Nat) (failure : Bool)
  /-- `Timer::~Timer`, also as the member of an `EventQueue` that is destroyed. -/
  | destroy (id : Nat)

/-- The kernel gives descriptors that are not open. -/
inductive Step : State → Label → State → Prop
  | createLoop {s t n epoll readEnd writeEnd} (unborn : s.loops n = .unborn)
      (free : ∀ fd ∈ [epoll, readEnd, writeEnd], s.descriptors fd = none) (apart : [epoll, readEnd, writeEnd].Nodup)
      (made : s.createLoop n epoll readEnd writeEnd = .ok (.ok t)) : Step s (.createLoop n epoll readEnd writeEnd) t
  | destroyLoop {s n loop} (alive : s.loops n = .alive loop) : Step s (.destroyLoop n) (s.destroyLoop n loop)
  | create {s t id owner n fd ctl result} (fresh : s.timers id = none) (born : s.loops n ≠ .unborn)
      (free : s.descriptors fd = none) (made : s.construct id owner n fd ctl = .ok (result, t)) :
      Step s (.create id owner n fd ctl) t
  | set {s id timer failure} (live : s.timers id = some timer) : Step s (.set id failure) (s.set timer failure).2
  | clear {s id timer failure} (live : s.timers id = some timer) : Step s (.clear id failure) (s.clear timer failure).2
  | push {s id timer failure} (live : s.timers id = some timer) (queue : timer.owner = .eventQueue) :
      Step s (.push id failure) (s.set timer failure).2
  | destroy {s t id timer} (live : s.timers id = some timer) (destroyed : s.destruct id timer = .ok t) :
      Step s (.destroy id) t

/-- The process before it creates the first loop, with the descriptors it has open. -/
def start (occupied : Fd → Bool) : State where
  descriptors fd := if occupied fd then some .other else none
  loops _ := .unborn
  timers _ := none

/-- A descriptor that a live timer owns. -/
def State.Owned (s : State) (fd : Fd) : Prop := ∃ id timer, s.timers id = some timer ∧ timer.fd = fd

def State.IsTimer (s : State) (fd : Fd) : Prop := ∃ state, s.descriptors fd = some (.timer state)

/-- The open timer descriptors are the ones that live timers own, and a live loop knows no others. -/
structure NoLeak (s : State) : Prop where
  owned : ∀ fd, s.IsTimer fd ↔ s.Owned fd
  registered : ∀ n loop fd, s.loops n = .alive loop → s.IsTimer fd →
    loop.table.interest fd ≠ none ∨ loop.table.callbacks fd ≠ none → s.Owned fd

/-- The steps that leave a descriptor open that nobody owns. -/
def Leaks (s : State) : Label → Prop
  | .destroy _ => True
  | .create _ _ n _ ctl => ctl ≠ none ∧ s.lock n ≠ none
  | _ => False

section Descriptors

variable {s t : State} {fd x : Fd} {n : Nat}

theorem isTimer_close : (s.close fd).IsTimer x ↔ x ≠ fd ∧ s.IsTimer x := by
  unfold State.IsTimer State.close
  by_cases own : x = fd
  · simp [own]
  · simp [own]

theorem isTimer_opened_loop : (s.opened fd (.loop n)).IsTimer x ↔ x ≠ fd ∧ s.IsTimer x := by
  unfold State.IsTimer State.opened
  by_cases own : x = fd
  · simp [own]
  · simp [own]

theorem isTimer_opened_timer {state : Timer} : (s.opened fd (.timer state)).IsTimer x ↔ x = fd ∨ s.IsTimer x := by
  unfold State.IsTimer State.opened
  by_cases own : x = fd
  · simp [own]
  · simp [own]

theorem ne_of_timer (timer : s.IsTimer x) (closed : ¬s.IsTimer fd) : x ≠ fd := by
  rintro rfl
  exact closed timer

theorem close_of_ne (other : x ≠ fd) : (s.close fd).descriptors x = s.descriptors x := update_of_ne other _ _

theorem opened_of_ne {descriptor : Descriptor} (other : x ≠ fd) :
    (s.opened fd descriptor).descriptors x = s.descriptors x := update_of_ne other _ _

theorem opened_self {descriptor : Descriptor} : (s.opened fd descriptor).descriptors fd = some descriptor :=
  update_self _ _ _

theorem lock_some {loop : Loop} (h : s.lock n = some loop) : s.loops n = .alive loop := by
  unfold State.lock at h
  split at h
  next alive => cases h; exact alive
  next => cases h
  next => cases h

theorem lock_none (h : s.lock n = none) (loop : Loop) : s.loops n ≠ .alive loop := by
  intro alive
  unfold State.lock at h
  rw [alive] at h
  cases h

/-- The descriptors of a loop are no timers. -/
def Held (s : State) (n : Nat) (fd : Fd) : Prop := s.descriptors fd = some (.loop n)

theorem Held.not_timer (held : Held s n fd) : ¬s.IsTimer fd := by
  rintro ⟨state, timer⟩
  cases held.symm.trans timer

end Descriptors

/-- What holds at any time, leaks or not. -/
structure Inv (s : State) : Prop where
  timer : ∀ id timer, s.timers id = some timer →
    timer.fd ≠ -1 ∧ s.IsTimer timer.fd ∧ s.loops timer.eventLoop ≠ .unborn
  distinct : ∀ i j timer other, s.timers i = some timer → s.timers j = some other → timer.fd = other.fd → i = j
  known : ∀ id timer loop, s.timers id = some timer → s.loops timer.eventLoop = .alive loop →
    loop.table.callbacks timer.fd ≠ none ∧ loop.table.interest timer.fd ≠ none
  registered : ∀ n loop fd, s.loops n = .alive loop →
    loop.table.interest fd ≠ none ∨ loop.table.callbacks fd ≠ none →
      fd = loop.readEnd ∨ ∃ id timer, s.timers id = some timer ∧ timer.fd = fd ∧ timer.eventLoop = n
  ends : ∀ n loop, s.loops n = .alive loop → Held s n loop.epoll ∧ Held s n loop.readEnd ∧ Held s n loop.writeEnd

section Steps

variable {s t : State}

theorem inv_start (occupied : Fd → Bool) : Inv (start occupied) := by
  constructor
  case timer => intro id timer live; cases live
  case distinct => intro i j timer other live; cases live
  case known => intro id timer loop live; cases live
  case registered => intro n loop fd alive; cases alive
  case ends => intro n loop alive; cases alive

theorem createLoop_ok {n : Nat} {epoll readEnd writeEnd : Fd}
    (h : s.createLoop n epoll readEnd writeEnd = .ok (.ok t)) : ∃ table : EventLoop Callback,
      (∀ fd, table.interest fd ≠ none ∨ table.callbacks fd ≠ none → fd = readEnd) ∧
        t = { ((s.opened epoll (.loop n)).opened readEnd (.loop n)).opened writeEnd (.loop n) with
          loops := update s.loops n (.alive ⟨epoll, readEnd, writeEnd, table⟩) } := by
  obtain ⟨result, added, h⟩ := bind_ok h
  cases result with
  | error error => cases h
  | ok table =>
    obtain ⟨-, -, -, -, rfl⟩ := EventLoop.add_ok added
    cases h
    refine ⟨_, fun fd entry => ?_, rfl⟩
    by_contra other
    dsimp only at entry
    rw [update_of_ne other, update_of_ne other] at entry
    exact entry.elim (fun h => h rfl) fun h => h rfl

/-- The timers when one has come or gone. -/
theorem update_cases {id i : Nat} {value : Option TimerObject} {timer : TimerObject}
    (h : update s.timers id value i = some timer) :
    i = id ∧ value = some timer ∨ i ≠ id ∧ s.timers i = some timer := by
  by_cases own : i = id
  · rw [own, update_self] at h
    exact .inl ⟨own, h⟩
  · rw [update_of_ne own] at h
    exact .inr ⟨own, h⟩

theorem ne_of_fresh {id i : Nat} {timer : TimerObject} (fresh : s.timers id = none) (live : s.timers i = some timer) :
    i ≠ id := by
  rintro rfl
  cases fresh.symm.trans live

/-- A loop that no timer is on leaves the timers alone when it comes or goes. -/
theorem alive_update {n m : Nat} {state : LoopState} {loop : Loop} (other : m ≠ n)
    (h : update s.loops n state m = .alive loop) : s.loops m = .alive loop := by
  rwa [update_of_ne other] at h

theorem Inv.createLoop (inv : Inv s) {n : Nat} {epoll readEnd writeEnd : Fd} (unborn : s.loops n = .unborn)
    (free : ∀ fd ∈ [epoll, readEnd, writeEnd], s.descriptors fd = none) (apart : [epoll, readEnd, writeEnd].Nodup)
    (made : s.createLoop n epoll readEnd writeEnd = .ok (.ok t)) :
    Inv t ∧ t.timers = s.timers ∧ ∀ fd, t.IsTimer fd ↔ s.IsTimer fd := by
  obtain ⟨table, entries, rfl⟩ := createLoop_ok made
  have closed (fd : Fd) (member : fd ∈ [epoll, readEnd, writeEnd]) : ¬s.IsTimer fd := by
    rintro ⟨state, open_⟩
    cases (free fd member).symm.trans open_
  have timers (fd : Fd) : (((s.opened epoll (.loop n)).opened readEnd (.loop n)).opened writeEnd (.loop n)).IsTimer fd ↔
      s.IsTimer fd := by
    rw [isTimer_opened_loop, isTimer_opened_loop, isTimer_opened_loop]
    refine ⟨fun h => h.2.2.2, fun h => ⟨?_, ?_, ?_, h⟩⟩
    · exact ne_of_timer h (closed writeEnd (by simp))
    · exact ne_of_timer h (closed readEnd (by simp))
    · exact ne_of_timer h (closed epoll (by simp))
  have kept {m : Nat} {fd : Fd} (held : Held s m fd) :
      Held (((s.opened epoll (.loop n)).opened readEnd (.loop n)).opened writeEnd (.loop n)) m fd := by
    have other (own : Fd) (member : own ∈ [epoll, readEnd, writeEnd]) : fd ≠ own := by
      rintro rfl
      cases held.symm.trans (free fd member)
    unfold Held
    rw [opened_of_ne (other writeEnd (by simp)), opened_of_ne (other readEnd (by simp)),
      opened_of_ne (other epoll (by simp))]
    exact held
  simp only [List.nodup_cons, List.mem_cons, List.not_mem_nil, or_false, not_or, not_false_eq_true, List.nodup_nil,
    and_true] at apart
  have on {id : Nat} {timer : TimerObject} (live : s.timers id = some timer) : timer.eventLoop ≠ n := by
    rintro rfl
    exact (inv.timer id timer live).2.2 unborn
  refine ⟨?_, rfl, timers⟩
  constructor
  case timer =>
    intro id timer live
    obtain ⟨valid, open_, born⟩ := inv.timer id timer live
    refine ⟨valid, (timers timer.fd).mpr open_, ?_⟩
    show update s.loops n _ timer.eventLoop ≠ .unborn
    rwa [update_of_ne (on live)]
  case distinct => exact inv.distinct
  case known => exact fun id timer loop live alive => inv.known id timer loop live (alive_update (on live) alive)
  case registered =>
    intro m loop fd alive entry
    by_cases own : m = n
    · subst own
      have same : update s.loops m _ m = .alive loop := alive
      rw [update_self] at same
      cases same
      exact .inl (entries fd entry)
    · exact inv.registered m loop fd (alive_update own alive) entry
  case ends =>
    intro m loop alive
    by_cases own : m = n
    · subst own
      have same : update s.loops m _ m = .alive loop := alive
      rw [update_self] at same
      cases same
      refine ⟨?_, ?_, opened_self⟩
      · show State.descriptors _ epoll = _
        rw [opened_of_ne apart.1.2, opened_of_ne apart.1.1, opened_self]
      · show State.descriptors _ readEnd = _
        rw [opened_of_ne apart.2, opened_self]
    · obtain ⟨epoll_, readEnd_, writeEnd_⟩ := inv.ends m loop (alive_update own alive)
      exact ⟨kept epoll_, kept readEnd_, kept writeEnd_⟩

theorem Inv.destroyLoop (inv : Inv s) {n : Nat} {loop : Loop} (alive : s.loops n = .alive loop) :
    Inv (s.destroyLoop n loop) ∧ (s.destroyLoop n loop).timers = s.timers ∧
      ∀ fd, (s.destroyLoop n loop).IsTimer fd ↔ s.IsTimer fd := by
  obtain ⟨epoll, readEnd, writeEnd⟩ := inv.ends n loop alive
  have timers (fd : Fd) : (((s.close loop.epoll).close loop.readEnd).close loop.writeEnd).IsTimer fd ↔
      s.IsTimer fd := by
    rw [isTimer_close, isTimer_close, isTimer_close]
    refine ⟨fun h => h.2.2.2, fun h => ⟨?_, ?_, ?_, h⟩⟩
    · exact ne_of_timer h writeEnd.not_timer
    · exact ne_of_timer h readEnd.not_timer
    · exact ne_of_timer h epoll.not_timer
  have kept {m : Nat} {fd : Fd} (other : m ≠ n) (held : Held s m fd) :
      Held (((s.close loop.epoll).close loop.readEnd).close loop.writeEnd) m fd := by
    have apart {own : Fd} (mine : Held s n own) : fd ≠ own := by
      rintro rfl
      cases held.symm.trans mine
      exact other rfl
    unfold Held
    rw [close_of_ne (apart writeEnd), close_of_ne (apart readEnd), close_of_ne (apart epoll)]
    exact held
  have remains {m : Nat} {left : Loop} (h : update s.loops n .gone m = .alive left) :
      m ≠ n ∧ s.loops m = .alive left := by
    by_cases own : m = n
    · rw [own, update_self] at h
      cases h
    · exact ⟨own, alive_update own h⟩
  refine ⟨?_, rfl, timers⟩
  constructor
  case timer =>
    intro id timer live
    obtain ⟨valid, open_, born⟩ := inv.timer id timer live
    refine ⟨valid, (timers timer.fd).mpr open_, ?_⟩
    show update s.loops n _ timer.eventLoop ≠ .unborn
    by_cases own : timer.eventLoop = n
    · rw [own, update_self]
      nofun
    · rwa [update_of_ne own]
  case distinct => exact inv.distinct
  case known => exact fun id timer left live h => inv.known id timer left live (remains h).2
  case registered => exact fun m left fd h entry => inv.registered m left fd (remains h).2 entry
  case ends =>
    intro m left h
    obtain ⟨other, h⟩ := remains h
    obtain ⟨epoll_, readEnd_, writeEnd_⟩ := inv.ends m left h
    exact ⟨kept other epoll_, kept other readEnd_, kept other writeEnd_⟩

/-- Only the state of a timer in the kernel is another. -/
theorem settime_spec (s : State) (timer : TimerObject) (state : Timer) (failure : Bool) :
    let t := (s.settime timer state failure).2
    t.timers = s.timers ∧ t.loops = s.loops ∧ (∀ fd, t.IsTimer fd ↔ s.IsTimer fd) ∧
      ∀ n fd, Held s n fd → Held t n fd := by
  unfold State.settime
  split
  next old open_ =>
    split
    next => exact ⟨rfl, rfl, fun _ => Iff.rfl, fun _ _ => id⟩
    next =>
      refine ⟨rfl, rfl, fun fd => ?_, fun n fd held => ?_⟩
      · rw [isTimer_opened_timer]
        refine or_iff_right_of_imp ?_
        rintro rfl
        exact ⟨old, open_⟩
      · have other : fd ≠ timer.fd := by
          rintro rfl
          cases held.symm.trans open_
        exact (opened_of_ne other).trans held
  next => exact ⟨rfl, rfl, fun _ => Iff.rfl, fun _ _ => id⟩

theorem Inv.settime (inv : Inv s) (timer : TimerObject) (state : Timer) (failure : Bool) :
    Inv (s.settime timer state failure).2 := by
  obtain ⟨timers, loops, open_, held⟩ := settime_spec s timer state failure
  constructor
  case timer =>
    intro id timer live
    rw [timers] at live
    rw [open_, loops]
    exact inv.timer id timer live
  case distinct =>
    rw [timers]
    exact inv.distinct
  case known =>
    rw [timers, loops]
    exact inv.known
  case registered =>
    rw [timers, loops]
    exact inv.registered
  case ends =>
    intro n loop alive
    rw [loops] at alive
    obtain ⟨epoll, readEnd, writeEnd⟩ := inv.ends n loop alive
    exact ⟨held n _ epoll, held n _ readEnd, held n _ writeEnd⟩

/-- No timer owns a descriptor that is not open. -/
theorem Inv.closed (inv : Inv s) {fd : Fd} (free : s.descriptors fd = none) : ¬s.Owned fd := by
  rintro ⟨id, timer, live, rfl⟩
  obtain ⟨state, open_⟩ := (inv.timer id timer live).2.1
  cases free.symm.trans open_

/-- No loop knows it either. -/
theorem Inv.unknown (inv : Inv s) {n : Nat} {loop : Loop} (alive : s.loops n = .alive loop) {fd : Fd}
    (free : s.descriptors fd = none) : loop.table.interest fd = none ∧ loop.table.callbacks fd = none := by
  by_contra entry
  rw [not_and_or] at entry
  rcases inv.registered n loop fd alive entry with rfl | ⟨id, timer, live, same, -⟩
  · cases (inv.ends n loop alive).2.1.symm.trans free
  · exact inv.closed free ⟨id, timer, live, same⟩

/-- The table of one loop is changed, if the loop is still there. -/
def Tabled (s : State) (n : Nat) (change : EventLoop Callback → EventLoop Callback) (loops : Nat → LoopState) : Prop :=
  s.lock n = none ∧ loops = s.loops ∨
    ∃ loop, s.loops n = .alive loop ∧ loops = update s.loops n (.alive { loop with table := change loop.table })

/-- The entry of a descriptor in the table of a loop. -/
def entered (fd : Fd) (id : Nat) (table : EventLoop Callback) : EventLoop Callback :=
  { interest := update table.interest fd (some EventLoop.Read)
    callbacks := update table.callbacks fd (some (.onExpire id)) }

def removed (fd : Fd) (table : EventLoop Callback) : EventLoop Callback :=
  { interest := update table.interest fd none, callbacks := update table.callbacks fd none }

section Tables

variable {n : Nat} {fd : Fd} {change : EventLoop Callback → EventLoop Callback} {loops : Nat → LoopState}

/-- A loop of the new state is one of the old, with what it knew but for the entry that is changed. -/
theorem Tabled.earlier (tabled : Tabled s n change loops)
    (only : ∀ table x, x ≠ fd → (change table).callbacks x = table.callbacks x ∧
      (change table).interest x = table.interest x) {m : Nat} {loop : Loop} (h : loops m = .alive loop) :
    ∃ before, s.loops m = .alive before ∧
      (loop.epoll = before.epoll ∧ loop.readEnd = before.readEnd ∧ loop.writeEnd = before.writeEnd) ∧
      (m = n → loop.table = change before.table) ∧
      ∀ x, x ≠ fd ∨ m ≠ n → loop.table.callbacks x = before.table.callbacks x ∧
        loop.table.interest x = before.table.interest x := by
  rcases tabled with ⟨gone, rfl⟩ | ⟨own, alive, rfl⟩
  · refine ⟨loop, h, ⟨rfl, rfl, rfl⟩, ?_, fun _ _ => ⟨rfl, rfl⟩⟩
    rintro rfl
    exact absurd h (lock_none gone loop)
  · by_cases mine : m = n
    · subst mine
      rw [update_self] at h
      cases h
      exact ⟨own, alive, ⟨rfl, rfl, rfl⟩, fun _ => rfl, fun x other =>
        only own.table x (other.resolve_right (not_not.mpr rfl))⟩
    · exact ⟨loop, alive_update mine h, ⟨rfl, rfl, rfl⟩, fun own => absurd own mine, fun _ _ => ⟨rfl, rfl⟩⟩

theorem Tabled.later (tabled : Tabled s n change loops) {m : Nat} (h : s.loops m ≠ .unborn) : loops m ≠ .unborn := by
  rcases tabled with ⟨-, rfl⟩ | ⟨own, -, rfl⟩
  · exact h
  · by_cases mine : m = n
    · rw [mine, update_self]
      nofun
    · rwa [update_of_ne mine]

theorem entered_only {id : Nat} (table : EventLoop Callback) (x : Fd) (other : x ≠ fd) :
    (entered fd id table).callbacks x = table.callbacks x ∧ (entered fd id table).interest x = table.interest x :=
  ⟨update_of_ne other _ _, update_of_ne other _ _⟩

theorem removed_only (table : EventLoop Callback) (x : Fd) (other : x ≠ fd) :
    (removed fd table).callbacks x = table.callbacks x ∧ (removed fd table).interest x = table.interest x :=
  ⟨update_of_ne other _ _, update_of_ne other _ _⟩

end Tables

/-- The constructor leaves a timer behind, or throws and leaves its descriptor open. -/
theorem construct_ok (inv : Inv s) {id : Nat} {owner : Owner} {n : Nat} {fd : Fd} {ctl : Option Errno}
    {result : Result Unit} (free : s.descriptors fd = none) (made : s.construct id owner n fd ctl = .ok (result, t)) :
    fd ≠ -1 ∧ (ctl ≠ none ∧ s.lock n ≠ none ∧ t = s.opened fd (.timer {}) ∨
      (ctl = none ∨ s.lock n = none) ∧ ∃ loops,
        t = { s.opened fd (.timer {}) with timers := update s.timers id (some ⟨fd, n, owner⟩), loops := loops } ∧
          Tabled s n (entered fd id) loops) := by
  obtain ⟨_, valid, made⟩ := bind_ok made
  refine ⟨require_ok valid, ?_⟩
  have same : (s.opened fd (.timer {})).lock n = s.lock n := rfl
  cases locked : s.lock n with
  | none =>
    simp only [same, locked] at made
    cases made
    exact .inr ⟨.inr rfl, s.loops, rfl, .inl ⟨locked, rfl⟩⟩
  | some loop =>
    have alive := lock_some locked
    obtain ⟨unwatched, uncalled⟩ := inv.unknown alive free
    simp only [same, locked] at made
    obtain ⟨added, adding, made⟩ := bind_ok made
    cases ctl with
    | some error =>
      have refused : loop.table.add fd EventLoop.Read (.onExpire id) (some error) = .ok (.error error) := by
        unfold EventLoop.add
        rw [require_of (require_ok valid), ok_bind, require_of uncalled, ok_bind, unwatched]
      cases refused.symm.trans adding
      cases made
      exact .inl ⟨nofun, nofun, rfl⟩
    | none =>
      cases (EventLoop.add_unknown (require_ok valid) uncalled unwatched _ _).symm.trans adding
      cases made
      exact .inr ⟨.inl rfl, _, rfl, .inr ⟨loop, alive, rfl⟩⟩

theorem held_opened {fd x : Fd} {n : Nat} {descriptor : Descriptor} (free : s.descriptors fd = none) (held : Held s n x) :
    Held (s.opened fd descriptor) n x := by
  have other : x ≠ fd := by
    rintro rfl
    cases held.symm.trans free
  exact (opened_of_ne other).trans held

theorem Inv.thrown (inv : Inv s) {fd : Fd} (free : s.descriptors fd = none) : Inv (s.opened fd (.timer {})) := by
  constructor
  case timer =>
    intro id timer live
    obtain ⟨valid, open_, born⟩ := inv.timer id timer live
    exact ⟨valid, isTimer_opened_timer.mpr (.inr open_), born⟩
  case distinct => exact inv.distinct
  case known => exact inv.known
  case registered => exact inv.registered
  case ends =>
    intro n loop alive
    obtain ⟨epoll, readEnd, writeEnd⟩ := inv.ends n loop alive
    exact ⟨held_opened free epoll, held_opened free readEnd, held_opened free writeEnd⟩

/-- The loop of a new timer knows it by its descriptor; all else is as before. -/
theorem Inv.made (inv : Inv s) {id : Nat} {owner : Owner} {n : Nat} {fd : Fd} {loops : Nat → LoopState}
    (fresh : s.timers id = none) (born : s.loops n ≠ .unborn) (free : s.descriptors fd = none) (valid : fd ≠ -1)
    (tabled : Tabled s n (entered fd id) loops) :
    Inv { s.opened fd (.timer {}) with timers := update s.timers id (some ⟨fd, n, owner⟩), loops := loops } := by
  have unowned {i : Nat} {timer : TimerObject} (live : s.timers i = some timer) : timer.fd ≠ fd :=
    fun same => inv.closed free ⟨i, timer, live, same⟩
  have timers {i : Nat} {timer : TimerObject} (h : update s.timers id (some ⟨fd, n, owner⟩) i = some timer) :
      i = id ∧ timer = ⟨fd, n, owner⟩ ∨ i ≠ id ∧ s.timers i = some timer := by
    rcases update_cases h with ⟨own, same⟩ | old
    · exact .inl ⟨own, (Option.some.inj same).symm⟩
    · exact .inr old
  constructor
  case timer =>
    intro i timer h
    rcases timers h with ⟨rfl, rfl⟩ | ⟨-, live⟩
    · exact ⟨valid, isTimer_opened_timer.mpr (.inl rfl), tabled.later born⟩
    · obtain ⟨nonnegative, open_, known⟩ := inv.timer i timer live
      exact ⟨nonnegative, isTimer_opened_timer.mpr (.inr open_), tabled.later known⟩
  case distinct =>
    intro i j timer other h g same
    rcases timers h with ⟨rfl, rfl⟩ | ⟨-, live⟩
    · rcases timers g with ⟨rfl, rfl⟩ | ⟨-, live'⟩
      · rfl
      · exact absurd same.symm (unowned live')
    · rcases timers g with ⟨rfl, rfl⟩ | ⟨-, live'⟩
      · exact absurd same (unowned live)
      · exact inv.distinct i j timer other live live' same
  case known =>
    intro i timer loop h alive
    obtain ⟨before, known, -, new, old⟩ := tabled.earlier entered_only alive
    rcases timers h with ⟨rfl, rfl⟩ | ⟨-, live⟩
    · rw [new rfl]
      simp only [entered, update_self]
      exact ⟨nofun, nofun⟩
    · obtain ⟨callbacks, interest⟩ := old timer.fd (.inl (unowned live))
      rw [callbacks, interest]
      exact inv.known i timer before live known
  case registered =>
    intro m loop x alive entry
    obtain ⟨before, known, ⟨-, readEnd, -⟩, -, old⟩ := tabled.earlier entered_only alive
    by_cases own : x = fd ∧ m = n
    · obtain ⟨rfl, rfl⟩ := own
      exact .inr ⟨id, _, update_self _ _ _, rfl, rfl⟩
    · obtain ⟨callbacks, interest⟩ := old x (not_and_or.mp own)
      rw [callbacks, interest] at entry
      rw [readEnd]
      refine (inv.registered m before x known entry).imp_right ?_
      rintro ⟨i, timer, live, place⟩
      exact ⟨i, timer, (update_of_ne (ne_of_fresh fresh live) _ _).trans live, place⟩
  case ends =>
    intro m loop alive
    obtain ⟨before, known, ⟨epoll, readEnd, writeEnd⟩, -, -⟩ := tabled.earlier entered_only alive
    obtain ⟨epoll_, readEnd_, writeEnd_⟩ := inv.ends m before known
    rw [epoll, readEnd, writeEnd]
    exact ⟨held_opened free epoll_, held_opened free readEnd_, held_opened free writeEnd_⟩

/-- The destructor takes the timer from its loop, but `-1 == m_fd` does not hold where the descriptor is closed. -/
theorem destruct_ok (inv : Inv s) {id : Nat} {timer : TimerObject} (live : s.timers id = some timer) :
    ∃ loops, s.destruct id timer = .ok { s with timers := update s.timers id none, loops := loops } ∧
      Tabled s timer.eventLoop (removed timer.fd) loops := by
  obtain ⟨valid, -, -⟩ := inv.timer id timer live
  unfold State.destruct
  simp only [if_neg valid]
  cases locked : s.lock timer.eventLoop with
  | none => exact ⟨s.loops, rfl, .inl ⟨locked, rfl⟩⟩
  | some loop =>
    have alive := lock_some locked
    obtain ⟨called, watched⟩ := inv.known id timer loop live alive
    refine ⟨_, ?_, .inr ⟨loop, alive, rfl⟩⟩
    simp only [EventLoop.remove_known valid called watched, ok_bind]
    rfl

theorem Inv.destroyed (inv : Inv s) {id : Nat} {timer : TimerObject} (live : s.timers id = some timer)
    {loops : Nat → LoopState} (tabled : Tabled s timer.eventLoop (removed timer.fd) loops) :
    Inv { s with timers := update s.timers id none, loops := loops } := by
  have timers {i : Nat} {other : TimerObject} (h : update s.timers id none i = some other) :
      i ≠ id ∧ s.timers i = some other := by
    rcases update_cases h with ⟨-, absent⟩ | old
    · cases absent
    · exact old
  have apart {i : Nat} {other : TimerObject} (h : i ≠ id) (live' : s.timers i = some other) : other.fd ≠ timer.fd :=
    fun same => h (inv.distinct i id other timer live' live same)
  constructor
  case timer =>
    intro i other h
    obtain ⟨valid, open_, born⟩ := inv.timer i other (timers h).2
    exact ⟨valid, open_, tabled.later born⟩
  case distinct => exact fun i j other another h g => inv.distinct i j other another (timers h).2 (timers g).2
  case known =>
    intro i other loop h alive
    obtain ⟨different, live'⟩ := timers h
    obtain ⟨before, known, -, -, old⟩ := tabled.earlier removed_only alive
    obtain ⟨callbacks, interest⟩ := old other.fd (.inl (apart different live'))
    rw [callbacks, interest]
    exact inv.known i other before live' known
  case registered =>
    intro m loop x alive entry
    obtain ⟨before, known, ⟨-, readEnd, -⟩, new, old⟩ := tabled.earlier removed_only alive
    by_cases own : x = timer.fd ∧ m = timer.eventLoop
    · obtain ⟨rfl, mine⟩ := own
      rw [new mine] at entry
      simp only [removed, update_self] at entry
      exact (entry.elim (fun h => h rfl) fun h => h rfl).elim
    · obtain ⟨callbacks, interest⟩ := old x (not_and_or.mp own)
      rw [callbacks, interest] at entry
      rw [readEnd]
      refine (inv.registered m before x known entry).imp_right ?_
      rintro ⟨i, other, live', rfl, rfl⟩
      have different : i ≠ id := by
        rintro rfl
        cases live.symm.trans live'
        exact own ⟨rfl, rfl⟩
      exact ⟨i, other, (update_of_ne different _ _).trans live', rfl, rfl⟩
  case ends =>
    intro m loop alive
    obtain ⟨before, known, ⟨epoll, readEnd, writeEnd⟩, -, -⟩ := tabled.earlier removed_only alive
    rw [epoll, readEnd, writeEnd]
    exact inv.ends m before known

theorem Inv.step {label : Label} (inv : Inv s) (step : Step s label t) : Inv t := by
  cases step with
  | createLoop unborn free apart made => exact (inv.createLoop unborn free apart made).1
  | destroyLoop alive => exact (inv.destroyLoop alive).1
  | create fresh born free made =>
    obtain ⟨valid, ⟨-, -, rfl⟩ | ⟨-, loops, rfl, tabled⟩⟩ := construct_ok inv free made
    · exact inv.thrown free
    · exact inv.made fresh born free valid tabled
  | set live => exact inv.settime _ _ _
  | clear live => exact inv.settime _ _ _
  | push live queue => exact inv.settime _ _ _
  | destroy live destroyed =>
    obtain ⟨loops, left, tabled⟩ := destruct_ok inv live
    cases destroyed.symm.trans left
    exact inv.destroyed live tabled

theorem Inv.run {occupied : Fd → Bool} {labels : List Label} (run : Run Step (start occupied) labels s) : Inv s :=
  run.invariant (inv_start occupied) fun inv step => inv.step step

/-- No leak is a matter of who owns the open descriptors: a loop knows those of live timers only. -/
theorem noLeak_iff (inv : Inv s) : NoLeak s ↔ ∀ fd, s.IsTimer fd → s.Owned fd := by
  constructor
  · exact fun clean fd => (clean.owned fd).mp
  · intro owned
    refine ⟨fun fd => ⟨owned fd, ?_⟩, fun n loop fd alive timer entry => owned fd timer⟩
    rintro ⟨id, timer, live, rfl⟩
    exact (inv.timer id timer live).2.1

theorem noLeak_same (inv : Inv s) (inv' : Inv t) (timers : t.timers = s.timers)
    (open_ : ∀ fd, t.IsTimer fd ↔ s.IsTimer fd) : NoLeak t ↔ NoLeak s := by
  rw [noLeak_iff inv, noLeak_iff inv']
  unfold State.Owned
  simp only [open_, timers]

/-- A descriptor that is open and nobody's is a leak. -/
theorem leak {fd : Fd} (timer : s.IsTimer fd) (unowned : ¬s.Owned fd) : ¬NoLeak s :=
  fun clean => unowned ((clean.owned fd).mp timer)

/-- From a state without a leak, a step leads to another one exactly if it leaves no descriptor behind. -/
theorem noLeak_step {label : Label} (inv : Inv s) (clean : NoLeak s) (step : Step s label t) :
    NoLeak t ↔ ¬Leaks s label := by
  have inv' := inv.step step
  cases step with
  | createLoop unborn free apart made =>
    obtain ⟨-, timers, open_⟩ := inv.createLoop unborn free apart made
    exact iff_of_true ((noLeak_same inv inv' timers open_).mpr clean) id
  | destroyLoop alive =>
    obtain ⟨-, timers, open_⟩ := inv.destroyLoop alive
    exact iff_of_true ((noLeak_same inv inv' timers open_).mpr clean) id
  | @create _ id owner n fd ctl result fresh born free made =>
    obtain ⟨valid, ⟨throws, alive, rfl⟩ | ⟨returns, loops, rfl, tabled⟩⟩ := construct_ok inv free made
    · exact iff_of_false (leak (isTimer_opened_timer.mpr (.inl rfl)) (inv.closed free)) (not_not.mpr ⟨throws, alive⟩)
    · refine iff_of_true ((noLeak_iff inv').mpr fun x timer => ?_) fun leaks =>
        returns.elim leaks.1 leaks.2
      rcases isTimer_opened_timer.mp timer with rfl | before
      · exact ⟨id, _, update_self _ _ _, rfl⟩
      · obtain ⟨i, own, live, same⟩ := (clean.owned x).mp before
        exact ⟨i, own, (update_of_ne (ne_of_fresh fresh live) _ _).trans live, same⟩
  | set live =>
    obtain ⟨timers, -, open_, -⟩ := settime_spec s _ _ _
    exact iff_of_true ((noLeak_same inv inv' timers open_).mpr clean) id
  | clear live =>
    obtain ⟨timers, -, open_, -⟩ := settime_spec s _ _ _
    exact iff_of_true ((noLeak_same inv inv' timers open_).mpr clean) id
  | push live queue =>
    obtain ⟨timers, -, open_, -⟩ := settime_spec s _ _ _
    exact iff_of_true ((noLeak_same inv inv' timers open_).mpr clean) id
  | @destroy _ id timer live destroyed =>
    obtain ⟨loops, left, tabled⟩ := destruct_ok inv live
    cases destroyed.symm.trans left
    refine iff_of_false (@leak _ timer.fd (inv.timer id timer live).2.1 ?_) (not_not.mpr trivial)
    rintro ⟨i, other, h, same⟩
    rcases update_cases h with ⟨-, absent⟩ | ⟨different, live'⟩
    · cases absent
    · exact different (inv.distinct i id other timer live' live same)

end Steps

/-- A run is without leaks if and only if it destroys no timer and no constructor throws in it. -/
theorem timers_noLeak_iff (occupied : Fd → Bool) (labels : List Label) :
    (∀ done rest s, labels = done ++ rest → Run Step (start occupied) done s → NoLeak s) ↔
      ∀ done label rest s t, labels = done ++ label :: rest → Run Step (start occupied) done s → Step s label t →
        ¬Leaks s label := by
  have first : NoLeak (start occupied) := by
    refine (noLeak_iff (inv_start occupied)).mpr ?_
    rintro fd ⟨state, timer⟩
    have shut : (if occupied fd then some Descriptor.other else none) = some (.timer state) := timer
    split at shut <;> cases shut
  exact Transition.along_iff first (fun run clean step => noLeak_step (Inv.run run) clean step) labels

/-- A timer comes and goes, and its descriptor stays. -/
theorem timers_leak : ∃ s, Run Step (start fun _ => false)
    [.createLoop 0 3 4 5, .create 0 .user 0 6 none, .set 0 false, .destroy 0] s ∧ ¬NoLeak s := by
  have run : ∃ s, Run Step (start fun _ => false)
      [.createLoop 0 3 4 5, .create 0 .user 0 6 none, .set 0 false, .destroy 0] s ∧ s.IsTimer 6 ∧
        s.timers = update (update (fun _ => none) 0 (some ⟨6, 0, .user⟩)) 0 none := by
    have first := @Step.createLoop (start fun _ => false) _ 0 3 4 5 rfl (by decide) (by decide) rfl
    have second := (Run.start.next first).next (@Step.create _ _ 0 .user 0 6 none _ rfl (by nofun) (by decide) (by rfl))
    have third := second.next (@Step.set _ 0 ⟨6, 0, .user⟩ false rfl)
    exact ⟨_, third.next (@Step.destroy _ _ 0 ⟨6, 0, .user⟩ rfl rfl), ⟨.set, rfl⟩, rfl⟩
  obtain ⟨s, run, timer, timers⟩ := run
  refine ⟨s, run, leak timer ?_⟩
  rintro ⟨id, other, live, -⟩
  rw [timers] at live
  by_cases own : id = 0
  · rw [own, update_self] at live
    cases live
  · rw [update_of_ne own, update_of_ne own] at live
    cases live

end TimerDescriptors

end Hlib
