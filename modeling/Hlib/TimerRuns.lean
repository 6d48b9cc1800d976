import Hlib.Duration
import Hlib.Transition

namespace Hlib.TimerRuns

open Transition (Run)

/-- A timer descriptor of the kernel. -/
structure Descriptor where
  /-- When it expires next, in nanoseconds. -/
  due : Option Nat := none
  interval : Nat := 0
  /-- The expirations since it was last set or read. -/
  ticks : Nat := 0
  deriving DecidableEq, Repr

/-- The clock has come to `now`. -/
def Descriptor.elapse (now : Nat) (d : Descriptor) : Descriptor :=
  match d.due with
  | none => d
  | some due =>
    if due ≤ now then
      { d with
        due := if d.interval = 0 then none else some (due + d.interval)
        ticks := d.ticks + 1 }
    else d

/-- A `timespec` that the kernel takes. -/
def Valid (ts : Duration) : Prop := 0 ≤ ts.tvSec ∧ 0 ≤ ts.tvNsec ∧ ts.tvNsec < 1000000000

instance (ts : Duration) : Decidable (Valid ts) := inferInstanceAs (Decidable (_ ∧ _))

/-- `timerfd_settime(fd, 0, &ts, nullptr)`; it fails for a `ts` that is not valid. -/
def settime (now : Nat) (value interval : Duration) (d : Descriptor) : Bool × Descriptor :=
  if Valid value ∧ Valid interval then
    (true,
      { due := if value.nanoseconds = 0 then none else some (now + value.nanoseconds.toNat)
        interval := interval.nanoseconds.toNat
        ticks := 0 })
  else (false, d)

def immediateNsec : Int := 1000

/-- The `it_value` of `set`. -/
def firstOf (expire : Duration) : Duration :=
  if expire.tvSec = 0 ∧ expire.tvNsec = 0 then ⟨expire.tvSec, immediateNsec⟩ else expire

/-- `Timer::set(expire, interval)`. -/
def set (now : Nat) (expire interval : Duration) (d : Descriptor) : Bool × Descriptor :=
  settime now (firstOf expire) interval d

/-- `Timer::clear()`. -/
def clear (now : Nat) (d : Descriptor) : Bool × Descriptor := settime now ⟨0, 0⟩ ⟨0, 0⟩ d

/-- Where the dispatching thread stands. -/
inductive Stage
  | idle
  /-- In `onExpire`, before its `read`. -/
  | reported
  /-- Before `m_callback()`. -/
  | expired
  deriving DecidableEq, Repr

/-- A timer with its history since `set` or `clear` last succeeded: what was asked of it, the expirations that were
read, the calls of the callback, and whether one was due already. -/
structure State where
  now : Nat := 0
  descriptor : Descriptor := {}
  stage : Stage := .idle
  /-- The first expiration and the interval. -/
  plan : Option (Nat × Nat) := none
  consumed : Nat := 0
  called : Nat := 0
  inFlight : Bool := false
  /-- Whether that came behind the report. -/
  disturbed : Bool := false
  deriving DecidableEq, Repr

inductive Label
  | elapse
  | set (expire interval : Duration)
  | clear
  | report
  | read
  | failed
  | call
  deriving DecidableEq, Repr

/-- Another plan, or none. -/
def State.replan (s : State) (d : Descriptor) (plan : Option (Nat × Nat)) : State :=
  { s with
    descriptor := d
    plan := plan
    consumed := 0
    called := 0
    inFlight := decide (s.stage = .expired)
    disturbed := true }

/-- One nanosecond, a call from any thread, the callback included, or what the dispatching thread does. Its `read`
waits for an expiration. -/
inductive Step : State → Label → State → Prop
  | elapse {s} :
      Step s .elapse
        { s with
          now := s.now + 1
          descriptor := s.descriptor.elapse (s.now + 1) }
  | set {s expire interval d} (h : set s.now expire interval s.descriptor = (true, d)) :
      Step s (.set expire interval)
        (s.replan d (some (s.now + (firstOf expire).nanoseconds.toNat, interval.nanoseconds.toNat)))
  | refused {s expire interval d} (h : set s.now expire interval s.descriptor = (false, d)) :
      Step s (.set expire interval) { s with descriptor := d }
  | clear {s d} (h : clear s.now s.descriptor = (true, d)) : Step s .clear (s.replan d none)
  | report {s} (idle : s.stage = .idle) (readable : 0 < s.descriptor.ticks) :
      Step s .report
        { s with
          stage := .reported
          disturbed := false }
  | read {s} (reported : s.stage = .reported) (readable : 0 < s.descriptor.ticks) :
      Step s .read
        { s with
          descriptor := { s.descriptor with ticks := 0 }
          stage := .expired
          consumed := s.consumed + s.descriptor.ticks }
  | failed {s} (reported : s.stage = .reported) : Step s .failed { s with stage := .idle }
  | call {s} (expired : s.stage = .expired) :
      Step s .call
        { s with
          stage := .idle
          called := s.called + 1 }

/-- The expirations up to a time. -/
def expirations (first interval now : Nat) : Nat :=
  if now < first then 0 else if interval = 0 then 1 else (now - first) / interval + 1

/-- The expiration after a time. -/
def following (first interval now : Nat) : Option Nat :=
  if now < first then some first
  else if interval = 0 then none
  else some (first + expirations first interval now * interval)

/-- What was asked of the timer up to a time. -/
def planned (s : State) : Nat :=
  match s.plan with
  | none => 0
  | some (first, interval) => expirations first interval s.now

section Kernel

variable {now : Nat} {d d' : Descriptor} {value interval : Duration} {success : Bool}

theorem settime_cases (h : settime now value interval d = (success, d')) :
    success = false ∧ d' = d ∨ success = true ∧ Valid value ∧ d' =
      { due := if value.nanoseconds = 0 then none else some (now + value.nanoseconds.toNat)
        interval := interval.nanoseconds.toNat
        ticks := 0 } := by
  unfold settime at h
  split at h
  next valid =>
    obtain ⟨rfl, rfl⟩ := Prod.mk.inj h
    exact Or.inr ⟨rfl, valid.1, rfl⟩
  next =>
    obtain ⟨rfl, rfl⟩ := Prod.mk.inj h
    exact Or.inl ⟨rfl, rfl⟩

/-- A first expiration is never the zero that disarms. -/
theorem firstOf_pos {expire : Duration} (h : Valid (firstOf expire)) : 0 < (firstOf expire).nanoseconds := by
  by_cases zero : expire.tvSec = 0 ∧ expire.tvNsec = 0
  · rw [firstOf, if_pos zero, Duration.nanoseconds, zero.1]
    decide
  · rw [firstOf, if_neg zero] at h ⊢
    obtain ⟨sec, nsec, _⟩ := h
    rw [Duration.nanoseconds]
    omega

theorem elapse_due {due : Nat} (h : d.due = some due) (arrived : due ≤ now) :
    d.elapse now =
      { d with
        due := if d.interval = 0 then none else some (due + d.interval)
        ticks := d.ticks + 1 } := by
  unfold Descriptor.elapse
  rw [h]
  exact if_pos arrived

theorem elapse_early {due : Nat} (h : d.due = some due) (early : now < due) : d.elapse now = d := by
  unfold Descriptor.elapse
  rw [h]
  exact if_neg (Nat.not_le_of_lt early)

theorem elapse_none (h : d.due = none) : d.elapse now = d := by
  unfold Descriptor.elapse
  rw [h]

theorem elapse_ticks (now : Nat) (d : Descriptor) : d.ticks ≤ (d.elapse now).ticks := by
  unfold Descriptor.elapse
  split
  next => exact Nat.le_refl _
  next =>
    split
    next => exact Nat.le_succ _
    next => exact Nat.le_refl _

end Kernel

section Plan

variable {first interval now : Nat}

theorem expirations_early (early : now < first) : expirations first interval now = 0 := if_pos early

theorem expirations_once (reached : first ≤ now) : expirations first 0 now = 1 := by
  rw [expirations, if_neg (Nat.not_lt_of_le reached), if_pos rfl]

theorem expirations_repeated (reached : first ≤ now) (repeated : interval ≠ 0) :
    expirations first interval now = (now - first) / interval + 1 := by
  rw [expirations, if_neg (Nat.not_lt_of_le reached), if_neg repeated]

theorem following_early (early : now < first) : following first interval now = some first := if_pos early

theorem following_once (reached : first ≤ now) : following first 0 now = none := by
  rw [following, if_neg (Nat.not_lt_of_le reached), if_pos rfl]

theorem following_repeated (reached : first ≤ now) (repeated : interval ≠ 0) :
    following first interval now = some (first + expirations first interval now * interval) := by
  rw [following, if_neg (Nat.not_lt_of_le reached), if_neg repeated]

/-- The quotient grows in the nanosecond in which the next multiple is reached. -/
theorem passed_succ (reached : first ≤ now) (repeated : interval ≠ 0) :
    (now + 1 - first) / interval =
      if first + expirations first interval now * interval ≤ now + 1 then (now - first) / interval + 1
      else (now - first) / interval := by
  have positive : 0 < interval := Nat.pos_of_ne_zero repeated
  have step := Nat.div_add_mod (now - first) interval
  have part := Nat.mod_lt (now - first) positive
  rw [Nat.mul_comm] at step
  rw [expirations_repeated reached repeated]
  generalize (now - first) / interval = passed at step
  have product : (passed + 1) * interval = passed * interval + interval := Nat.succ_mul _ _
  split
  next arrived =>
    refine Nat.div_eq_of_lt_le ?_ ?_
    · omega
    · rw [Nat.succ_mul]
      omega
  next => exact Nat.div_eq_of_lt_le (by omega) (by omega)

/-- A descriptor that keeps to a plan. -/
structure Keeps (first interval now consumed : Nat) (d : Descriptor) : Prop where
  repeats : d.interval = interval
  due : d.due = following first interval now
  count : consumed + d.ticks = expirations first interval now

section Elapse

variable {consumed : Nat} {d : Descriptor}

theorem keeps_before (h : Keeps first interval now consumed d) (early : now + 1 < first) :
    Keeps first interval (now + 1) consumed (d.elapse (now + 1)) := by
  obtain ⟨same, due, count⟩ := h
  have before : now < first := by omega
  rw [following_early before] at due
  rw [expirations_early before] at count
  rw [elapse_early due early]
  refine ⟨same, ?_, ?_⟩
  · rw [following_early early]
    exact due
  · rw [expirations_early early]
    exact count

theorem keeps_first (h : Keeps first interval now consumed d) (at_first : now + 1 = first) :
    Keeps first interval (now + 1) consumed (d.elapse (now + 1)) := by
  obtain ⟨same, due, count⟩ := h
  have before : now < first := by omega
  have reached : first ≤ now + 1 := Nat.le_of_eq at_first.symm
  rw [following_early before] at due
  rw [expirations_early before] at count
  rw [elapse_due due reached]
  by_cases once : interval = 0
  · subst once
    refine ⟨same, ?_, ?_⟩
    · rw [following_once reached]
      exact if_pos same
    · rw [expirations_once reached, ← Nat.add_assoc, count]
  · have one : expirations first interval (now + 1) = 1 := by
      rw [expirations_repeated reached once, at_first, Nat.sub_self, Nat.zero_div]
    refine ⟨same, ?_, ?_⟩
    · rw [following_repeated reached once, one, Nat.one_mul, same]
      exact if_neg once
    · rw [one, ← Nat.add_assoc, count]

theorem keeps_once (h : Keeps first 0 now consumed d) (since : first ≤ now) :
    Keeps first 0 (now + 1) consumed (d.elapse (now + 1)) := by
  obtain ⟨same, due, count⟩ := h
  have reached : first ≤ now + 1 := Nat.le_succ_of_le since
  rw [following_once since] at due
  rw [expirations_once since] at count
  rw [elapse_none due]
  refine ⟨same, ?_, ?_⟩
  · rw [following_once reached]
    exact due
  · rw [expirations_once reached]
    exact count

theorem keeps_repeated (h : Keeps first interval now consumed d) (since : first ≤ now)
    (repeated : interval ≠ 0) : Keeps first interval (now + 1) consumed (d.elapse (now + 1)) := by
  obtain ⟨same, due, count⟩ := h
  have reached : first ≤ now + 1 := Nat.le_succ_of_le since
  have passed := passed_succ since repeated
  have now_ := expirations_repeated since repeated
  have next := expirations_repeated reached repeated
  rw [following_repeated since repeated] at due
  by_cases arrived : first + expirations first interval now * interval ≤ now + 1
  · have more : expirations first interval (now + 1) = expirations first interval now + 1 := by
      rw [next, now_, passed, if_pos arrived]
    rw [elapse_due due arrived]
    refine ⟨same, ?_, ?_⟩
    · rw [following_repeated reached repeated, more, same, Nat.succ_mul, ← Nat.add_assoc]
      exact if_neg repeated
    · rw [more, ← Nat.add_assoc, count]
  · have still : expirations first interval (now + 1) = expirations first interval now := by
      rw [next, now_, passed, if_neg arrived]
    rw [elapse_early due (Nat.lt_of_not_le arrived)]
    refine ⟨same, ?_, ?_⟩
    · rw [following_repeated reached repeated, still]
      exact due
    · rw [still]
      exact count

/-- A nanosecond later there is one expiration more just when one was due. -/
theorem keeps_elapse (h : Keeps first interval now consumed d) :
    Keeps first interval (now + 1) consumed (d.elapse (now + 1)) := by
  rcases Nat.lt_trichotomy (now + 1) first with early | at_first | later
  · exact keeps_before h early
  · exact keeps_first h at_first
  · have since : first ≤ now := Nat.le_of_lt_succ later
    by_cases once : interval = 0
    · subst once
      exact keeps_once h since
    · exact keeps_repeated h since once

end Elapse

theorem keeps_set {value repeats : Duration} (given : 0 < value.nanoseconds) :
    Keeps (now + value.nanoseconds.toNat) repeats.nanoseconds.toNat now 0
      { due := if value.nanoseconds = 0 then none else some (now + value.nanoseconds.toNat)
        interval := repeats.nanoseconds.toNat
        ticks := 0 } := by
  have early : now < now + value.nanoseconds.toNat := by omega
  refine ⟨rfl, ?_, ?_⟩
  · rw [following, if_pos early]
    exact if_neg (by omega)
  · exact (expirations_early early).symm

end Plan

section Runs

variable {s t : State} {label : Label} {labels : List Label}

/-- The descriptor keeps to what was asked of it. -/
def OnPlan (s : State) : Prop :=
  match s.plan with
  | none => s.descriptor.due = none ∧ s.descriptor.ticks = 0 ∧ s.consumed = 0
  | some (first, interval) => Keeps first interval s.now s.consumed s.descriptor

/-- Every call of the callback comes from an expiration that was read, and a report still stands unless `set` or
`clear` came behind it. -/
structure Accounted (s : State) : Prop where
  onPlan : OnPlan s
  called : s.called + (decide (s.stage = .expired)).toNat ≤ s.consumed + s.inFlight.toNat
  stands : s.stage = .reported → s.disturbed = false → 0 < s.descriptor.ticks
  fresh : s.stage = .reported → s.disturbed = true → s.consumed = 0

theorem onPlan_planned (h : OnPlan s) : s.consumed + s.descriptor.ticks = planned s := by
  unfold OnPlan at h
  unfold planned
  split at h
  next => rw [h.2.1, h.2.2]
  next => exact h.count

theorem replanned {d : Descriptor} {plan : Option (Nat × Nat)} (h : OnPlan (s.replan d plan)) :
    Accounted (s.replan d plan) where
  onPlan := h
  called := Nat.le_refl _
  stands _ undisturbed := by cases undisturbed
  fresh _ _ := rfl

theorem onPlan_elapse (h : OnPlan s) :
    OnPlan { s with
      now := s.now + 1
      descriptor := s.descriptor.elapse (s.now + 1) } := by
  unfold OnPlan at h ⊢
  cases asked : s.plan with
  | none =>
    rw [asked] at h
    rw [elapse_none h.1]
    exact h
  | some plan =>
    rw [asked] at h
    exact keeps_elapse h

theorem onPlan_read (h : OnPlan s) :
    OnPlan { s with
      descriptor := { s.descriptor with ticks := 0 }
      stage := .expired
      consumed := s.consumed + s.descriptor.ticks } := by
  unfold OnPlan at h ⊢
  cases asked : s.plan with
  | none =>
    rw [asked] at h
    obtain ⟨due, ticks, consumed⟩ := h
    exact ⟨due, rfl, by rw [ticks, consumed]⟩
  | some plan =>
    rw [asked] at h
    obtain ⟨repeats, due, count⟩ := h
    exact ⟨repeats, due, count⟩

theorem step_accounted (h : Accounted s) (hs : Step s label t) : Accounted t := by
  have called := h.called
  cases hs with
  | elapse =>
    exact ⟨onPlan_elapse h.onPlan, called, fun reported undisturbed =>
      Nat.lt_of_lt_of_le (h.stands reported undisturbed) (elapse_ticks _ _), h.fresh⟩
  | set hs =>
    obtain ⟨failed, _⟩ | ⟨_, valid, rfl⟩ := settime_cases hs
    · cases failed
    · exact replanned (keeps_set (firstOf_pos valid))
  | refused hs =>
    obtain ⟨_, rfl⟩ | ⟨succeeded, _⟩ := settime_cases hs
    · exact h
    · cases succeeded
  | clear hs =>
    obtain ⟨failed, _⟩ | ⟨_, _, rfl⟩ := settime_cases hs
    · cases failed
    · exact replanned ⟨rfl, rfl, rfl⟩
  | report idle readable =>
    rw [idle] at called
    exact ⟨h.onPlan, called, fun _ _ => readable, fun _ disturbed => by cases disturbed⟩
  | read reported readable =>
    rw [reported] at called
    refine ⟨onPlan_read h.onPlan, ?_, (fun again => by cases again), fun again => by cases again⟩
    change s.called + 1 ≤ s.consumed + s.descriptor.ticks + s.inFlight.toNat
    change s.called + 0 ≤ s.consumed + s.inFlight.toNat at called
    omega
  | failed reported =>
    rw [reported] at called
    exact ⟨h.onPlan, called, (fun again => by cases again), fun again => by cases again⟩
  | call expired =>
    rw [expired] at called
    exact ⟨h.onPlan, called, (fun again => by cases again), fun again => by cases again⟩

theorem initial_accounted : Accounted {} where
  onPlan := ⟨rfl, rfl, rfl⟩
  called := Nat.le_refl _
  stands reported := by cases reported
  fresh reported := by cases reported

/-- However the calls, the clock and the dispatching thread interleave: the expirations that were read and those to be
read are those that were asked for when the timer was last set, in step with the clock, none after `clear`; and the
callback is called no more often than that, but for a call that was due before. -/
theorem timer_on_plan (run : Run Step {} labels s) :
    s.consumed + s.descriptor.ticks = planned s ∧ s.called ≤ planned s + s.inFlight.toNat := by
  have h := run.invariant initial_accounted step_accounted
  have count := onPlan_planned h.onPlan
  have called := h.called
  exact ⟨count, by omega⟩

/-- A timer that expires every nanosecond, whose dispatching thread is late by one. -/
theorem timer_on_plan_late : ∃ s, Run Step {}
      [.set ⟨0, 1⟩ ⟨0, 1⟩, .elapse, .report, .elapse, .read, .call] s ∧
    s.consumed + s.descriptor.ticks = planned s ∧ s.called ≤ planned s + s.inFlight.toNat := by
  refine Exists.imp (fun s run => ⟨run, timer_on_plan run⟩) ?_
  exact ⟨_, (((((Run.start.next (.set rfl)).next .elapse).next (.report rfl (by decide))).next .elapse).next
    (.read rfl (by decide))).next (.call rfl)⟩

/-- The `read` of `onExpire` waits just when `set` or `clear` came behind the report and nothing has expired since. -/
theorem read_waits_iff (run : Run Step {} labels s) (reported : s.stage = .reported) :
    s.descriptor.ticks = 0 ↔ s.disturbed = true ∧ planned s = 0 := by
  have h := run.invariant initial_accounted step_accounted
  have count := onPlan_planned h.onPlan
  constructor
  · intro waits
    have disturbed : s.disturbed = true := by
      by_contra undisturbed
      have := h.stands reported (Bool.eq_false_iff.mpr undisturbed)
      omega
    have consumed := h.fresh reported disturbed
    exact ⟨disturbed, by omega⟩
  · rintro ⟨_, none_⟩
    omega

/-- A timer that is cleared between the report and the `read`. -/
theorem read_waits_iff_cleared : ∃ s, Run Step {} [.set ⟨0, 1⟩ ⟨0, 0⟩, .elapse, .report, .clear] s ∧
    s.stage = .reported ∧ s.descriptor.ticks = 0 := by
  have run : ∃ s, Run Step {} [.set ⟨0, 1⟩ ⟨0, 0⟩, .elapse, .report, .clear] s ∧ s.stage = .reported ∧
      s.disturbed = true ∧ planned s = 0 :=
    ⟨_, (((Run.start.next (.set rfl)).next .elapse).next (.report rfl (by decide))).next (.clear rfl), rfl, rfl, rfl⟩
  obtain ⟨s, run, reported, cleared⟩ := run
  exact ⟨s, run, reported, (read_waits_iff run reported).mpr cleared⟩

end Runs

end Hlib.TimerRuns
