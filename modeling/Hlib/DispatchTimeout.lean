import Hlib.Duration
import Hlib.EventLoopDispatch

namespace Hlib

open Transition (Run)

namespace EventLoop

/-- A `dispatch(timeout)` under way. -/
structure Call where
  start : Clock
  timeout : Duration
  /-- The argument of the last `epoll_wait`; none where its computation overflows. -/
  timeoutMs : Option Int := none
  /-- Whether a reading was at or past the deadline. -/
  late : Bool := false
  /-- The callbacks that it called since, or has at hand to call next. -/
  calls : Nat := 0

namespace Call

/-- `time::now() + *timeout`. -/
def expire (call : Call) : Option Clock := call.start.add call.timeout

/-- When the timeout has passed. -/
def deadline (call : Call) : Int := call.start.nanoseconds + call.timeout.nanoseconds

/-- `timeout_ms`, which is narrowed to the `int` of `epoll_wait`. -/
def remaining (call : Call) (current : Clock) : Option Int := do
  let expire ← call.expire
  if current.Before expire then do
    let duration ← expire.subtract current
    let timeoutMs ← duration.toMSec
    some (Clock.toInt32 timeoutMs)
  else some 0

/-- What is left at a reading of the clock, in nanoseconds; none where the computation overflows. -/
def left (call : Call) (current : Clock) : Option Int := do
  let expire ← call.expire
  if current.Before expire then do
    let duration ← expire.subtract current
    duration.toNSec
  else some 0

/-- Nothing overflows, and the timeout has passed, a whole number of milliseconds below 2³¹ is left, or
what is left becomes negative in an `int`, which stands for no timeout. -/
def OnTime (call : Call) (current : Clock) : Prop :=
  ∃ left, call.left current = some left ∧
    (call.deadline ≤ current.nanoseconds ∨
      0 < left ∧ left % 1000000 = 0 ∧ left / 1000000 < 2 ^ 31 ∨ 2 ^ 31 ≤ left / 1000000 % 2 ^ 32)

/-- A reading of the clock at the top of the loop. -/
def read (current : Clock) (call : Call) : Call :=
  { call with
    timeoutMs := call.remaining current
    late := call.late || call.deadline ≤ current.nanoseconds }

variable {κ : Type}

/-- A lookup past the deadline that finds a callback counts. -/
def see (s : State κ) (label : Label κ) (call : Call) : Call :=
  match label, s.stage with
  | .find, .looking fd _ =>
    if call.late = true ∧ s.loop.callbacks fd ≠ none then { call with calls := call.calls + 1 } else call
  | _, _ => call

end Call

/-- A loop with the clock that its thread reads: the time in nanoseconds at the last reading, and the
`dispatch(timeout)` under way, if its thread is in one. -/
structure Timed (κ : Type) where
  core : State κ
  now : Int
  call : Option Call := none

namespace Timed

variable {κ : Type}

/-- `epoll_wait` keeps to its argument, if it is given one. -/
def MayTimeOut (timeoutMs : Option Int) (entered time : Int) : Prop :=
  ∀ ms, timeoutMs = some ms → 0 ≤ ms ∧ entered + ms * 1000000 ≤ time

inductive TimedLabel (κ : Type)
  | dispatch
  | dispatchFor (timeout : Duration) (start : Clock)
  | wait
  | waitFor (current : Clock)
  | timeout (time : Int)
  | other (label : Label κ)

/-- The labels that come with no reading of the clock. -/
def Untimed : Label κ → Prop
  | .dispatch | .wait | .timeout => False
  | _ => True

/-- One step of the loop, in time. Readings of the clock do not decrease; without a timeout there is
none, and `epoll_wait` does not time out. -/
inductive TimedStep : Timed κ → TimedLabel κ → Timed κ → Prop
  | dispatch {w : Timed κ} {core} (h : Step w.core .dispatch core) :
      TimedStep w .dispatch { w with core, call := none }
  | dispatchFor {w : Timed κ} {core timeout start} (later : w.now ≤ start.nanoseconds)
      (h : Step w.core .dispatch core) :
      TimedStep w (.dispatchFor timeout start)
        { core, now := start.nanoseconds, call := some { start, timeout } }
  | wait {w : Timed κ} {core} (endless : w.call = none) (h : Step w.core .wait core) :
      TimedStep w .wait { w with core }
  | waitFor {w : Timed κ} {core call current} (called : w.call = some call)
      (later : w.now ≤ current.nanoseconds) (h : Step w.core .wait core) :
      TimedStep w (.waitFor current)
        { core, now := current.nanoseconds, call := some (call.read current) }
  | timeout {w : Timed κ} {core call time} (called : w.call = some call)
      (h : Step w.core .timeout core) (passed : MayTimeOut call.timeoutMs w.now time) :
      TimedStep w (.timeout time) { w with core, now := max w.now time }
  | other {w : Timed κ} {core label} (untimed : Untimed label) (h : Step w.core label core) :
      TimedStep w (.other label) { w with core, call := w.call.map (·.see w.core label) }

/-- A `dispatch(timeout)` that times out does so when its timeout has passed. -/
def InTime (w : Timed κ) : Prop :=
  ∀ time w' call, TimedStep w (.timeout time) w' → w.call = some call → call.deadline ≤ time

/-- A wait that may end at any time from `entered` on is long enough just for what was left. -/
theorem long_enough_iff {timeoutMs : Option Int} {entered deadline : Int} :
    (∀ time, MayTimeOut timeoutMs entered time → deadline ≤ time) ↔
      ∃ ms, timeoutMs = some ms ∧ (ms < 0 ∨ deadline ≤ entered + ms * 1000000) := by
  cases timeoutMs with
  | none =>
    refine iff_of_false ?_ nofun
    intro all
    have early := all (deadline - 1) nofun
    omega
  | some ms =>
    constructor
    · intro all
      refine ⟨ms, rfl, ?_⟩
      by_contra short
      have promised : MayTimeOut (some ms) entered (entered + ms * 1000000) := by
        intro ms' same
        cases same
        omega
      have reached := all _ promised
      omega
    · rintro ⟨_, same, enough⟩ time passed
      cases same
      have promised := passed ms rfl
      omega

theorem toInt32_eq (n : Int) : Clock.toInt32 n = if n % 2 ^ 32 < 2 ^ 31 then n % 2 ^ 32 else n % 2 ^ 32 - 2 ^ 32 := by
  rw [Clock.toInt32, BitVec.toInt_ofInt, Int.bmod_def]
  rfl

/-- Cut off to milliseconds and narrowed to an `int`, a time is long enough just if it is negative, or
nothing was cut off. -/
theorem narrowed_iff {left : Int} (some : 0 < left) :
    (Clock.toInt32 (left.tdiv 1000000) < 0 ∨ left ≤ Clock.toInt32 (left.tdiv 1000000) * 1000000) ↔
      (left % 1000000 = 0 ∧ left / 1000000 < 2 ^ 31 ∨ 2 ^ 31 ≤ left / 1000000 % 2 ^ 32) := by
  rw [Int.tdiv_eq_ediv_of_nonneg (Int.le_of_lt some), toInt32_eq]
  split
  next => omega
  next => omega

theorem remaining_eq (call : Call) (current : Clock) :
    call.remaining current = (call.left current).map fun left => Clock.toInt32 (left.tdiv 1000000) := by
  unfold Call.remaining Call.left
  cases call.expire with
  | none => rfl
  | some expire =>
    simp only [Option.bind_eq_bind, Option.bind_some]
    split
    next =>
      cases expire.subtract current with
      | none => rfl
      | some duration =>
        simp only [Option.bind_some]
        rw [Duration.toMSec_eq]
        cases duration.toNSec with
        | none => rfl
        | some nsec => rfl
    next => rfl

/-- Nothing is left, or what is left is the time to the deadline. -/
theorem left_cases {call : Call} {current : Clock} {left : Int} (h : call.left current = some left) :
    left = 0 ∨ left = call.deadline - current.nanoseconds := by
  obtain ⟨expire, he, h⟩ := Option.bind_eq_some_iff.mp h
  split at h
  next =>
    obtain ⟨duration, hd, h⟩ := Option.bind_eq_some_iff.mp h
    right
    rw [(Duration.toNSec_value h).1, Clock.subtract_nanoseconds hd, Clock.add_nanoseconds he]
    rfl
  next =>
    cases h
    exact Or.inl rfl

theorem onTime_iff {call : Call} {current : Clock} :
    (∀ time, MayTimeOut (call.remaining current) current.nanoseconds time → call.deadline ≤ time) ↔
      call.OnTime current := by
  rw [long_enough_iff, remaining_eq]
  unfold Call.OnTime
  cases counted : call.left current with
  | none => exact iff_of_false nofun nofun
  | some left =>
    have zero : Clock.toInt32 ((0 : Int).tdiv 1000000) = 0 := rfl
    simp only [Option.map_some, Option.some.injEq, exists_eq_left']
    by_cases passed : call.deadline ≤ current.nanoseconds
    · refine iff_of_true ?_ (Or.inl passed)
      omega
    · rcases left_cases counted with rfl | same
      · rw [zero]
        omega
      · have positive : 0 < left := by omega
        have narrowed := narrowed_iff positive
        rw [same] at narrowed ⊢
        omega

theorem times_out_iff {s : State κ} : (∃ t, Step s .timeout t) ↔ s.stage = .waiting := by
  constructor
  · rintro ⟨t, hs⟩
    cases hs
    rfl
  · intro waiting
    obtain ⟨loop, interrupt, owned, stage⟩ := s
    cases waiting
    exact ⟨_, .timeout⟩

theorem dispatch_stage {s t : State κ} (hs : Step s .dispatch t) : t.stage = .top := by
  cases hs
  rfl

theorem wait_stage {s t : State κ} (hs : Step s .wait t) : t.stage = .waiting := by
  cases hs
  rfl

theorem timeout_stage {s t : State κ} (hs : Step s .timeout t) : t.stage = .leaving := by
  cases hs
  rfl

theorem inTime_iff {w : Timed κ} :
    InTime w ↔ (w.core.stage = .waiting → ∀ call, w.call = some call →
      ∀ time, MayTimeOut call.timeoutMs w.now time → call.deadline ≤ time) := by
  constructor
  · intro inTime waiting call called time passed
    obtain ⟨core, hs⟩ := times_out_iff.mpr waiting
    exact inTime time _ call (.timeout called hs passed) called
  · intro enough time w' call hs called
    cases hs with
    | timeout called' h passed =>
      cases called.symm.trans called'
      exact enough (times_out_iff.mp ⟨_, h⟩) call called time passed

theorem untimed_waiting {s t : State κ} {label : Label κ} (untimed : Untimed label) (hs : Step s label t)
    (waiting : t.stage = .waiting) : s.stage = .waiting := by
  cases hs with
  | dispatch | wait | timeout => exact untimed.elim
  | add | modify | change | remove => exact waiting
  | _ => cases waiting

theorem see_same (s : State κ) (label : Label κ) (call : Call) :
    (call.see s label).timeoutMs = call.timeoutMs ∧ (call.see s label).deadline = call.deadline := by
  unfold Call.see
  split
  next =>
    split
    next => exact ⟨rfl, rfl⟩
    next => exact ⟨rfl, rfl⟩
  next => exact ⟨rfl, rfl⟩

/-- Every reading of the clock leaves a time that the wait is long enough for. -/
def ReadsOnTime (w : Timed κ) : TimedLabel κ → Prop
  | .waitFor current => ∀ call, w.call = some call → call.OnTime current
  | _ => True

theorem timedStep_inTime {w w' : Timed κ} {label : TimedLabel κ} (h : InTime w) (hs : TimedStep w label w') :
    InTime w' ↔ ReadsOnTime w label := by
  cases hs with
  | dispatch => exact iff_of_true (fun _ _ _ _ => nofun) trivial
  | dispatchFor _ h =>
    refine iff_of_true (inTime_iff.mpr ?_) trivial
    intro waiting
    cases (dispatch_stage h).symm.trans waiting
  | wait endless =>
    refine iff_of_true (inTime_iff.mpr ?_) trivial
    intro _ call called
    cases endless.symm.trans called
  | waitFor called later h =>
    rw [inTime_iff]
    constructor
    · intro enough call' called'
      cases called.symm.trans called'
      exact onTime_iff.mp (enough (wait_stage h) _ rfl)
    · intro onTime _ call' called'
      cases called'
      exact onTime_iff.mpr (onTime _ called)
  | timeout _ h =>
    refine iff_of_true (inTime_iff.mpr ?_) trivial
    intro waiting
    cases (timeout_stage h).symm.trans waiting
  | @other core label untimed hs =>
    refine iff_of_true (inTime_iff.mpr ?_) trivial
    intro waiting call' called' time passed
    obtain ⟨call, called, rfl⟩ := Option.map_eq_some_iff.mp called'
    obtain ⟨same, deadline⟩ := see_same w.core label call
    rw [same] at passed
    rw [deadline]
    exact inTime_iff.mp h (untimed_waiting untimed hs waiting) call called time passed

/-- No `dispatch(timeout)` times out early in the runs in which every reading of the clock leaves a time
that is over, a whole number of milliseconds below 2³¹, or negative in an `int`, and in no other. -/
theorem inTime_iff_readsOnTime (loop : EventLoop κ) (now : Int) (labels : List (TimedLabel κ)) :
    (∀ done rest w, labels = done ++ rest → Run TimedStep { core := initial loop, now } done w → InTime w) ↔
      ∀ done label rest w w', labels = done ++ label :: rest →
        Run TimedStep { core := initial loop, now } done w → TimedStep w label w' → ReadsOnTime w label := by
  refine Transition.along_iff ?_ ?_ labels
  · rw [inTime_iff]
    intro waiting
    cases waiting
  · intro done w label w' _ h hs
    exact timedStep_inTime h hs

/-- Half a millisecond before its deadline, a `dispatch` of one and a half milliseconds is timed out. -/
theorem times_out_early :
    ∃ w : Timed Unit, Run TimedStep { core := initial watching, now := 0 }
        [.dispatchFor ⟨0, 1500000⟩ ⟨1, 0⟩, .waitFor ⟨1, 0⟩, .timeout 1001000000] w ∧
      w.call.map Call.deadline = some 1001500000 ∧ w.now < 1001500000 := by
  refine ⟨_, ((Run.start.next (.dispatchFor (by decide) .dispatch)).next
    (.waitFor rfl (by decide) .wait)).next (.timeout rfl .timeout ?_), rfl, by decide⟩
  intro ms same
  have argument : ms = 1 := Option.some.inj (same.symm.trans rfl)
  rw [argument]
  decide

end Timed

end EventLoop

end Hlib
