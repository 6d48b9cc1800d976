import Hlib.Subprocess

namespace Hlib

open Transition (Run)

namespace Subprocess

/-- `Subprocess::State`. -/
inductive Status
  | idle
  | running
  | exited
  | failed
  deriving DecidableEq, Repr

/-- How a process ends: by `exit`, or by one of the 64 signals. -/
inductive Ending
  | exited (code : Fin 256)
  | signaled (signal : Fin 64) (dumped : Bool)
  deriving DecidableEq, Repr

/-- The status that `waitpid` stores; signals are numbered from one. -/
def Ending.status : Ending → Nat
  | .exited code => code * 256
  | .signaled signal dumped => signal + 1 + if dumped then 128 else 0

/-- `WIFEXITED(status)`. -/
def wifexited (status : Nat) : Bool := status % 128 = 0

/-- `WEXITSTATUS(status)`. -/
def wexitstatus (status : Nat) : Nat := status / 256 % 256

theorem wifexited_iff (ending : Ending) :
    wifexited ending.status = true ↔ ∃ code, ending = .exited code := by
  cases ending with
  | exited code =>
    refine iff_of_true (decide_eq_true ?_) ⟨code, rfl⟩
    show code.val * 256 % 128 = 0
    omega
  | signaled signal dumped =>
    refine iff_of_false ?_ nofun
    have bound := signal.isLt
    have nonzero : (signal.val + 1 + if dumped then 128 else 0) % 128 ≠ 0 := by
      cases dumped with
      | true =>
        show (signal.val + 1 + 128) % 128 ≠ 0
        omega
      | false =>
        show (signal.val + 1 + 0) % 128 ≠ 0
        omega
    exact fun exited => nonzero (of_decide_eq_true exited)

theorem wexitstatus_exited (code : Fin 256) : wexitstatus (Ending.exited code).status = code := by
  have bound := code.isLt
  show code.val * 256 / 256 % 256 = code.val
  omega

inductive Failure
  /-- `std::logic_error`. -/
  | logic
  | system (error : Errno)
  deriving DecidableEq, Repr

/-- What a call does to the children of the process. -/
inductive Effect
  | none
  | forked (pid : Int)
  | reaped (pid : Int)
  | signaled (pid : Int)
  deriving DecidableEq, Repr

/-- What the system gives `run(argv)`: its pipes, `fork`, and a loop that is there for the `open` of
the pipes, which throws else. -/
structure Launch where
  pipes : Bool := true
  fork : Result { pid : Int // 0 < pid }
  opens : Bool := true

/-- The fields of a `Subprocess` that tell of its child; `internal` is whether it has a loop of its
own. -/
structure Control where
  internal : Bool
  state : Status := .idle
  pid : Int := -1
  returnCode : Nat := 0
  deriving DecidableEq, Repr

namespace Control

/-- `run(argv)` up to where it returns or dispatches; what it throws ends in the `noexcept` of its
callers. -/
def runArgv (launch : Launch) (p : Control) : Checked (Except Failure Nat × Effect × Control) := do
  require (p.pid = -1) .assertion
  let failed := { p with state := .failed, returnCode := 0 }
  require (launch.pipes = true) .terminate
  match launch.fork with
  | .error errno => .ok (.error (.system errno), .none, { failed with pid := -1 })
  | .ok pid => do
    require (launch.opens = true) .terminate
    .ok (.ok 0, .forked pid, { failed with pid, state := .running })

/-- `run(command, args, std::nothrow)`, and the overload with a `Buffer` where there is an `input`. -/
def run (input : Bool) (launch : Launch) (p : Control) :
    Checked (Except Failure Nat × Effect × Control) :=
  if p.state ≠ .idle then .ok (.error .logic, .none, p)
  else if input = true ∧ p.internal = false then .ok (.error .logic, .none, p)
  else p.runArgv launch

/-- `wait(std::nothrow)`. -/
def wait (waited : Result Ending) (p : Control) : Checked (Except Failure Nat × Effect × Control) := do
  require (p.state = .running) .assertion
  match waited with
  | .error errno => .ok (.error (.system errno), .none, { p with state := .failed })
  | .ok ending =>
    let returnCode := if wifexited ending.status then wexitstatus ending.status else p.returnCode
    .ok (.ok returnCode, .reaped p.pid, { p with returnCode, pid := -1, state := .exited })

/-- `kill(signal, std::nothrow)`; `sent` is the error of `::kill`. -/
def kill (sent : Option Errno) (p : Control) : Except Failure Unit × Effect :=
  if p.pid ≤ 0 then (.ok (), .none)
  else
    match sent with
    | none => (.ok (), .signaled p.pid)
    | some errno => (.error (.system errno), .signaled p.pid)

end Control

/-- What is known of the last call on a `Subprocess`. -/
inductive Answer
  /-- `run` returned, with how its child ended where it waited for it. -/
  | ran (calledFrom : Status) (result : Except Failure Nat) (ending : Option Ending)
  | waited (result : Except Failure Nat) (ending : Option Ending)
  | killed (result : Except Failure Unit)

/-- A `Subprocess` among the processes: the children that it forked and nobody reaped, the state from
which the `run` that dispatches was called, and the last call. -/
structure World where
  control : Control
  children : List Int := []
  dispatching : Option Status := none
  answer : Option Answer := none
  effect : Effect := .none

def Effect.on : Effect → List Int → List Int
  | .forked pid, children => pid :: children
  | .reaped pid, children => children.erase pid
  | .none, children | .signaled _, children => children

inductive Deed
  | run (input : Bool) (launch : Launch)
  | wait (waited : Result Ending)
  /-- The loop is interrupted, and `run` waits and returns. -/
  | finish (waited : Result Ending)
  | kill (signal : Nat) (sent : Option Errno)

def endingOf (waited : Result Ending) : Option Ending := waited.toOption

/-- One call on a `Subprocess`, or the end of a `run` that dispatches. Other threads and callbacks make
calls while it does; the last `wait` of `run` is the one that throws. -/
inductive Act : World → Deed → World → Prop
  | run {w : World} {input launch result effect control}
      (h : w.control.run input launch = .ok (result, effect, control))
      (returns : w.control.internal = false ∨ ∃ failure, result = .error failure) :
      Act w (.run input launch)
        { w with control, children := effect.on w.children, effect,
                 answer := some (.ran w.control.state result none) }
  | dispatch {w : World} {input launch code effect control}
      (h : w.control.run input launch = .ok (.ok code, effect, control))
      (internal : w.control.internal = true) :
      Act w (.run input launch)
        { w with control, children := effect.on w.children, effect,
                 dispatching := some w.control.state, answer := none }
  | wait {w : World} {waited result effect control} (h : w.control.wait waited = .ok (result, effect, control)) :
      Act w (.wait waited)
        { w with control, children := effect.on w.children, effect,
                 answer := some (.waited result (endingOf waited)) }
  | finish {w : World} {calledFrom waited code effect control} (dispatching : w.dispatching = some calledFrom)
      (h : w.control.wait waited = .ok (.ok code, effect, control)) :
      Act w (.finish waited)
        { w with control, children := effect.on w.children, effect, dispatching := none,
                 answer := some (.ran calledFrom (.ok code) (endingOf waited)) }
  | kill {w : World} {signal sent} :
      Act w (.kill signal sent)
        { w with effect := (w.control.kill sent).2, answer := some (.killed (w.control.kill sent).1) }

/-- A `wait` returned `code` for a child that ended so, be it the last one of `run`. -/
def World.Waited (w : World) (code : Nat) (ending : Ending) : Prop :=
  w.answer = some (.waited (.ok code) (some ending)) ∨
    ∃ calledFrom, w.answer = some (.ran calledFrom (.ok code) (some ending))

/-- The state, the pid and the return code tell the truth about the child. -/
structure TellsTruth (w : World) : Prop where
  pid : 0 < w.control.pid ↔ w.children ≠ []
  signals : ∀ pid, w.effect = .signaled pid → pid ∈ w.children
  runs : ∀ calledFrom code ending, w.answer = some (.ran calledFrom (.ok code) ending) → calledFrom = .idle
  waits : ∀ code ending, w.Waited code ending →
    w.control.state = .exited ∧ (code = 0 ↔ ending = .exited 0)

/-- A child that is waited for has not ended by a signal. -/
def Exits : Deed → Prop
  | .wait waited | .finish waited => ∀ ending, waited = .ok ending → ∃ code, ending = .exited code
  | _ => True

/-- There is one child at most, and `m_pid` is its pid. -/
structure Kept (w : World) : Prop where
  child : 0 < w.control.pid ∧ w.children = [w.control.pid] ∨ w.control.pid = -1 ∧ w.children = []
  idle : w.control.state = .idle → w.control.pid = -1
  running : w.control.state = .running → 0 < w.control.pid ∧ w.control.returnCode = 0
  dispatching : ∀ calledFrom, w.dispatching = some calledFrom → calledFrom = .idle

section Calls

variable {p p' : Control} {result : Except Failure Nat} {effect : Effect}

theorem run_ok {input : Bool} {launch : Launch} (h : p.run input launch = .ok (result, effect, p')) :
    (∃ failure, result = .error failure) ∧ effect = .none ∧
        (p' = p ∨ p.state = .idle ∧ p' = { p with state := .failed, returnCode := 0, pid := -1 }) ∨
      ∃ pid, 0 < pid ∧ p.state = .idle ∧ result = .ok 0 ∧ effect = .forked pid ∧
        p' = { p with state := .running, returnCode := 0, pid } := by
  unfold Control.run at h
  split at h
  next =>
    cases h
    exact Or.inl ⟨⟨_, rfl⟩, rfl, Or.inl rfl⟩
  next idle =>
    have idle := not_not.mp idle
    split at h
    next =>
      cases h
      exact Or.inl ⟨⟨_, rfl⟩, rfl, Or.inl rfl⟩
    next =>
      obtain ⟨_, _, h⟩ := bind_ok h
      obtain ⟨_, _, h⟩ := bind_ok h
      cases forked : launch.fork with
      | error errno =>
        rw [forked] at h
        cases h
        exact Or.inl ⟨⟨_, rfl⟩, rfl, Or.inr ⟨idle, rfl⟩⟩
      | ok pid =>
        rw [forked] at h
        obtain ⟨_, _, h⟩ := bind_ok h
        cases h
        exact Or.inr ⟨pid, pid.2, idle, rfl, rfl, rfl⟩

/-- A child that a signal ended leaves the return code as it was. -/
theorem wait_ok {waited : Result Ending} (h : p.wait waited = .ok (result, effect, p')) :
    p.state = .running ∧
      ((∃ errno, waited = .error errno) ∧ (∃ failure, result = .error failure) ∧ effect = .none ∧
          p' = { p with state := .failed } ∨
        ∃ ending code, waited = .ok ending ∧ result = .ok code ∧ effect = .reaped p.pid ∧
          ((∃ exit : Fin 256, ending = .exited exit ∧ code = exit) ∨
            (∀ exit, ending ≠ .exited exit) ∧ code = p.returnCode) ∧
          p' = { p with returnCode := code, pid := -1, state := .exited }) := by
  obtain ⟨_, running, h⟩ := bind_ok h
  refine ⟨require_ok running, ?_⟩
  cases waited with
  | error errno =>
    cases h
    exact Or.inl ⟨⟨errno, rfl⟩, ⟨_, rfl⟩, rfl, rfl⟩
  | ok ending =>
    cases h
    refine Or.inr ⟨ending, _, rfl, rfl, rfl, ?_, rfl⟩
    by_cases exits : wifexited ending.status = true
    · obtain ⟨code, rfl⟩ := (wifexited_iff ending).mp exits
      rw [if_pos exits]
      exact Or.inl ⟨code, rfl, wexitstatus_exited code⟩
    · rw [if_neg exits]
      exact Or.inr ⟨fun code same => exits ((wifexited_iff ending).mpr ⟨code, same⟩), rfl⟩

theorem kill_effect (sent : Option Errno) {pid : Int} (h : (p.kill sent).2 = .signaled pid) :
    0 < p.pid ∧ pid = p.pid := by
  unfold Control.kill at h
  split at h
  next => cases h
  next positive =>
    have positive : 0 < p.pid := by omega
    cases sent with
    | none =>
      cases h
      exact ⟨positive, rfl⟩
    | some errno =>
      cases h
      exact ⟨positive, rfl⟩

end Calls

section Acts

variable {w w' : World} {deed : Deed}

theorem Kept.pid (h : Kept w) : 0 < w.control.pid ↔ w.children ≠ [] := by
  obtain ⟨positive, one⟩ | ⟨gone, empty⟩ := h.child
  · refine iff_of_true positive ?_
    rw [one]
    exact List.cons_ne_nil _ _
  · refine iff_of_false ?_ (not_not.mpr empty)
    omega

/-- A call to `run` forks where there is no child, or leaves the children alone. -/
theorem run_kept (h : Kept w) {input : Bool} {launch : Launch} {result : Except Failure Nat}
    {effect : Effect} {control : Control} (hr : w.control.run input launch = .ok (result, effect, control)) :
    (0 < control.pid ∧ effect.on w.children = [control.pid] ∨
        control.pid = -1 ∧ effect.on w.children = []) ∧
      (control.state = .idle → control.pid = -1) ∧
      (control.state = .running → 0 < control.pid ∧ control.returnCode = 0) ∧
      (∀ pid, effect ≠ .signaled pid) ∧ (∀ code, result = .ok code → w.control.state = .idle) := by
  obtain ⟨⟨failure, rfl⟩, rfl, rfl | ⟨idle, rfl⟩⟩ | ⟨pid, positive, idle, rfl, rfl, rfl⟩ := run_ok hr
  · exact ⟨h.child, h.idle, h.running, fun _ => nofun, fun _ => nofun⟩
  · refine ⟨Or.inr ⟨rfl, ?_⟩, fun _ => rfl, nofun, fun _ => nofun, fun _ => nofun⟩
    have gone := h.idle idle
    obtain ⟨positive, _⟩ | ⟨_, empty⟩ := h.child
    · omega
    · exact empty
  · refine ⟨Or.inl ⟨positive, ?_⟩, nofun, fun _ => ⟨positive, rfl⟩, fun _ => nofun, fun _ _ => idle⟩
    have gone := h.idle idle
    obtain ⟨positive, _⟩ | ⟨_, empty⟩ := h.child
    · omega
    · show pid :: w.children = [pid]
      rw [empty]

theorem wait_kept (h : Kept w) {waited : Result Ending} {result : Except Failure Nat} {effect : Effect}
    {control : Control} (hw : w.control.wait waited = .ok (result, effect, control)) :
    (0 < control.pid ∧ effect.on w.children = [control.pid] ∨
        control.pid = -1 ∧ effect.on w.children = []) ∧
      control.state ≠ .idle ∧ control.state ≠ .running ∧ (∀ pid, effect ≠ .signaled pid) ∧
      ∀ code, result = .ok code → control.state = .exited ∧ ∃ ending, waited = .ok ending ∧
        ((code = 0 ↔ ending = .exited 0) ↔ ∃ exit, ending = .exited exit) := by
  obtain ⟨running, ⟨_, ⟨failure, rfl⟩, rfl, rfl⟩ | ⟨ending, code, rfl, rfl, rfl, told, rfl⟩⟩ := wait_ok hw
  · exact ⟨h.child, nofun, nofun, fun _ => nofun, fun _ => nofun⟩
  · obtain ⟨positive, zero⟩ := h.running running
    refine ⟨Or.inr ⟨rfl, ?_⟩, nofun, nofun, fun _ => nofun, ?_⟩
    · obtain ⟨_, one⟩ | ⟨gone, _⟩ := h.child
      · show w.children.erase w.control.pid = []
        rw [one]
        exact List.erase_cons_head _ _
      · omega
    · intro code' same
      cases same
      refine ⟨rfl, ending, rfl, ?_⟩
      obtain ⟨exit, rfl, rfl⟩ | ⟨crashed, rfl⟩ := told
      · refine iff_of_true ?_ ⟨exit, rfl⟩
        constructor
        · intro none
          exact congrArg Ending.exited (Fin.ext none)
        · intro same
          cases same
          rfl
      · refine iff_of_false ?_ ?_
        · intro agrees
          exact crashed 0 (agrees.mp zero)
        · rintro ⟨exit, same⟩
          exact crashed exit same

theorem act_kept (h : Kept w) (act : Act w deed w') : Kept w' := by
  cases act with
  | run hr returns =>
    obtain ⟨child, idle, running, _⟩ := run_kept h hr
    exact ⟨child, idle, running, h.dispatching⟩
  | dispatch hr internal =>
    obtain ⟨child, idle, running, _, succeeds⟩ := run_kept h hr
    refine ⟨child, idle, running, ?_⟩
    intro calledFrom same
    cases same
    exact succeeds _ rfl
  | wait hw =>
    obtain ⟨child, idle, running, _⟩ := wait_kept h hw
    exact ⟨child, fun same => absurd same idle, fun same => absurd same running, h.dispatching⟩
  | finish dispatching hw =>
    obtain ⟨child, idle, running, _⟩ := wait_kept h hw
    exact ⟨child, fun same => absurd same idle, fun same => absurd same running, nofun⟩
  | kill => exact ⟨h.child, h.idle, h.running, h.dispatching⟩

def Answer.ending : Answer → Option Ending
  | .ran _ _ ending | .waited _ ending => ending
  | .killed _ => none

theorem not_waited (h : w.answer.bind Answer.ending = none) (code : Nat) (ending : Ending) :
    ¬w.Waited code ending := by
  intro waited
  obtain same | ⟨_, same⟩ := waited
  · rw [same] at h
    cases h
  · rw [same] at h
    cases h

theorem tells_of_unwaited (kept : Kept w) (signals : ∀ pid, w.effect = .signaled pid → pid ∈ w.children)
    (runs : ∀ calledFrom code ending, w.answer = some (.ran calledFrom (.ok code) ending) →
      calledFrom = .idle)
    (unwaited : w.answer.bind Answer.ending = none) : TellsTruth w := by
  refine ⟨kept.pid, signals, runs, ?_⟩
  intro code ending waited
  exact absurd waited (not_waited unwaited code ending)

/-- After a `wait` the truth is told just if the child has exited. -/
theorem tells_of_waited {waited : Result Ending} (kept : Kept w')
    (quiet : ∀ pid, w'.effect ≠ .signaled pid)
    (runs : ∀ calledFrom code ending, w'.answer = some (.ran calledFrom (.ok code) ending) →
      calledFrom = .idle)
    (waits : ∀ code ending, w'.Waited code ending → w'.control.state = .exited ∧ waited = .ok ending ∧
      ((code = 0 ↔ ending = .exited 0) ↔ ∃ exit, ending = .exited exit))
    (answered : ∀ ending, waited = .ok ending → ∃ code, w'.Waited code ending) :
    TellsTruth w' ↔ ∀ ending, waited = .ok ending → ∃ exit, ending = .exited exit := by
  constructor
  · intro tells ending same
    obtain ⟨code, answer⟩ := answered ending same
    exact (waits code ending answer).2.2.mp (tells.waits code ending answer).2
  · intro exits
    refine ⟨kept.pid, fun pid same => absurd same (quiet pid), runs, ?_⟩
    intro code ending answer
    obtain ⟨state, same, agrees⟩ := waits code ending answer
    exact ⟨state, agrees.mpr (exits ending same)⟩

theorem act_tells (h : Kept w) (act : Act w deed w') : TellsTruth w' ↔ Exits deed := by
  have kept := act_kept h act
  cases act with
  | @run input launch result effect control hr returns =>
    obtain ⟨_, _, _, quiet, succeeds⟩ := run_kept h hr
    refine iff_of_true (tells_of_unwaited kept (fun pid same => absurd same (quiet pid)) ?_ rfl) trivial
    intro calledFrom code ending same
    cases same
    exact succeeds code rfl
  | dispatch hr internal =>
    obtain ⟨_, _, _, quiet, _⟩ := run_kept h hr
    exact iff_of_true (tells_of_unwaited kept (fun pid same => absurd same (quiet pid)) nofun rfl) trivial
  | @wait waited result effect control hw =>
    obtain ⟨_, _, _, quiet, succeeds⟩ := wait_kept h hw
    refine tells_of_waited kept quiet nofun ?_ ?_
    · intro code ending answer
      obtain same | ⟨_, same⟩ := answer
      · obtain ⟨rfl, same⟩ := Answer.waited.inj (Option.some.inj same)
        obtain ⟨state, ending', rfl, agrees⟩ := succeeds code rfl
        cases same
        exact ⟨state, rfl, agrees⟩
      · cases same
    · intro ending same
      obtain ⟨_, ⟨⟨errno, failed⟩, _⟩ | ⟨ending', code, same', rfl, _⟩⟩ := wait_ok hw
      · cases same.symm.trans failed
      · cases same.symm.trans same'
        subst same
        exact ⟨code, Or.inl rfl⟩
  | @finish calledFrom waited code effect control dispatching hw =>
    obtain ⟨_, _, _, quiet, succeeds⟩ := wait_kept h hw
    refine tells_of_waited kept quiet ?_ ?_ ?_
    · intro calledFrom' code' ending same
      cases same
      exact h.dispatching calledFrom dispatching
    · intro code' ending answer
      obtain same | ⟨_, same⟩ := answer
      · cases same
      · obtain ⟨_, same', same⟩ := Answer.ran.inj (Option.some.inj same)
        cases same'
        obtain ⟨state, ending', rfl, agrees⟩ := succeeds code rfl
        cases same
        exact ⟨state, rfl, agrees⟩
    · intro ending same
      subst same
      exact ⟨code, Or.inr ⟨calledFrom, rfl⟩⟩
  | @kill signal sent =>
    refine iff_of_true (tells_of_unwaited kept ?_ nofun rfl) trivial
    intro pid same
    obtain ⟨positive, rfl⟩ := kill_effect sent same
    obtain ⟨_, one⟩ | ⟨gone, _⟩ := h.child
    · show w.control.pid ∈ w.children
      rw [one]
      exact List.mem_singleton.mpr rfl
    · omega

end Acts

/-- A `Subprocess` tells the truth about its child in the runs in which no `wait` finds a child that a
signal ended, and in no other. -/
theorem tellsTruth_iff (internal : Bool) (deeds : List Deed) :
    (∀ done rest w, deeds = done ++ rest → Run Act { control := { internal } } done w → TellsTruth w) ↔
      ∀ done deed rest w w', deeds = done ++ deed :: rest →
        Run Act { control := { internal } } done w → Act w deed w' → Exits deed := by
  have first : Kept { control := { internal } } := ⟨Or.inr ⟨rfl, rfl⟩, fun _ => rfl, nofun, nofun⟩
  refine Transition.along_iff ?_ ?_ deeds
  · exact tells_of_unwaited first nofun nofun rfl
  · intro done w deed w' run _ act
    exact act_tells (run.invariant first fun kept act => act_kept kept act) act

/-- A child is killed, and `wait` returns zero for it. -/
theorem killed_with_zero :
    ∃ w, Run Act { control := { internal := false } }
        [.run false { fork := .ok ⟨42, by decide⟩ }, .kill 9 none, .wait (.ok (.signaled 8 false))] w ∧
      w.answer = some (.waited (.ok 0) (some (.signaled 8 false))) ∧ w.control.state = .exited ∧
      ¬TellsTruth w := by
  refine ⟨_, ((Run.start.next (.run rfl (Or.inl rfl))).next .kill).next (.wait rfl), rfl, rfl, ?_⟩
  intro tells
  have agrees := (tells.waits 0 (.signaled 8 false) (Or.inl rfl)).2
  cases agrees.mp rfl

end Subprocess

end Hlib
