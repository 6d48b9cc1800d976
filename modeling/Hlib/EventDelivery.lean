import Hlib.EventBusMap
import Hlib.EventQueue

namespace Hlib

open Function (update update_self update_of_ne)
open Transition (Run Restrict)
open EventBus (Push Represents Prescribed table step_represents step_prescribed)
open EventQueue (pushed called pushed_eq Consistent Returns)

namespace EventDelivery

variable {κ θ γ δ : Type}

/-- A bus, what the call that has its mutex is still to push, the queues, and of those that have ended
what was in them. -/
structure State (κ θ γ δ : Type) where
  bus : EventBus.State κ θ γ
  inFlight : List (Push θ γ δ)
  queues : θ → EventQueue.State (Push θ γ δ)
  dropped : θ → Option (List (Push θ γ δ))

inductive Label (κ θ γ δ : Type)
  | bus (label : EventBus.Label κ θ γ δ)
  | push (push : Push θ γ δ)
  /-- The dispatching thread of a queue, or its timer. -/
  | queue (queue : θ) (label : EventQueue.Label (Push θ γ δ))
  /-- `~EventQueue`, with the descriptor of the timer removed from the loop. -/
  | destroy (queue : θ)

/-- What a call of the bus pushes, in this order. -/
def pushes : EventBus.Label κ θ γ δ → List (Push θ γ δ)
  | .notify _ _ _ pushes => pushes
  | .broadcast _ _ pushes => pushes.map Prod.snd
  | _ => []

/-- The labels of a queue but its pushes, which come from the bus. -/
def Own : EventQueue.Label (Push θ γ δ) → Prop
  | .push _ => False
  | _ => True

def isFor [DecidableEq θ] (queue : θ) (push : Push θ γ δ) : Bool := push.queue = some queue

section Steps

variable [DecidableEq κ] [DecidableEq θ]

/-- A call of the bus waits for the mutex; its pushes and the steps of the queues interleave. A queue
is destroyed when no `shared_ptr` is left, that of a call which pushes to it included, and it must not
be while its thread is in its handler. -/
inductive Step : State κ θ γ δ → Label κ θ γ δ → State κ θ γ δ → Prop
  | bus {s : State κ θ γ δ} {label bus} (free : s.inFlight = [] ∨ ∃ queue, label = .expire queue)
      (h : EventBus.Step s.bus label bus) :
      Step s (.bus label) { s with bus, inFlight := s.inFlight ++ pushes label }
  | push {s : State κ θ γ δ} {push rest queue t} (first : s.inFlight = push :: rest)
      (named : push.queue = some queue) (h : EventQueue.Step (s.queues queue) (.push push) t) :
      Step s (.push push) { s with inFlight := rest, queues := update s.queues queue t }
  | queue {s : State κ θ γ δ} {queue label t} (kept : s.dropped queue = none) (own : Own label)
      (h : EventQueue.Step (s.queues queue) label t) :
      Step s (.queue queue label) { s with queues := update s.queues queue t }
  | destroy {s : State κ θ γ δ} {queue} (kept : s.dropped queue = none)
      (expired : s.bus.alive queue = false) (pushed : s.inFlight.filter (isFor queue) = [])
      (idle : (s.queues queue).stage = .idle) :
      Step s (.destroy queue) { s with
        queues := update s.queues queue EventQueue.initial
        dropped := update s.dropped queue (some (s.queues queue).queue) }

end Steps

def start (alive : θ → Bool) : State κ θ γ δ :=
  ⟨⟨[], alive⟩, [], fun _ => EventQueue.initial, fun _ => none⟩

def busLabels (labels : List (Label κ θ γ δ)) : List (EventBus.Label κ θ γ δ) :=
  labels.filterMap fun
    | .bus label => some label
    | _ => none

/-- What happens to one queue. -/
def project [DecidableEq θ] (queue : θ) (labels : List (Label κ θ γ δ)) : List (EventQueue.Label (Push θ γ δ)) :=
  labels.filterMap fun
    | .push push => if push.queue = some queue then some (.push push) else none
    | .queue other label => if other = queue then some label else none
    | _ => none

/-- What the calls of the bus publish to a queue. -/
def published [DecidableEq θ] (labels : List (EventBus.Label κ θ γ δ)) (queue : θ) : List (Push θ γ δ) :=
  (labels.flatMap pushes).filter (isFor queue)

variable {s t : State κ θ γ δ} {alive : θ → Bool} {label : Label κ θ γ δ}
  {labels more : List (Label κ θ γ δ)}

theorem busLabels_append : busLabels (labels ++ more) = busLabels labels ++ busLabels more :=
  List.filterMap_append ..

theorem project_append [DecidableEq θ] (queue : θ) :
    project queue (labels ++ more) = project queue labels ++ project queue more :=
  List.filterMap_append ..

theorem pushed_append (labels more : List (EventQueue.Label κ)) :
    pushed (labels ++ more) = pushed labels ++ pushed more :=
  List.filterMap_append ..

theorem published_append [DecidableEq θ] (labels more : List (EventBus.Label κ θ γ δ)) (queue : θ) :
    published (labels ++ more) queue = published labels queue ++ published more queue := by
  rw [published, List.flatMap_append, List.filter_append]
  rfl

section Queues

variable {s t : EventQueue.State (Push θ γ δ)}

/-- What the thread of a queue and its timer do, as long as no callback throws. -/
def Quiet (_ : EventQueue.State (Push θ γ δ)) (label : EventQueue.Label (Push θ γ δ)) : Prop :=
  Own label ∧ Returns label

theorem next_quiet {first : EventQueue.State (Push θ γ δ)} {more : List (EventQueue.Label (Push θ γ δ))}
    {label : EventQueue.Label (Push θ γ δ)} (run : Run (Restrict Quiet EventQueue.Step) first more s)
    (h : EventQueue.Step s label t) (quiet : Quiet s label) :
    Run (Restrict Quiet EventQueue.Step) first (more ++ [label]) t :=
  run.next ⟨quiet, h⟩

theorem settle_idle (queue : List (Push θ γ δ)) (timer : Timer) :
    ∃ more t, Run (Restrict Quiet EventQueue.Step) ⟨queue, timer, .returned⟩ more t ∧ t.stage = .idle ∧
      t.queue = queue :=
  ⟨_, _, next_quiet .start .settle ⟨trivial, trivial⟩, rfl, rfl⟩

/-- A callback that was taken from the queue is called, and its thread becomes free. -/
theorem popped_idle (queue : List (Push θ γ δ)) (timer : Timer) (callback : Push θ γ δ) :
    ∃ more t, Run (Restrict Quiet EventQueue.Step) ⟨queue, timer, .popped callback⟩ more t ∧
      t.stage = .idle ∧ t.queue = queue := by
  obtain ⟨more, t, rest, idle, same⟩ := settle_idle queue timer
  have called : Run (Restrict Quiet EventQueue.Step) ⟨queue, timer, .popped callback⟩ _ _ :=
    next_quiet (next_quiet .start .call ⟨trivial, trivial⟩) .returned ⟨trivial, trivial⟩
  exact ⟨_, t, called.trans rest, idle, same⟩

theorem run_quiet_consistent {more : List (EventQueue.Label (Push θ γ δ))} (h : Consistent s)
    (run : Run (Restrict Quiet EventQueue.Step) s more t) : Consistent t :=
  run.invariant h fun h hs =>
    EventQueue.step_consistent h (EventQueue.returns_leaves hs.1.2) hs.2

theorem thread_idle (h : Consistent s) : ∃ more t, Run (Restrict Quiet EventQueue.Step) s more t ∧
    t.stage = .idle ∧ t.queue.length ≤ s.queue.length := by
  obtain ⟨queue, timer, stage⟩ := s
  cases stage with
  | idle => exact ⟨[], _, Run.start, rfl, le_rfl⟩
  | reported => exact ⟨_, _, next_quiet .start .failed ⟨trivial, trivial⟩, rfl, le_rfl⟩
  | entered =>
    cases queue with
    | nil => exact absurd rfl (EventQueue.entered_queued h rfl)
    | cons callback queue =>
      obtain ⟨more, t, rest, idle, same⟩ := popped_idle queue timer callback
      have popped : Run (Restrict Quiet EventQueue.Step) ⟨callback :: queue, timer, .entered⟩ _ _ :=
        next_quiet .start .pop ⟨trivial, trivial⟩
      refine ⟨_, t, popped.trans rest, idle, ?_⟩
      rw [same]
      exact Nat.le_succ _
  | popped callback =>
    obtain ⟨more, t, rest, idle, same⟩ := popped_idle queue timer callback
    exact ⟨more, t, rest, idle, by rw [same]⟩
  | running =>
    obtain ⟨more, t, rest, idle, same⟩ := settle_idle queue timer
    have returned : Run (Restrict Quiet EventQueue.Step) ⟨queue, timer, .running⟩ _ _ :=
      next_quiet .start .returned ⟨trivial, trivial⟩
    exact ⟨_, t, returned.trans rest, idle, by rw [same]⟩
  | returned =>
    obtain ⟨more, t, rest, idle, same⟩ := settle_idle queue timer
    exact ⟨more, t, rest, idle, by rw [same]⟩

/-- With its thread free, the timer fires as long as something is queued, and the thread calls it. -/
theorem thread_round (h : Consistent s) (idle : s.stage = .idle) (queued : s.queue ≠ []) :
    ∃ more t, Run (Restrict Quiet EventQueue.Step) s more t ∧ t.stage = .idle ∧
      t.queue.length < s.queue.length := by
  have armed := h.queued queued
  obtain ⟨queue, ⟨armed', expired⟩, stage⟩ := s
  cases idle
  cases armed
  cases queue with
  | nil => exact absurd rfl queued
  | cons callback queue =>
    obtain ⟨more, t, rest, idle, same⟩ := popped_idle queue ⟨true, 0⟩ callback
    have popped : Run (Restrict Quiet EventQueue.Step) ⟨callback :: queue, ⟨true, expired⟩, .idle⟩ _ _ :=
      next_quiet (next_quiet (next_quiet (next_quiet .start .expire ⟨trivial, trivial⟩)
        .report ⟨trivial, trivial⟩) .read ⟨trivial, trivial⟩) .pop ⟨trivial, trivial⟩
    refine ⟨_, t, popped.trans rest, idle, ?_⟩
    rw [same]
    exact Nat.lt_succ_self _

theorem queue_drains (h : Consistent s) : ∃ more t, Run (Restrict Quiet EventQueue.Step) s more t ∧
    t.awaiting = [] := by
  obtain ⟨first, t, begun, idle, bound⟩ := thread_idle h
  have consistent := run_quiet_consistent h begun
  clear h bound
  -- Each round takes one callback from the queue.
  induction hn : t.queue.length using Nat.strong_induction_on generalizing first t with
  | _ n ih =>
    by_cases queued : t.queue = []
    · exact ⟨first, t, begun, by rw [EventQueue.State.awaiting, idle, queued]⟩
    · obtain ⟨more, t', round, idle', less⟩ := thread_round consistent idle queued
      exact ih t'.queue.length (hn ▸ less) _ _ (begun.trans round) idle'
        (run_quiet_consistent consistent round) rfl

end Queues

variable [DecidableEq κ] [DecidableEq θ]

theorem bus_run (run : Run Step (start alive) labels s) :
    Run EventBus.Step ⟨[], alive⟩ (busLabels labels) s.bus := by
  induction run with
  | start => exact Run.start
  | next _ hs ih =>
    rw [busLabels_append]
    cases hs with
    | bus free h => exact ih.next h
    | push | queue | destroy =>
      simp only [busLabels, List.filterMap_cons, List.filterMap_nil, List.append_nil]
      exact ih

theorem run_represents {s : EventBus.State κ θ γ} {labels : List (EventBus.Label κ θ γ δ)}
    (run : Run EventBus.Step ⟨[], alive⟩ labels s) : Represents s (table labels) := by
  have empty : Represents (⟨[], alive⟩ : EventBus.State κ θ γ) fun _ _ => none :=
    ⟨⟨List.nodup_nil, by simp⟩, by simp [EventBus.lookup, UnorderedMap.find], by simp⟩
  exact run.simulates (fun table s => Represents s table) empty step_represents

/-- The pushes come from the calls in their order, and wait for the mutex in between. -/
theorem pushed_published (run : Run Step (start alive) labels s) (queue : θ) :
    published (busLabels labels) queue =
      pushed (project queue labels) ++ s.inFlight.filter (isFor queue) := by
  induction run with
  | start => rfl
  | @next labels s label t _ hs ih =>
    rw [busLabels_append, published_append, ih, project_append, pushed_append]
    cases hs with
    | @bus label bus free h => simp [busLabels, project, published, pushed, List.filter_append]
    | @push push rest other t first named h =>
      rw [first]
      by_cases own : other = queue
      · simp [busLabels, project, published, pushed, isFor, named, own]
      · simp [busLabels, project, published, pushed, isFor, named, own]
    | @queue other label t kept own h =>
      by_cases same : other = queue
      · cases label with
        | push => exact own.elim
        | _ => simp [busLabels, project, published, pushed, same]
      · simp [busLabels, project, published, pushed, same]
    | destroy => simp [busLabels, project, published, pushed]

omit [DecidableEq κ] [DecidableEq θ] in
/-- What is published names a queue that was alive when the call was made. -/
theorem pushes_live {m : EventBus.Table κ θ γ} {alive alive' : θ → Bool} {call : EventBus.Label κ θ γ δ}
    (h : Prescribed m alive alive' call) {push : Push θ γ δ} (member : push ∈ pushes call) :
    ∃ queue, push.queue = some queue ∧ alive queue = true := by
  have named : ∀ {sub : EventBus.Subscription θ γ} {data : δ}, sub.live alive = true →
      ∃ queue, (sub.bind data).queue = some queue ∧ alive queue = true := by
    intro sub data live
    cases queue : sub.queue with
    | some queue' =>
      rw [EventBus.Subscription.live, queue] at live
      exact ⟨queue', queue, live⟩
    | none =>
      rw [EventBus.Subscription.live, queue] at live
      cases live
  cases call with
  | notify name action data pushed =>
    change pushed = _ at h
    change push ∈ pushed at member
    rw [h] at member
    split at member
    · split at member
      next live =>
        rw [List.mem_singleton.mp member]
        exact named live
      next => cases member
    · cases member
  | broadcast action data pushed =>
    obtain ⟨moment, before, _, _, each⟩ := h
    obtain ⟨⟨name, push'⟩, listed, rfl⟩ := List.mem_map.mp member
    obtain ⟨sub, _, live, rfl⟩ := (each name push').mp listed
    exact named ((before name).live live)
  | _ => cases member

omit [DecidableEq κ] in
theorem pushes_expired {m : EventBus.Table κ θ γ} {alive alive' : θ → Bool} {call : EventBus.Label κ θ γ δ}
    (h : Prescribed m alive alive' call) {queue : θ} (expired : alive queue = false) :
    (pushes call).filter (isFor queue) = [] := by
  refine List.filter_eq_nil_iff.mpr fun push member own => ?_
  obtain ⟨other, to_other, live⟩ := pushes_live h member
  have same : push.queue = some queue := of_decide_eq_true own
  rw [to_other] at same
  rw [Option.some.inj same, expired] at live
  cases live

/-- Before its end a queue has come about by its own steps. Behind it the queue is not alive, nothing is
to be pushed to it, and what was not called has been dropped. -/
structure Accounted (queue : θ) (labels : List (Label κ θ γ δ)) (s : State κ θ γ δ) : Prop where
  run : s.dropped queue = none →
    Run EventQueue.Step EventQueue.initial (project queue labels) (s.queues queue)
  dropped : ∀ callbacks, s.dropped queue = some callbacks →
    pushed (project queue labels) = called (project queue labels) ++ callbacks
  expired : s.dropped queue ≠ none → s.bus.alive queue = false
  inFlight : s.dropped queue ≠ none → s.inFlight.filter (isFor queue) = []

omit [DecidableEq κ] in
/-- A step that leaves the queue alone. -/
theorem Accounted.frame {queue : θ} (h : Accounted queue labels s) (silent : project queue more = [])
    (same : t.queues queue = s.queues queue) (dropped : t.dropped queue = s.dropped queue)
    (expired : s.bus.alive queue = false → t.bus.alive queue = false)
    (inFlight : s.bus.alive queue = false → s.inFlight.filter (isFor queue) = [] →
      t.inFlight.filter (isFor queue) = []) :
    Accounted queue (labels ++ more) t := by
  have project_eq : project queue (labels ++ more) = project queue labels := by
    rw [project_append, silent, List.append_nil]
  constructor
  · rw [dropped, project_eq, same]
    exact h.run
  · rw [dropped, project_eq]
    exact h.dropped
  · rw [dropped]
    exact fun ended => expired (h.expired ended)
  · rw [dropped]
    exact fun ended => inFlight (h.expired ended) (h.inFlight ended)

omit [DecidableEq κ] in
/-- A step that a queue takes before its end. -/
theorem Accounted.own {queue : θ} (h : Accounted queue labels s) (kept : s.dropped queue = none)
    {label : Label κ θ γ δ} {step : EventQueue.Label (Push θ γ δ)} (projected : project queue [label] = [step])
    (hs : EventQueue.Step (s.queues queue) step (t.queues queue)) (dropped : t.dropped = s.dropped) :
    Accounted queue (labels ++ [label]) t := by
  rw [← dropped] at kept
  refine ⟨?_, ?_, fun ended => absurd kept ended, fun ended => absurd kept ended⟩
  · intro _
    rw [project_append, projected]
    exact (h.run (dropped ▸ kept)).next hs
  · intro callbacks ended
    rw [kept] at ended
    cases ended

omit [DecidableEq κ] in
theorem Accounted.destroyed {queue : θ} (h : Accounted queue labels s) (kept : s.dropped queue = none)
    (expired : s.bus.alive queue = false) (nothing : s.inFlight.filter (isFor queue) = [])
    (idle : (s.queues queue).stage = .idle) :
    Accounted queue (labels ++ [.destroy queue]) { s with
      queues := update s.queues queue EventQueue.initial
      dropped := update s.dropped queue (some (s.queues queue).queue) } := by
  have silent : project queue [(.destroy queue : Label κ θ γ δ)] = [] := rfl
  refine ⟨?_, ?_, fun _ => expired, fun _ => nothing⟩
  · intro ended
    simp only [update_self, reduceCtorEq] at ended
  · intro callbacks ended
    simp only [update_self, Option.some.injEq] at ended
    subst ended
    rw [project_append, silent, List.append_nil, pushed_eq (h.run kept), EventQueue.State.awaiting, idle]

omit [DecidableEq κ] in
/-- A queue that is pushed to has not ended. -/
theorem Accounted.pushed_kept {queue : θ} (h : Accounted queue labels s) {push : Push θ γ δ}
    {rest : List (Push θ γ δ)} (first : s.inFlight = push :: rest) (named : push.queue = some queue) :
    s.dropped queue = none := by
  by_contra ended
  have empty := h.inFlight ended
  have own : isFor queue push = true := decide_eq_true named
  rw [first, List.filter_cons_of_pos own] at empty
  cases empty

theorem accounted_step {m : EventBus.Table κ θ γ} (represents : Represents s.bus m) {queue : θ}
    (h : Accounted queue labels s) (hs : Step s label t) : Accounted queue (labels ++ [label]) t := by
  cases hs with
  | @bus call bus free hb =>
    refine h.frame rfl rfl rfl ?_ ?_
    · intro expired
      by_contra live
      have before := EventBus.step_outlives hb queue (Bool.eq_true_of_not_eq_false live)
      rw [expired] at before
      cases before
    · intro expired empty
      rw [List.filter_append, empty, pushes_expired (step_prescribed represents hb) expired, List.append_nil]
  | @push push rest other t first named hq =>
    by_cases same : other = queue
    · subst same
      have projected : project other [(.push push : Label κ θ γ δ)] = [.push push] := by simp [project, named]
      refine h.own (h.pushed_kept first named) projected ?_ rfl
      simp only [update_self]
      exact hq
    · refine h.frame (by simp [project, named, same]) (update_of_ne (Ne.symm same) ..) rfl id ?_
      intro _ empty
      rw [first] at empty
      exact List.filter_eq_nil_iff.mpr fun later member =>
        List.filter_eq_nil_iff.mp empty later (List.mem_cons_of_mem _ member)
  | @queue other label t kept own hq =>
    by_cases same : other = queue
    · subst same
      have projected : project other [(.queue other label : Label κ θ γ δ)] = [label] := by simp [project]
      refine h.own kept projected ?_ rfl
      simp only [update_self]
      exact hq
    · exact h.frame (by simp [project, same]) (update_of_ne (Ne.symm same) ..) rfl id fun _ => id
  | @destroy other kept expired nothing idle =>
    by_cases same : other = queue
    · subst same
      exact h.destroyed kept expired nothing idle
    · exact h.frame rfl (update_of_ne (Ne.symm same) ..) (update_of_ne (Ne.symm same) ..) id fun _ => id

theorem accounted (run : Run Step (start alive) labels s) (queue : θ) : Accounted queue labels s := by
  induction run with
  | start =>
    refine ⟨fun _ => Run.start, ?_, fun ended => absurd rfl ended, fun _ => rfl⟩
    intro callbacks ended
    cases ended
  | next earlier hs ih => exact accounted_step (run_represents (bus_run earlier)) ih hs

theorem published_eq (run : Run Step (start alive) labels s) {queue : θ} (kept : s.dropped queue = none) :
    published (busLabels labels) queue =
      called (project queue labels) ++ (s.queues queue).awaiting ++ s.inFlight.filter (isFor queue) := by
  rw [pushed_published run queue, pushed_eq ((accounted run queue).run kept)]

/-- The queue is destroyed with one of its two callbacks called. -/
def ended : List (Label Nat Nat Nat Nat) :=
  [.bus (.subscribe 0 1 ⟨some 7, some 3⟩ true), .bus (.notify 0 1 5 [⟨some 7, some 3, 5⟩]),
    .push ⟨some 7, some 3, 5⟩, .bus (.notify 0 1 6 [⟨some 7, some 3, 6⟩]), .push ⟨some 7, some 3, 6⟩,
    .queue 7 .expire, .queue 7 .report, .queue 7 .read, .queue 7 .pop, .queue 7 (.call ⟨some 7, some 3, 5⟩),
    .queue 7 .returned, .queue 7 .settle, .bus (.expire 7), .destroy 7]

theorem inFlight_named (run : Run Step (start alive) labels s) {push : Push θ γ δ}
    (member : push ∈ s.inFlight) : ∃ queue, push.queue = some queue := by
  induction run with
  | start => cases member
  | next earlier hs ih =>
    cases hs with
    | bus free h =>
      rcases List.mem_append.mp member with before | new
      · exact ih before
      · obtain ⟨queue, named, _⟩ := pushes_live (step_prescribed (run_represents (bus_run earlier)) h) new
        exact ⟨queue, named⟩
    | push first named h =>
      refine ih ?_
      rw [first]
      exact List.mem_cons_of_mem _ member
    | queue kept own h => exact ih member
    | destroy => exact ih member

/-- Every callback returns. -/
def NoThrow : Label κ θ γ δ → Prop
  | .queue _ label => Returns label
  | _ => True

/-- The call that has the mutex goes on pushing, and the thread of the queue goes on. -/
def Drains (queue : θ) : Label κ θ γ δ → Prop
  | .push _ => True
  | .queue other label => other = queue ∧ Returns label
  | .bus _ => False
  | .destroy _ => False

theorem flush (named : ∀ push ∈ s.inFlight, ∃ queue, push.queue = some queue) (queue : θ) :
    ∃ more t, Run (Restrict (fun _ => Drains queue) Step) s more t ∧ t.inFlight = [] ∧
      t.dropped = s.dropped := by
  induction waiting : s.inFlight generalizing s with
  | nil => exact ⟨[], s, Run.start, waiting, rfl⟩
  | cons push rest ih =>
    obtain ⟨other, to_other⟩ := named push (by rw [waiting]; exact List.mem_cons_self ..)
    have next : ∃ t, EventQueue.Step (s.queues other) (.push push) t := ⟨_, .push⟩
    obtain ⟨t, pushed⟩ := next
    have step : Run (Restrict (fun _ => Drains queue) Step) s [.push push]
        { s with inFlight := rest, queues := update s.queues other t } :=
      Run.start.next ⟨trivial, .push waiting to_other pushed⟩
    have others : ∀ later ∈ rest, ∃ queue, later.queue = some queue := fun later member =>
      named later (by rw [waiting]; exact List.mem_cons_of_mem _ member)
    obtain ⟨more, t', run, done, same⟩ := ih (s := { s with
      inFlight := rest
      queues := update s.queues other t }) others rfl
    exact ⟨_, t', step.trans run, done, same⟩

/-- The steps of one queue are steps of the whole. -/
theorem lift_queue {queue : θ} {first t : EventQueue.State (Push θ γ δ)}
    {more : List (EventQueue.Label (Push θ γ δ))} (run : Run (Restrict Quiet EventQueue.Step) first more t)
    (at_first : s.queues queue = first) (kept : s.dropped queue = none) :
    Run (Restrict (fun _ => Drains queue) Step) s (more.map (.queue queue))
      { s with queues := update s.queues queue t } := by
  induction run with
  | start =>
    rw [← at_first, Function.update_eq_self]
    exact Run.start
  | @next labels t label t' _ hs ih =>
    rw [List.map_append]
    have step : EventQueue.Step (update s.queues queue t queue) label t' := by
      rw [update_self]
      exact hs.2
    have moved : Step { s with queues := update s.queues queue t } (.queue queue label)
        { s with queues := update (update s.queues queue t) queue t' } := .queue kept hs.1.1 step
    rw [Function.update_idem] at moved
    exact ih.next ⟨⟨rfl, hs.1.2⟩, moved⟩

theorem drains_silent {queue : θ} (run : Run (Restrict (fun _ => Drains queue) Step) s more t) :
    busLabels more = [] := by
  induction run with
  | start => rfl
  | next _ hs ih =>
    rw [busLabels_append, ih]
    obtain ⟨drains, hs⟩ := hs
    cases hs with
    | bus | destroy => exact drains.elim
    | push | queue => rfl

theorem queues_consistent (queue : θ) (run : Run (Restrict (fun _ => NoThrow) Step) (start alive) labels s) :
    Consistent (s.queues queue) := by
  induction run with
  | start => exact EventQueue.consistent_initial
  | next _ hs before =>
    obtain ⟨returns, hs⟩ := hs
    cases hs with
    | bus => exact before
    | @push push rest other t first named h =>
      by_cases own : other = queue
      · subst own
        simp only [update_self]
        refine EventQueue.step_consistent before ?_ h
        trivial
      · simp only [update_of_ne (Ne.symm own)]
        exact before
    | @queue other label t kept own h =>
      by_cases same : other = queue
      · subst same
        simp only [update_self]
        exact EventQueue.step_consistent before (EventQueue.returns_leaves returns) h
      · simp only [update_of_ne (Ne.symm same)]
        exact before
    | @destroy other =>
      by_cases same : other = queue
      · subst same
        simp only [update_self]
        exact EventQueue.consistent_initial
      · simp only [update_of_ne (Ne.symm same)]
        exact before

/-- From every state that the bus and the queues can reach while callbacks return, the pushes under way
and the thread and the timer of a queue that is alive by themselves bring about that all that was
published to the queue has been called, in the order of publication. -/
theorem published_called (run : Run (Restrict (fun _ => NoThrow) Step) (start alive) labels s) {queue : θ}
    (live : s.bus.alive queue = true) :
    ∃ more t, Run (Restrict (fun _ => Drains queue) Step) s more t ∧
      called (project queue (labels ++ more)) = published (busLabels labels) queue := by
  have whole := run.mono fun hs => hs.2
  have kept : s.dropped queue = none := by
    by_contra ended
    have expired := (accounted whole queue).expired ended
    rw [live] at expired
    cases expired
  obtain ⟨pushing, s', flushed, empty, same⟩ := flush (fun _ member => inFlight_named whole member) queue
  rw [← same] at kept
  have noThrow : ∀ {s t : State κ θ γ δ} {label : Label κ θ γ δ},
      Restrict (fun _ => Drains queue) Step s label t → Restrict (fun _ => NoThrow) Step s label t := by
    intro s t label hs
    refine ⟨?_, hs.2⟩
    cases label with
    | queue other label => exact hs.1.2
    | _ => trivial
  obtain ⟨steps, q, drained, none⟩ := queue_drains (queues_consistent queue (run.trans (flushed.mono noThrow)))
  have all := flushed.trans (lift_queue drained rfl kept)
  refine ⟨_, _, all, ?_⟩
  have order := published_eq (whole.trans (all.mono fun hs => hs.2)) kept
  rw [busLabels_append, drains_silent all, List.append_nil] at order
  rw [order]
  simp only [update_self, none, empty, List.filter_nil, List.append_nil]

def notified : List (Label Nat Nat Nat Nat) :=
  [.bus (.subscribe 0 1 ⟨some 7, some 3⟩ true), .bus (.notify 0 1 5 [⟨some 7, some 3, 5⟩])]

theorem notified_run : ∃ s : State Nat Nat Nat Nat,
    Run (Restrict (fun _ => NoThrow) Step) (start fun _ => true) notified s ∧ s.bus.alive 7 = true :=
  ⟨_, (Run.start.next ⟨trivial, .bus (.inl rfl) (.subscribe rfl)⟩).next
    ⟨trivial, .bus (.inl rfl) (.notify rfl)⟩, rfl⟩

theorem notified_called : ∃ more : List (Label Nat Nat Nat Nat),
    called (project 7 (notified ++ more)) = [⟨some 7, some 3, 5⟩] := by
  obtain ⟨s, run, live⟩ := notified_run
  obtain ⟨more, _, _, all⟩ := published_called run live
  exact ⟨more, all⟩

end EventDelivery

end Hlib
