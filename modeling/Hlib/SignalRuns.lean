import Hlib.SignalHandlers
import Hlib.Transition

namespace Hlib

open Function (update update_self update_of_ne)
open UnorderedMap
open Transition (Run Restrict)

namespace Signal

variable {κ : Type}

/-- Whether the instruction is part of a call, or of a handler that has not found its entry, which is
about the signal. -/
def Instruction.concerns (signal : Signal) : Instruction κ → Bool
  | .clear s | .defuse s | .remove s | .emplace s _ | .install s | .undo s | .lookUp s | .get s
  | .handle s => s = signal
  | .callback _ => false

def pending (todo : List (Instruction κ)) (signal : Signal) : List (Instruction κ) :=
  todo.filter fun instruction => instruction.concerns signal

/-- The callback that a call leaves with its signal. -/
def Call.wanted : Call κ → Option (Callback κ)
  | .set signal callback => if signal.refused then none else some callback
  | .clear _ => none
  | .wait _ => none

/-- The callback that the last of the calls for the signal is to leave. -/
def wanted (labels : List (Label κ)) (signal : Signal) : Option (Callback κ) :=
  labels.foldl
    (fun before label => match label with
      | .call call => if call.signal = signal then call.wanted else before
      | _ => before)
    none

def Call.Fit : Call κ → Prop
  | .set _ callback => callback ≠ .empty ∧ callback ≠ .waiter
  | .clear _ => True
  | .wait signal => signal.refused = false

/-- A callback does not call for a signal whose call it interrupts, or whose handler it interrupts before that
has found its entry; and a signal for which the thread waits comes once. -/
def Allowed (s : State κ) : Label κ → Prop
  | .call call => pending s.todo call.signal = [] ∧ call.Fit
  | .deliver signal => ∀ entry, find s.handlers signal = some entry → entry.callback = .waiter →
      entry.promise = false
  | _ => True

section Phases

variable (signal : Signal)

/-- What is left of a call after `install`, by the callback of its entry. -/
inductive After : Option (Callback κ) → Callback κ → List (Instruction κ) → Prop
  | set {callback} (called : callback ≠ .empty) (user : callback ≠ .waiter) :
      After (if signal.refused then none else some callback) callback []
  | wait (accepted : signal.refused = false) :
      After none .waiter [.lookUp signal, .get signal, .clear signal]

/-- What is left of a call after `clear`. -/
inductive Resumes : Option (Callback κ) → List (Instruction κ) → Prop
  | clear : Resumes none []
  | set {goal callback rest} (after : After signal goal callback rest) :
      Resumes goal (.emplace signal callback :: .install signal :: rest)

/-- What is left to do for a signal while the handler of the library is installed for it. -/
inductive Active : Option (Callback κ) → List (Instruction κ) → ActiveSignalHandler κ → Prop
  | idle {callback entry} (has : entry.callback = callback) (user : callback ≠ .waiter) :
      Active (some callback) [] entry
  | clear {goal rest entry} (resumes : Resumes signal goal rest) : Active goal (.clear signal :: rest) entry
  | defuse {goal rest entry} (resumes : Resumes signal goal rest) :
      Active goal (.defuse signal :: rest) entry
  | lookUp {entry} (waits : entry.callback = .waiter) :
      Active none [.lookUp signal, .get signal, .clear signal] entry
  | get {entry} (waits : entry.callback = .waiter) : Active none [.get signal, .clear signal] entry

/-- How the entry and the action of a signal stand to what is left to do for it. -/
inductive Phase (first : Action) : Option (Callback κ) → List (Instruction κ) →
    Option (ActiveSignalHandler κ) → Action → Prop
  | absent : Phase first none [] none first
  | clear {goal rest} (resumes : Resumes signal goal rest) :
      Phase first goal (.clear signal :: rest) none first
  | emplace {goal callback rest} (after : After signal goal callback rest) :
      Phase first goal (.emplace signal callback :: .install signal :: rest) none first
  | install {goal callback rest} (after : After signal goal callback rest) :
      Phase first goal (.install signal :: rest) (some { callback }) first
  | undo {entry} : Phase first none [.undo signal] (some entry) first
  | remove {goal rest entry} (resumes : Resumes signal goal rest) :
      Phase first goal (.remove signal :: rest) (some entry) first
  | active {goal left entry} (active : Active signal goal left entry) (called : entry.callback ≠ .empty)
      (old : entry.oldAction = first) (accepted : signal.refused = false) :
      Phase first goal left (some entry) .handler
  | handle {goal left entry} (active : Active signal goal left entry) (called : entry.callback ≠ .empty)
      (old : entry.oldAction = first) (accepted : signal.refused = false)
      (once : entry.callback = .waiter → entry.promise = false) :
      Phase first goal (.handle signal :: left) (some entry) .handler

end Phases

structure Inv (actions : Signal → Action) (labels : List (Label κ)) (s : State κ) : Prop where
  distinct : Distinct s.handlers
  phase : ∀ signal, Phase signal (actions signal) (wanted labels signal) (pending s.todo signal)
    (find s.handlers signal) (s.actions signal)

theorem pending_cons_own {instruction : Instruction κ} {signal : Signal}
    (own : instruction.concerns signal = true) (todo : List (Instruction κ)) :
    pending (instruction :: todo) signal = instruction :: pending todo signal :=
  List.filter_cons_of_pos own

theorem pending_cons_other {instruction : Instruction κ} {signal : Signal}
    (other : instruction.concerns signal = false) (todo : List (Instruction κ)) :
    pending (instruction :: todo) signal = pending todo signal :=
  List.filter_cons_of_neg (by rw [other]; exact Bool.false_ne_true)

/-- Nothing has changed for the signal. -/
def Same (s t : State κ) (todo : List (Instruction κ)) (signal : Signal) : Prop :=
  pending t.todo signal = pending todo signal ∧ find t.handlers signal = find s.handlers signal ∧
    t.actions signal = s.actions signal

variable {s t : State κ} {signal : Signal} {todo : List (Instruction κ)} {first : Action}
  {goal : Option (Callback κ)}

theorem Resumes.phase {rest : List (Instruction κ)} (h : Resumes signal goal rest) :
    Phase signal first goal rest none first := by
  cases h with
  | clear => exact .absent
  | set after => exact .emplace after

theorem concerns_other {instruction : Instruction κ} (own : instruction.concerns signal = true)
    {other : Signal} (ne : other ≠ signal) : instruction.concerns other = false := by
  cases instruction <;> simp_all [Instruction.concerns]
  all_goals exact Ne.symm ne

theorem pending_other {instruction : Instruction κ} {other : Signal} (own : instruction.concerns signal = true)
    (ne : other ≠ signal) (todo : List (Instruction κ)) :
    pending (instruction :: todo) other = pending todo other :=
  pending_cons_other (concerns_other own ne) todo

theorem entry_of {entry : ActiveSignalHandler κ} (found : find s.handlers signal = some entry)
    (fault : Fault) : s.entry signal fault = .ok entry := by
  rw [State.entry, found]

/-- What is next for a signal does not fail, and leaves the other signals alone. -/
def Executes (s : State κ) (todo : List (Instruction κ)) (instruction : Instruction κ) (signal : Signal)
    (first : Action) (goal : Option (Callback κ)) : Prop :=
  ∃ t, execute s todo instruction = .ok t ∧ Distinct t.handlers ∧
    Phase signal first goal (pending t.todo signal) (find t.handlers signal) (t.actions signal) ∧
    ∀ other, other ≠ signal → Same s t todo other

theorem execute_active {instruction : Instruction κ} {entry : ActiveSignalHandler κ}
    (active : Active signal goal (instruction :: pending todo signal) entry) (called : entry.callback ≠ .empty)
    (old : entry.oldAction = first) (accepted : signal.refused = false) (distinct : Distinct s.handlers)
    (at_entry : find s.handlers signal = some entry) (at_action : s.actions signal = .handler) :
    Executes s todo instruction signal first goal := by
  generalize at_left : instruction :: pending todo signal = left at active
  cases active with
  | idle => cases at_left
  | clear resumes =>
    obtain ⟨rfl, rest⟩ := List.cons.inj at_left
    refine ⟨{ s with todo := .defuse signal :: todo }, by simp only [execute, at_entry], distinct, ?_, ?_⟩
    · rw [pending_cons_own (by simp [Instruction.concerns])]
      simp only [at_entry, at_action, rest]
      exact .active (.defuse resumes) called old accepted
    · exact fun other ne => ⟨pending_other (by simp [Instruction.concerns]) ne _, rfl, rfl⟩
  | defuse resumes =>
    obtain ⟨rfl, rest⟩ := List.cons.inj at_left
    refine ⟨{ s with
      actions := update s.actions signal entry.oldAction
      todo := .remove signal :: todo }, ?_, distinct, ?_, ?_⟩
    · simp only [execute, entry_of at_entry, ok_bind, accepted, Bool.false_eq_true, ↓reduceIte]
    · rw [pending_cons_own (by simp [Instruction.concerns])]
      simp only [at_entry, update_self, rest, old]
      exact .remove resumes
    · exact fun other ne => ⟨pending_other (by simp [Instruction.concerns]) ne _, rfl, update_of_ne ne _ _⟩
  | lookUp waits =>
    obtain ⟨rfl, rest⟩ := List.cons.inj at_left
    refine ⟨{ s with todo }, ?_, distinct, ?_, fun _ _ => ⟨rfl, rfl, rfl⟩⟩
    · simp only [execute, entry_of at_entry, ok_bind]
    · simp only [at_entry, at_action, rest]
      exact .active (.get waits) called old accepted
  | get waits =>
    obtain ⟨rfl, rest⟩ := List.cons.inj at_left
    refine ⟨{ s with todo }, ?_, distinct, ?_, fun _ _ => ⟨rfl, rfl, rfl⟩⟩
    · simp only [execute, entry_of at_entry, ok_bind]
    · simp only [at_entry, at_action, rest]
      exact .active (.clear .clear) called old accepted

theorem execute_install {callback : Callback κ} (after : After signal goal callback (pending todo signal))
    (distinct : Distinct s.handlers) (at_entry : find s.handlers signal = some { callback })
    (at_action : s.actions signal = first) : Executes s todo (.install signal) signal first goal := by
  by_cases refused : signal.refused = true
  · refine ⟨{ s with todo := .undo signal :: todo }, ?_, distinct, ?_, ?_⟩
    · simp only [execute, entry_of at_entry, ok_bind, if_pos refused]
    · rw [pending_cons_own (by simp [Instruction.concerns])]
      simp only [at_entry, at_action]
      generalize pending todo signal = left at after ⊢
      cases after with
      | set called user =>
        rw [if_pos refused]
        exact .undo
      | wait accepted => simp [accepted] at refused
    · exact fun other ne => ⟨pending_other (by simp [Instruction.concerns]) ne _, rfl, rfl⟩
  · rw [Bool.not_eq_true] at refused
    refine ⟨{ s with
      handlers := assign s.handlers signal { callback, oldAction := s.actions signal }
      actions := update s.actions signal .handler
      todo }, ?_, distinct_assign distinct _ _, ?_, ?_⟩
    · simp only [execute, entry_of at_entry, ok_bind, refused, Bool.false_eq_true, ↓reduceIte]
    · simp only [find_assign_self, update_self, at_action]
      generalize pending todo signal = left at after ⊢
      cases after with
      | set called user =>
        simp only [refused, Bool.false_eq_true, ↓reduceIte]
        exact .active (.idle rfl user) called rfl refused
      | wait accepted => exact .active (.lookUp rfl) (by simp) rfl refused
    · intro other ne
      exact ⟨rfl, find_assign_of_ne _ _ ne, update_of_ne ne _ _⟩

theorem execute_handle {entry : ActiveSignalHandler κ}
    (active : Active signal goal (pending todo signal) entry) (called : entry.callback ≠ .empty)
    (old : entry.oldAction = first) (accepted : signal.refused = false)
    (once : entry.callback = .waiter → entry.promise = false) (distinct : Distinct s.handlers)
    (at_entry : find s.handlers signal = some entry) (at_action : s.actions signal = .handler) :
    Executes s todo (.handle signal) signal first goal := by
  cases hc : entry.callback with
  | empty => exact absurd hc called
  | waiter =>
    refine ⟨{ s with handlers := assign s.handlers signal { entry with promise := true }, todo }, ?_,
      distinct_assign distinct _ _, ?_, ?_⟩
    · simp only [execute, entry_of at_entry, ok_bind, hc, require_of (once hc)]
    · simp only [find_assign_self, at_action]
      refine .active ?_ called old accepted
      generalize pending todo signal = left at active ⊢
      cases active with
      | idle has user => exact absurd (has.symm.trans hc) user
      | clear resumes => exact .clear resumes
      | defuse resumes => exact .defuse resumes
      | lookUp waits => exact .lookUp waits
      | get waits => exact .get waits
    · intro other ne
      exact ⟨rfl, find_assign_of_ne _ _ ne, rfl⟩
  | user call =>
    refine ⟨{ s with todo := .callback signal :: todo }, ?_, distinct, ?_, ?_⟩
    · simp only [execute, entry_of at_entry, ok_bind, hc]
    · rw [pending_cons_other rfl]
      simp only [at_entry, at_action]
      exact .active active called old accepted
    · exact fun other _ => ⟨pending_cons_other rfl _, rfl, rfl⟩

theorem execute_phase {instruction : Instruction κ} (own : instruction.concerns signal = true)
    (distinct : Distinct s.handlers)
    (h : Phase signal first goal (instruction :: pending todo signal) (find s.handlers signal)
      (s.actions signal)) :
    Executes s todo instruction signal first goal := by
  generalize at_entry : find s.handlers signal = entry at h
  generalize at_action : s.actions signal = action at h
  generalize at_left : instruction :: pending todo signal = left at h
  cases h with
  | absent => cases at_left
  | clear resumes =>
    obtain ⟨rfl, rest⟩ := List.cons.inj at_left
    refine ⟨{ s with todo }, by simp only [execute, at_entry], distinct, ?_, fun _ _ => ⟨rfl, rfl, rfl⟩⟩
    simp only [at_entry, at_action, rest]
    exact resumes.phase
  | @emplace _ callback _ after =>
    obtain ⟨rfl, rest⟩ := List.cons.inj at_left
    refine ⟨{ s with handlers := emplace s.handlers signal { callback }, todo }, ?_, ?_, ?_, ?_⟩
    · simp only [execute, at_entry, require_of, ok_bind]
    · exact distinct_emplace distinct at_entry _
    · simp only [find_emplace, at_entry, at_action, rest, ↓reduceIte, Option.none_or]
      exact .install after
    · intro other ne
      refine ⟨rfl, ?_, rfl⟩
      simp only [find_emplace, if_neg ne.symm, Option.or_none]
  | install after =>
    obtain ⟨rfl, rest⟩ := List.cons.inj at_left
    exact execute_install (rest ▸ after) distinct at_entry at_action
  | undo =>
    obtain ⟨rfl, rest⟩ := List.cons.inj at_left
    refine ⟨{ s with handlers := erase s.handlers signal, todo }, rfl, distinct_filter distinct _, ?_, ?_⟩
    · simp only [find_erase_self, at_action, rest]
      exact .absent
    · intro other ne
      exact ⟨rfl, find_erase_of_ne distinct ne, rfl⟩
  | remove resumes =>
    obtain ⟨rfl, rest⟩ := List.cons.inj at_left
    refine ⟨{ s with handlers := erase s.handlers signal, todo }, ?_, distinct_filter distinct _, ?_, ?_⟩
    · simp only [execute, entry_of at_entry, ok_bind]
    · simp only [find_erase_self, at_action, rest]
      exact resumes.phase
    · intro other ne
      exact ⟨rfl, find_erase_of_ne distinct ne, rfl⟩
  | active active called old accepted =>
    rw [← at_left] at active
    exact execute_active active called old accepted distinct at_entry at_action
  | handle active called old accepted once =>
    obtain ⟨rfl, rest⟩ := List.cons.inj at_left
    exact execute_handle (rest ▸ active) called old accepted once distinct at_entry at_action

theorem wanted_call (labels : List (Label κ)) (call : Call κ) (signal : Signal) :
    wanted (labels ++ [.call call]) signal = if call.signal = signal then call.wanted else wanted labels signal := by
  rw [wanted, List.foldl_append]
  rfl

theorem wanted_other {label : Label κ} (other : ∀ call, label ≠ .call call) (labels : List (Label κ))
    (signal : Signal) : wanted (labels ++ [label]) signal = wanted labels signal := by
  rw [wanted, List.foldl_append]
  cases label with
  | call call => exact absurd rfl (other call)
  | _ => rfl

theorem Inv.start {actions : Signal → Action} : Inv actions [] (start actions : State κ) where
  distinct := List.nodup_nil
  phase := fun _ => .absent

theorem body_concerns (call : Call κ) {instruction : Instruction κ} (member : instruction ∈ call.body)
    (signal : Signal) : instruction.concerns signal = decide (call.signal = signal) := by
  cases call <;>
    simp only [Call.body, setSignalHandler, clearSignalHandler, waitForSignal, List.cons_append,
      List.nil_append, List.mem_cons, List.not_mem_nil, or_false] at member <;>
    rcases member with rfl | rfl | rfl | rfl | rfl | rfl <;> rfl

theorem pending_call (call : Call κ) (todo : List (Instruction κ)) (signal : Signal) :
    pending (call.body ++ todo) signal =
      if call.signal = signal then call.body ++ pending todo signal else pending todo signal := by
  rw [pending, List.filter_append]
  split
  next own =>
    rw [List.filter_eq_self.mpr]
    · rfl
    · intro instruction member
      rw [body_concerns call member, decide_eq_true own]
  next other =>
    rw [List.filter_eq_nil_iff.mpr]
    · rfl
    · intro instruction member
      rw [body_concerns call member, decide_eq_false other]
      exact Bool.false_ne_true

/-- A call that begins has everything before it. -/
theorem resumes_call (call : Call κ) (fit : call.Fit) :
    ∃ rest, call.body = .clear call.signal :: rest ∧ Resumes call.signal call.wanted rest := by
  cases call with
  | set signal callback => exact ⟨_, rfl, .set (.set fit.1 fit.2)⟩
  | clear signal => exact ⟨_, rfl, .clear⟩
  | wait signal => exact ⟨_, rfl, .set (.wait fit)⟩

/-- The signal that an instruction is about, if it is not a callback. -/
theorem concerns_some (instruction : Instruction κ) (h : ∀ signal, instruction ≠ .callback signal) :
    ∃ signal, instruction.concerns signal = true := by
  cases instruction with
  | callback signal => exact absurd rfl (h signal)
  | clear signal | defuse signal | remove signal | emplace signal _ | install signal | undo signal
  | lookUp signal | get signal | handle signal => exact ⟨signal, by simp [Instruction.concerns]⟩

section Runs

variable {actions : Signal → Action} {labels : List (Label κ)} {label : Label κ}

/-- A call begins with what clears the signal, where nothing was left to do for it. -/
theorem phase_called {goal' : Option (Callback κ)} {entry : Option (ActiveSignalHandler κ)} {action : Action}
    {rest : List (Instruction κ)} (resumes : Resumes signal goal' rest)
    (h : Phase signal first goal [] entry action) :
    Phase signal first goal' (.clear signal :: rest) entry action := by
  cases h with
  | absent => exact .clear resumes
  | active active called old accepted => exact .active (.clear resumes) called old accepted

/-- The handler is called where it is installed and does not run. -/
theorem phase_delivered {entry : Option (ActiveSignalHandler κ)} {left : List (Instruction κ)}
    (foreign : first ≠ .handler) (h : Phase signal first goal left entry .handler)
    (free : .handle signal ∉ left)
    (once : ∀ e, entry = some e → e.callback = .waiter → e.promise = false) :
    Phase signal first goal (.handle signal :: left) entry .handler := by
  generalize at_action : Action.handler = action at h
  cases h with
  | active active called old accepted =>
    exact .handle active called old accepted fun waits => once _ rfl waits
  | handle => exact absurd (List.mem_cons_self ..) free
  | _ => exact absurd at_action.symm foreign

/-- An allowed label that the thread or the system can take does not fail. -/
theorem next_inv (foreign : ∀ signal, actions signal ≠ .handler) (h : Inv actions labels s)
    (enabled : Enabled s label) (allowed : Allowed s label) :
    ∃ t, next s label = .ok t ∧ Inv actions (labels ++ [label]) t := by
  cases label with
  | call call =>
    obtain ⟨quiet, fit⟩ := allowed
    refine ⟨_, rfl, h.distinct, fun signal => ?_⟩
    rw [wanted_call]
    change Phase signal _ _ (pending (call.body ++ s.todo) signal) _ _
    rw [pending_call]
    have before := h.phase signal
    by_cases own : call.signal = signal
    · subst own
      obtain ⟨rest, body, resumes⟩ := resumes_call call fit
      rw [if_pos rfl, if_pos rfl, quiet, List.append_nil, body]
      rw [quiet] at before
      exact phase_called resumes before
    · rw [if_neg own, if_neg own]
      exact before
  | run instruction =>
    obtain ⟨⟨todo, top⟩, running, _⟩ := enabled
    obtain ⟨signal, own⟩ := concerns_some instruction running
    have before := h.phase signal
    rw [top, pending_cons_own own] at before
    obtain ⟨t, done, distinct, phase, same⟩ := execute_phase own h.distinct before
    refine ⟨t, by rw [next, top, List.tail_cons, done], distinct, fun other => ?_⟩
    rw [wanted_other (fun _ => by simp)]
    by_cases ne : other = signal
    · rw [ne]
      exact phase
    · obtain ⟨left, entry, action⟩ := same other ne
      have before := h.phase other
      rw [top, pending_cons_other (concerns_other own ne)] at before
      rw [left, entry, action]
      exact before
  | finish =>
    obtain ⟨signal, todo, top⟩ := enabled
    refine ⟨_, rfl, h.distinct, fun other => ?_⟩
    rw [wanted_other (fun _ => by simp)]
    have before := h.phase other
    rw [top, pending_cons_other rfl] at before
    change Phase other _ _ (pending s.todo.tail other) _ _
    rw [top, List.tail_cons]
    exact before
  | deliver signal =>
    obtain ⟨installed, free⟩ := enabled
    refine ⟨_, rfl, h.distinct, fun other => ?_⟩
    rw [wanted_other (fun _ => by simp)]
    change Phase other _ _ (pending (.handle signal :: s.todo) other) _ _
    have before := h.phase other
    by_cases own : other = signal
    · subst own
      rw [pending_cons_own (by simp [Instruction.concerns])]
      change s.actions other = .handler at installed
      change Phase other _ _ _ (find s.handlers other) (s.actions other)
      rw [installed] at before ⊢
      refine phase_delivered (foreign other) before (fun member => free (Or.inl ?_)) allowed
      exact List.mem_of_mem_filter member
    · rw [pending_cons_other (by simp [Instruction.concerns, Ne.symm own])]
      exact before

theorem step_inv (foreign : ∀ signal, actions signal ≠ .handler) (h : Inv actions labels s)
    (hs : Restrict Allowed Step s label t) : Inv actions (labels ++ [label]) t := by
  obtain ⟨allowed, enabled, done⟩ := hs
  obtain ⟨t', done', after⟩ := next_inv foreign h enabled allowed
  cases done.symm.trans done'
  exact after

theorem run_inv (foreign : ∀ signal, actions signal ≠ .handler)
    (run : Run (Restrict Allowed Step) (start actions) labels s) : Inv actions labels s := by
  induction run with
  | start => exact .start
  | next _ hs ih => exact step_inv foreign ih hs

/-- When no call for a signal is under way, its entry has the callback of the last call for it, and the
system has the handler of the library for it, which is to restore the action that there was before the
first call; without an entry the system has that action. -/
theorem signal_settled (foreign : ∀ signal, actions signal ≠ .handler)
    (run : Run (Restrict Allowed Step) (start actions) labels s) (quiet : pending s.todo signal = []) :
    (find s.handlers signal).map ActiveSignalHandler.callback = wanted labels signal ∧
      s.actions signal = (if (wanted labels signal).isSome then .handler else actions signal) ∧
      ∀ entry, find s.handlers signal = some entry → entry.oldAction = actions signal := by
  have phase := (run_inv foreign run).phase signal
  rw [quiet] at phase
  generalize find s.handlers signal = entry at phase
  generalize s.actions signal = action at phase
  generalize wanted labels signal = goal at phase
  cases phase with
  | absent => simp
  | active active called old accepted =>
    cases active with
    | idle has user => simp [old, has]

theorem run_next (run : Run (Restrict Allowed Step) (start actions) labels s) (instruction : Instruction κ)
    (enabled : Enabled s (.run instruction)) (done : execute s s.todo.tail instruction = .ok t) :
    Run (Restrict Allowed Step) (start actions) (labels ++ [.run instruction]) t :=
  run.next ⟨trivial, enabled, done⟩

theorem user1_settled : ∃ s : State Unit, (find s.handlers .user1).map ActiveSignalHandler.callback =
      some (.user ()) ∧ s.actions .user1 = .handler ∧
      ∀ entry, find s.handlers .user1 = some entry → entry.oldAction = .ignore := by
  have called : Run (Restrict Allowed Step) (start fun _ => .ignore) [.call (.set .user1 (.user ()))] _ :=
    Run.start.next ⟨⟨rfl, by simp [Call.Fit]⟩, Or.inl rfl, rfl⟩
  have cleared := run_next called (.clear .user1) ⟨⟨_, rfl⟩, by simp, by simp⟩ rfl
  have added := run_next cleared (.emplace .user1 (.user ())) ⟨⟨_, rfl⟩, by simp, by simp⟩ rfl
  have installed := run_next added (.install .user1) ⟨⟨_, rfl⟩, by simp, by simp⟩ rfl
  exact ⟨_, signal_settled (by simp) installed rfl⟩

end Runs

end Signal

end Hlib
