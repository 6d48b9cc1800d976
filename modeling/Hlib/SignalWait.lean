import Hlib.SignalRuns

namespace Hlib

open Function (update update_self update_of_ne)
open UnorderedMap
open Transition (Run Restrict)

namespace Signal

variable {κ : Type} {s t : State κ} {signal : Signal} {todo : List (Instruction κ)} {first : Action}
  {goal : Option (Callback κ)} {actions : Signal → Action} {labels : List (Label κ)} {label : Label κ}

/-- Whether the signal has come since the handler was last installed for it. -/
def heard (labels : List (Label κ)) (signal : Signal) : Bool :=
  labels.foldl
    (fun before label => match label with
      | .run (.install s) => if s = signal then false else before
      | .deliver s => if s = signal then true else before
      | _ => before)
    false

theorem heard_install (labels : List (Label κ)) (s signal : Signal) :
    heard (labels ++ [.run (.install s)]) signal = if s = signal then false else heard labels signal := by
  rw [heard, List.foldl_append]
  rfl

theorem heard_deliver (labels : List (Label κ)) (s signal : Signal) :
    heard (labels ++ [.deliver s]) signal = if s = signal then true else heard labels signal := by
  rw [heard, List.foldl_append]
  rfl

theorem heard_run {instruction : Instruction κ} (labels : List (Label κ)) {signal : Signal}
    (other : instruction ≠ .install signal) :
    heard (labels ++ [.run instruction]) signal = heard labels signal := by
  cases instruction with
  | install s =>
    rw [heard_install, if_neg]
    rintro rfl
    exact other rfl
  | _ =>
    rw [heard, List.foldl_append]
    rfl

/-- No instruction adds a handler to what is to do. -/
theorem execute_todo {instruction : Instruction κ} (done : execute s todo instruction = .ok t)
    (signal : Signal) : .handle signal ∈ t.todo ↔ .handle signal ∈ todo := by
  cases instruction with
  | clear s' =>
    simp only [execute] at done
    split at done <;> cases done <;> simp
  | defuse s' | install s' =>
    obtain ⟨entry, _, done⟩ := bind_ok done
    split at done <;> cases done <;> simp
  | remove s' | lookUp s' | get s' | emplace s' _ =>
    obtain ⟨entry, _, done⟩ := bind_ok done
    cases done
    rfl
  | undo s' | callback s' =>
    cases done
    rfl
  | handle s' =>
    obtain ⟨entry, _, done⟩ := bind_ok done
    cases hc : entry.callback with
    | empty =>
      simp only [hc] at done
      cases done
    | waiter =>
      simp only [hc] at done
      obtain ⟨_, _, done⟩ := bind_ok done
      cases done
      rfl
    | user call =>
      simp only [hc] at done
      cases done
      simp

theorem entry_ok {fault : Fault} {entry : ActiveSignalHandler κ} (h : s.entry signal fault = .ok entry) :
    find s.handlers signal = some entry := by
  unfold State.entry at h
  split at h
  · cases h
    assumption
  · cases h

theorem phase_defuse {rest : List (Instruction κ)} {entry : ActiveSignalHandler κ} {action : Action}
    (h : Phase signal first goal (.defuse signal :: rest) (some entry) action) : entry.oldAction = first := by
  cases h with
  | active active called old accepted => exact old

theorem phase_emplace {rest : List (Instruction κ)} {callback : Callback κ}
    {entry : Option (ActiveSignalHandler κ)} {action : Action}
    (h : Phase signal first goal (.emplace signal callback :: rest) entry action) : action = first := by
  cases h with
  | emplace => rfl
  | active active => cases active

theorem phase_install {rest : List (Instruction κ)} {entry : ActiveSignalHandler κ} {action : Action}
    (h : Phase signal first goal (.install signal :: rest) (some entry) action) :
    action = first ∧ entry.promise = false ∧ .handle signal ∉ rest := by
  cases h with
  | install after =>
    refine ⟨rfl, rfl, ?_⟩
    cases after <;> simp
  | active active => cases active

theorem phase_handle {rest : List (Instruction κ)} {entry : Option (ActiveSignalHandler κ)} {action : Action}
    (h : Phase signal first goal (.handle signal :: rest) entry action) : action = .handler := by
  cases h with
  | active active => cases active
  | handle => rfl

/-- Where the handler is installed for a thread that waits, it was before, or `install` did it. -/
theorem execute_waiter {instruction : Instruction κ} (own : instruction.concerns signal = true)
    (foreign : first ≠ .handler)
    (h : Phase signal first goal (instruction :: pending todo signal) (find s.handlers signal)
      (s.actions signal))
    (done : execute s todo instruction = .ok t) {entry : ActiveSignalHandler κ}
    (found : find t.handlers signal = some entry) (waits : entry.callback = .waiter)
    (installed : t.actions signal = .handler) :
    (instruction = .install signal ∧ entry.promise = false ∧ .handle signal ∉ pending todo signal) ∨
      ∃ before, find s.handlers signal = some before ∧ before.callback = .waiter ∧
        s.actions signal = .handler ∧ instruction ≠ .install signal ∧
        (entry.promise = true ∧ instruction = .handle signal ∨
          entry.promise = before.promise ∧ instruction ≠ .handle signal) := by
  cases instruction with
  | callback => cases own
  | clear s' =>
    simp only [execute] at done
    split at done <;> cases done <;> exact Or.inr ⟨entry, found, waits, installed, by simp, by simp⟩
  | defuse s' =>
    obtain rfl : s' = signal := by simpa [Instruction.concerns] using own
    obtain ⟨before, present, done⟩ := bind_ok done
    rw [entry_ok present] at h
    split at done
    · cases done
      exact Or.inr ⟨entry, found, waits, installed, by simp, by simp⟩
    · cases done
      change update s.actions s' before.oldAction s' = .handler at installed
      rw [update_self, phase_defuse h] at installed
      exact absurd installed foreign
  | remove s' | undo s' =>
    obtain rfl : s' = signal := by simpa [Instruction.concerns] using own
    first | obtain ⟨before, _, done⟩ := bind_ok done | skip
    cases done
    rw [find_erase_self] at found
    cases found
  | emplace s' callback =>
    obtain rfl : s' = signal := by simpa [Instruction.concerns] using own
    obtain ⟨_, _, done⟩ := bind_ok done
    cases done
    exact absurd ((phase_emplace h).symm.trans installed) foreign
  | install s' =>
    obtain rfl : s' = signal := by simpa [Instruction.concerns] using own
    obtain ⟨before, present, done⟩ := bind_ok done
    rw [entry_ok present] at h
    obtain ⟨action, fresh, none⟩ := phase_install h
    split at done
    · cases done
      exact absurd (action.symm.trans installed) foreign
    · cases done
      rw [find_assign_self] at found
      cases found
      exact Or.inl ⟨rfl, fresh, none⟩
  | lookUp s' | get s' =>
    obtain ⟨before, _, done⟩ := bind_ok done
    cases done
    exact Or.inr ⟨entry, found, waits, installed, by simp, by simp⟩
  | handle s' =>
    obtain rfl : s' = signal := by simpa [Instruction.concerns] using own
    obtain ⟨before, present, done⟩ := bind_ok done
    have action := phase_handle h
    cases hc : before.callback with
    | empty =>
      simp only [hc] at done
      cases done
    | waiter =>
      simp only [hc] at done
      obtain ⟨_, _, done⟩ := bind_ok done
      cases done
      rw [find_assign_self] at found
      cases found
      exact Or.inr ⟨before, entry_ok present, hc, action, by simp, Or.inl ⟨rfl, rfl⟩⟩
    | user call =>
      simp only [hc] at done
      cases done
      change find s.handlers s' = some entry at found
      rw [entry_ok present] at found
      cases found
      rw [hc] at waits
      cases waits

/-- The promise of a thread that waits has its value, or its handler is about to set it, just when the
signal has come since the handler was installed. -/
def Told (labels : List (Label κ)) (s : State κ) : Prop :=
  ∀ signal entry, find s.handlers signal = some entry → entry.callback = .waiter →
    s.actions signal = .handler →
      (heard labels signal = true ↔ entry.promise = true ∨ .handle signal ∈ s.todo)

theorem mem_pending (todo : List (Instruction κ)) (signal : Signal) :
    .handle signal ∈ pending todo signal ↔ .handle signal ∈ todo := by
  rw [pending, List.mem_filter]
  simp [Instruction.concerns]

theorem handle_not_mem_body (call : Call κ) (signal : Signal) : .handle signal ∉ call.body := by
  cases call <;> simp [Call.body, setSignalHandler, clearSignalHandler, waitForSignal]

theorem step_told (foreign : ∀ signal, actions signal ≠ .handler) (inv : Inv actions labels s)
    (h : Told labels s) (hs : Restrict Allowed Step s label t) : Told (labels ++ [label]) t := by
  obtain ⟨allowed, enabled, done⟩ := hs
  intro signal entry found waits installed
  cases label with
  | call call =>
    cases done
    have before := h signal entry found waits installed
    have same : heard (labels ++ [.call call]) signal = heard labels signal := by
      rw [heard, List.foldl_append]
      rfl
    rw [same, before]
    simp [handle_not_mem_body]
  | finish =>
    obtain ⟨_, todo, top⟩ := enabled
    cases done
    have before := h signal entry found waits installed
    have same : heard (labels ++ [.finish]) signal = heard labels signal := by
      rw [heard, List.foldl_append]
      rfl
    rw [same, before, top]
    simp
  | deliver s' =>
    cases done
    have before := h signal entry found waits installed
    rw [heard_deliver]
    by_cases own : s' = signal
    · simp [own]
    · rw [if_neg own, before]
      simp [Ne.symm own]
  | run instruction =>
    obtain ⟨⟨todo, top⟩, running, _⟩ := enabled
    rw [next, top, List.tail_cons] at done
    obtain ⟨s', own⟩ := concerns_some instruction running
    have phase := inv.phase s'
    rw [top, pending_cons_own own] at phase
    rw [execute_todo done]
    by_cases ne : signal = s'
    · subst ne
      rcases execute_waiter own (foreign signal) phase done found waits installed with
        ⟨rfl, fresh, none⟩ | ⟨before, present, waited, action, other, promise⟩
      · rw [heard_install, if_pos rfl, fresh]
        rw [mem_pending] at none
        simp [none]
      · have earlier := h signal before present waited action
        rw [heard_run labels other, earlier, top]
        rcases promise with ⟨set, rfl⟩ | ⟨kept, else_⟩
        · simp [set]
        · simp [kept, Ne.symm else_]
    · obtain ⟨t', done', _, _, same⟩ := execute_phase own inv.distinct phase
      cases done.symm.trans done'
      obtain ⟨_, entries, action⟩ := same signal ne
      have other := concerns_other own ne
      have notInstall : instruction ≠ .install signal := by
        rintro rfl
        simp [Instruction.concerns] at other
      have notHandle : .handle signal ≠ instruction := by
        rintro rfl
        simp [Instruction.concerns] at other
      rw [heard_run labels notInstall, h signal entry (entries ▸ found) waits (action ▸ installed), top,
        List.mem_cons]
      simp [notHandle]

/-- `wait_for_signal` goes on from where it waits just when its signal has come since it installed its
handler: no signal is missed, and it does not return without one. -/
theorem wait_ready_iff (foreign : ∀ signal, actions signal ≠ .handler)
    (run : Run (Restrict Allowed Step) (start actions) labels s) (top : s.todo = .get signal :: todo) :
    Enabled s (.run (.get signal)) ↔ heard labels signal = true := by
  have inv := run_inv foreign run
  have told : Told labels s := by
    clear top inv
    induction run with
    | start =>
      intro signal entry found
      cases found
    | next earlier hs ih => exact step_told foreign (run_inv foreign earlier) ih hs
  have phase := inv.phase signal
  have told := told signal
  rw [← mem_pending s.todo signal] at told
  rw [top, pending_cons_own (by simp [Instruction.concerns])] at phase told
  have unfold_ : Enabled s (.run (.get signal)) ↔ ∀ entry, find s.handlers signal = some entry →
      entry.promise = true := by
    simp only [Enabled, top]
    constructor
    · exact fun h entry found => h.2.2 signal entry rfl found
    · refine fun h => ⟨⟨todo, rfl⟩, by simp, ?_⟩
      intro other entry same found
      cases same
      exact h entry found
  rw [unfold_]
  generalize find s.handlers signal = entry at phase told
  generalize s.actions signal = action at phase told
  generalize pending todo signal = rest at phase told
  generalize wanted labels signal = goal at phase
  cases phase with
  | @active _ _ entry active called old accepted =>
    cases active with
    | get waits =>
      have agrees := told entry rfl waits rfl
      simp only [List.mem_cons, reduceCtorEq, List.not_mem_nil, or_self, or_false] at agrees
      rw [agrees]
      simp

theorem user1_ready : ∃ s : State Unit, s.todo = [.get .user1, .clear .user1] ∧
    (Enabled s (.run (.get .user1)) ↔ @heard Unit [.call (.wait .user1), .run (.clear .user1),
      .run (.emplace .user1 .waiter), .run (.install .user1), .run (.lookUp .user1)] .user1 = true) := by
  have called : Run (Restrict Allowed Step) (start fun _ => .default : State Unit) [.call (.wait .user1)] _ :=
    Run.start.next ⟨⟨rfl, rfl⟩, Or.inl rfl, rfl⟩
  have cleared := run_next called (.clear .user1) ⟨⟨_, rfl⟩, by simp, by simp⟩ rfl
  have added := run_next cleared (.emplace .user1 .waiter) ⟨⟨_, rfl⟩, by simp, by simp⟩ rfl
  have installed := run_next added (.install .user1) ⟨⟨_, rfl⟩, by simp, by simp⟩ rfl
  have waits := run_next installed (.lookUp .user1) ⟨⟨_, rfl⟩, by simp, by simp⟩ rfl
  exact ⟨_, rfl, wait_ready_iff (by simp) waits rfl⟩

end Signal

end Hlib
