import Hlib.EventLoopDispatch

namespace Hlib

open Function (update update_self update_of_ne)
open Transition (Run Restrict)

namespace EventLoop

/-- Where the callback of `m_pipe[0]` stands. -/
inductive WakeStage
  | idle
  /-- Before its `read`. -/
  | entered
  /-- With the byte, before `m_interrupt = true`. -/
  | taken
  | done
  deriving DecidableEq, Repr

/-- A loop with the bytes in `m_pipe`; `flushing` tells whether `flush()` is at its loop. -/
structure Woken (κ : Type) where
  core : State κ
  bytes : Nat
  hook : WakeStage
  flushing : Bool

inductive WakeLabel (κ : Type)
  | core (label : Label κ)
  /-- A successful `interrupt()`. -/
  | interrupt
  /-- The `read` in the callback of `m_pipe[0]`. -/
  | read
  | flush
  | drain
  | drained

variable {κ : Type} {wake : Fd} {s t u : Woken κ} {label : WakeLabel κ}

/-- `EventLoop()`, with `wake` for `m_pipe[0]`. -/
def constructed (wake : Fd) (callback : κ) : Woken κ where
  core := initial { interest := update (fun _ => none) wake (some Read)
                    callbacks := update (fun _ => none) wake (some callback) }
  bytes := 0
  hook := .idle
  flushing := false

/-- The steps that the pipe and its callback leave to the loop. `epoll_wait` reports `m_pipe[0]` only
with a byte in it, and times out only without; nobody else knows the descriptor. -/
def Permits (wake : Fd) (s : Woken κ) : Label κ → Prop
  | .dispatch => s.flushing = false
  | .timeout => s.core.loop.interest wake ≠ none → s.bytes = 0
  | .arrive fd _ => fd = wake → 0 < s.bytes
  | .interrupt => s.hook = .taken
  | .returned => s.hook = .idle ∨ s.hook = .done
  | .thrown => s.hook = .idle
  | .add fd _ _ _ => fd ≠ wake
  | .modify fd _ => fd ≠ wake
  | .change fd _ => fd ≠ wake
  | .remove fd => fd ≠ wake
  | _ => True

def hookAfter (wake : Fd) (s : Woken κ) : Label κ → WakeStage
  | .invoke =>
    match s.core.stage with
    | .found fd _ _ => if fd = wake then .entered else .idle
    | _ => s.hook
  | .interrupt => .done
  | .returned => .idle
  | _ => s.hook

inductive WakeStep (wake : Fd) : Woken κ → WakeLabel κ → Woken κ → Prop
  | core {s : Woken κ} {label next} (permits : Permits wake s label) (h : Step s.core label next) :
      WakeStep wake s (.core label) { s with core := next, hook := hookAfter wake s label }
  | interrupt {s : Woken κ} : WakeStep wake s .interrupt { s with bytes := s.bytes + 1 }
  | read {s : Woken κ} {rest} (entered : s.hook = .entered) (byte : s.bytes = rest + 1) :
      WakeStep wake s .read { s with bytes := rest, hook := .taken }
  | flush {s : Woken κ} (outside : s.core.stage = .outside) :
      WakeStep wake s .flush { s with flushing := true }
  | drain {s : Woken κ} {rest} (flushing : s.flushing = true) (byte : s.bytes = rest + 1) :
      WakeStep wake s .drain { s with bytes := rest }
  | drained {s : Woken κ} (flushing : s.flushing = true) (empty : s.bytes = 0) :
      WakeStep wake s .drained { s with flushing := false }

/-- The successful calls of `interrupt()` in a step. -/
def WakeLabel.issued : WakeLabel κ → Nat
  | .interrupt => 1
  | _ => 0

def WakeLabel.flushed : WakeLabel κ → Nat
  | .drain => 1
  | _ => 0

def WakeLabel.ended : WakeLabel κ → Nat
  | .core .interrupted => 1
  | _ => 0

/-- In a callback or back at the test of `m_interrupt`. -/
def Stage.untested : Stage κ → Bool
  | .calling | .top => true
  | _ => false

/-- Whether the dispatch has taken a byte and is about to end for it. -/
def Woken.ending (s : Woken κ) : Nat :=
  if s.hook = .taken ∨ s.core.interrupt = true ∧ s.core.stage.untested = true then 1 else 0

/-- The event on its way to its callback is that of `fd`. -/
def Stage.For (fd : Fd) : Stage κ → Prop
  | .arrived other _ | .looking other _ | .found other _ _ => other = fd
  | _ => False

structure Tokens (wake : Fd) (s : Woken κ) : Prop where
  watched : s.core.loop.interest wake = some Read
  known : s.core.loop.callbacks wake ≠ none
  quiet : s.core.stage.Tested → s.core.interrupt = false
  inside : s.hook ≠ .idle → s.core.stage = .calling
  done : s.core.stage = .calling → (s.core.interrupt = true ↔ s.hook = .done)
  ready : s.core.stage.For wake ∨ s.hook = .entered → 0 < s.bytes
  outside : s.flushing = true → s.core.stage = .outside

theorem tokens_constructed (wake : Fd) (callback : κ) : Tokens wake (constructed wake callback) where
  watched := by simp [constructed, initial]
  known := by simp [constructed, initial]
  quiet := nofun
  inside := fun h => absurd rfl h
  done := nofun
  ready := by
    rintro (h | h)
    · exact h.elim
    · cases h
  outside := nofun

theorem others_keep_wake {loop loop' : EventLoop κ} {fd : Fd} {events : Option Events}
    {callback : Option κ} (other : fd ≠ wake)
    (h : loop' = ⟨update loop.interest fd events, update loop.callbacks fd callback⟩) :
    loop'.interest wake = loop.interest wake ∧ loop'.callbacks wake = loop.callbacks wake := by
  subst h
  exact ⟨update_of_ne other.symm _ _, update_of_ne other.symm _ _⟩

theorem tokens_loop (h : Tokens wake s) {loop : EventLoop κ}
    (same : loop.interest wake = s.core.loop.interest wake ∧
      loop.callbacks wake = s.core.loop.callbacks wake) (owned : Bool) :
    Tokens wake { s with core := { s.core with loop := loop, owned := owned } } where
  watched := same.1.trans h.watched
  known := by
    change loop.callbacks wake ≠ none
    rw [same.2]
    exact h.known
  quiet := h.quiet
  inside := h.inside
  done := h.done
  ready := h.ready
  outside := h.outside

theorem hook_idle (h : Tokens wake s) (elsewhere : s.core.stage ≠ .calling) : s.hook = .idle := by
  by_contra hook
  exact elsewhere (h.inside hook)

theorem still_dispatching (h : Tokens wake s) (dispatching : s.core.stage ≠ .outside) :
    s.flushing = false := by
  by_contra flushing
  exact dispatching (h.outside (eq_true_of_ne_false flushing))

theorem tokens_moved (h : Tokens wake s) {interrupt owned : Bool} {stage : Stage κ}
    (still : s.flushing = false) (elsewhere : s.core.stage ≠ .calling) (next : stage ≠ .calling)
    (quiet : stage.Tested → interrupt = false) (ready : stage.For wake → 0 < s.bytes) :
    Tokens wake { s with core := ⟨s.core.loop, interrupt, owned, stage⟩ } where
  watched := h.watched
  known := h.known
  quiet := quiet
  inside := fun hook => absurd (hook_idle h elsewhere) hook
  done := fun calling => absurd calling next
  ready := by
    rintro (own | entered)
    · exact ready own
    · cases (hook_idle h elsewhere).symm.trans entered
  outside := fun flushing => by cases still.symm.trans flushing

theorem tokens_invoke (h : Tokens wake s) {fd : Fd} {events : Events} {callback : κ}
    (found : s.core.stage = .found fd events callback) :
    Tokens wake { s with core := { s.core with stage := .calling }, hook := hookAfter wake s .invoke } where
  watched := h.watched
  known := h.known
  quiet := nofun
  inside := fun _ => rfl
  done := by
    intro _
    have quiet : s.core.interrupt = false := h.quiet (by rw [found]; trivial)
    refine iff_of_false (by simp [quiet]) ?_
    simp only [hookAfter, found]
    split <;> nofun
  ready := by
    rintro (own | entered)
    · exact own.elim
    · simp only [hookAfter, found] at entered
      split at entered
      next own => exact h.ready (Or.inl (by rw [found]; exact own))
      next => cases entered
  outside := by
    intro flushing
    cases (still_dispatching h (by rw [found]; nofun)).symm.trans flushing

/-- A callback that returns or throws: one that is not that of `m_pipe[0]`, or that one at its end. -/
theorem tokens_exit (h : Tokens wake s) (calling : s.core.stage = .calling) {owned : Bool}
    {stage : Stage κ} (next : stage = .top ∨ stage = .leaving) :
    Tokens wake { s with core := ⟨s.core.loop, s.core.interrupt, owned, stage⟩, hook := .idle } where
  watched := h.watched
  known := h.known
  quiet := by rcases next with rfl | rfl <;> nofun
  inside := fun hook => absurd rfl hook
  done := by rcases next with rfl | rfl <;> nofun
  ready := by
    rintro (own | entered)
    · rcases next with rfl | rfl <;> exact own.elim
    · cases entered
  outside := by
    intro flushing
    cases (still_dispatching h (by rw [calling]; nofun)).symm.trans flushing

theorem step_tokens (h : Tokens wake s) (hs : WakeStep wake s label t) : Tokens wake t := by
  cases hs with
  | @core label next permits hc =>
    obtain ⟨⟨loop, interrupt, owned, stage⟩, bytes, hook, flushing⟩ := s
    cases hc with
    | dispatch => exact tokens_moved h permits nofun nofun nofun nofun
    | wait => exact tokens_moved h (still_dispatching h nofun) nofun nofun (fun _ => rfl) nofun
    | interrupted | eintr | failed | timeout | relock | miss | leave =>
      exact tokens_moved h (still_dispatching h nofun) nofun nofun nofun nofun
    | arrive =>
      exact tokens_moved h (still_dispatching h nofun) nofun nofun (fun _ => h.quiet trivial) permits
    | lock | find =>
      refine tokens_moved h (still_dispatching h nofun) nofun nofun (fun _ => h.quiet trivial) ?_
      exact fun own => h.ready (Or.inl own)
    | invoke => exact tokens_invoke h rfl
    | interrupt =>
      exact { h with
        quiet := nofun, inside := fun _ => rfl, done := fun _ => iff_of_true rfl rfl
        ready := by
          rintro (own | entered)
          · exact own.elim
          · cases entered }
    | returned => exact tokens_exit h rfl (Or.inl rfl)
    | thrown =>
      cases permits
      exact tokens_exit h rfl (Or.inr rfl)
    | add added =>
      obtain ⟨_, _, _, _, rfl⟩ := add_ok added
      exact tokens_loop h (others_keep_wake permits rfl) false
    | modify modified =>
      obtain ⟨_, _, rfl⟩ := modify_ok modified
      refine tokens_loop h ?_ owned
      exact ⟨update_of_ne (Ne.symm permits) _ _, rfl⟩
    | change changed =>
      obtain ⟨_, _, changed⟩ := bind_ok changed
      obtain ⟨_, _, changed⟩ := bind_ok changed
      cases Except.ok.inj changed
      refine tokens_loop h ?_ false
      exact ⟨rfl, update_of_ne (Ne.symm permits) _ _⟩
    | @remove _ _ _ _ fd removed =>
      by_cases valid : fd = -1
      · rw [remove, if_pos valid] at removed
        cases Except.ok.inj removed
        exact h
      · obtain rfl := remove_ok removed valid
        exact tokens_loop h (others_keep_wake permits rfl) false
  | interrupt => exact { h with ready := fun _ => Nat.succ_pos _ }
  | read entered byte =>
    exact { h with
      inside := fun _ => h.inside (by simp [entered])
      done := by
        intro calling
        refine iff_of_false (fun set => ?_) (by simp)
        cases ((h.done calling).mp set).symm.trans entered
      ready := by
        rintro (own | entered)
        · rw [h.inside (by simp [entered])] at own
          exact own.elim
        · cases entered }
  | flush outside => exact { h with outside := fun _ => outside }
  | drain flushing byte =>
    have outside := h.outside flushing
    exact { h with
      ready := by
        rintro (own | entered)
        · rw [outside] at own
          exact own.elim
        · cases (hook_idle h (by rw [outside]; nofun)).symm.trans entered }
  | drained => exact { h with outside := by simp }

theorem ending_quiet (hook : s.hook ≠ .taken)
    (quiet : s.core.stage.untested = true → s.core.interrupt = false) : s.ending = 0 := by
  refine if_neg ?_
  rintro (taken | ⟨set, untested⟩)
  · exact hook taken
  · cases (quiet untested).symm.trans set

theorem ending_elsewhere (h : Tokens wake s) (tested : s.core.stage.untested = false) :
    s.ending = 0 := by
  have elsewhere : s.core.stage ≠ .calling := by
    intro calling
    rw [calling] at tested
    cases tested
  refine ending_quiet ?_ ?_
  · rw [hook_idle h elsewhere]
    nofun
  · intro untested
    cases tested.symm.trans untested

theorem ending_other (h : Tokens wake s) (calling : s.core.stage = .calling)
    (idle : s.hook = .idle) : s.ending = 0 := by
  refine ending_quiet (by rw [idle]; nofun) fun _ => eq_false_of_ne_true ?_
  intro set
  cases ((h.done calling).mp set).symm.trans idle

/-- Each step pays for the byte that it takes from the pipe. -/
theorem step_even (h : Tokens wake s) (hs : WakeStep wake s label t) :
    t.bytes + t.ending + (label.flushed + label.ended) = s.bytes + s.ending + label.issued := by
  have ht := step_tokens h hs
  cases hs with
  | @core label next permits hc =>
    obtain ⟨⟨loop, interrupt, owned, stage⟩, bytes, hook, flushing⟩ := s
    cases hc with
    | interrupted =>
      rw [ending_elsewhere ht rfl]
      simp [Woken.ending, Stage.untested, WakeLabel.flushed, WakeLabel.ended, WakeLabel.issued]
    | failed | timeout | arrive | lock | relock | find | leave =>
      rw [ending_elsewhere h rfl, ending_elsewhere ht rfl]
      rfl
    | dispatch =>
      have idle : hook = .idle := hook_idle h nofun
      rw [ending_elsewhere h rfl, ending_quiet (by simp [hookAfter, idle]) fun _ => rfl]
      rfl
    | wait =>
      have idle : hook = .idle := hook_idle h nofun
      rw [ending_elsewhere ht rfl, ending_quiet (by simp [idle]) fun _ => rfl]
      rfl
    | eintr | miss =>
      have idle : hook = .idle := hook_idle h nofun
      have quiet : interrupt = false := h.quiet trivial
      rw [ending_elsewhere h rfl, ending_quiet (by simp [hookAfter, idle]) fun _ => quiet]
      rfl
    | @invoke _ _ _ fd =>
      have quiet : interrupt = false := h.quiet trivial
      rw [ending_elsewhere h rfl, ending_quiet ?_ fun _ => quiet]
      · rfl
      · dsimp only [hookAfter]
        split <;> nofun
    | interrupt =>
      cases permits
      rfl
    | returned =>
      have taken : hook ≠ .taken := by rcases permits with rfl | rfl <;> nofun
      simp [Woken.ending, Stage.untested, hookAfter, taken, WakeLabel.flushed, WakeLabel.ended,
        WakeLabel.issued]
    | thrown =>
      rw [ending_elsewhere ht rfl, ending_other h rfl permits]
      rfl
    | add | modify | change | remove => rfl
  | interrupt =>
    change s.bytes + 1 + s.ending + (0 + 0) = s.bytes + s.ending + 1
    omega
  | @read rest entered byte =>
    have quiet : s.core.interrupt ≠ true := by
      intro set
      cases ((h.done (h.inside (by rw [entered]; nofun))).mp set).symm.trans entered
    rw [ending_quiet (by rw [entered]; nofun) fun _ => eq_false_of_ne_true quiet, byte]
    rfl
  | flush | drained => rfl
  | @drain rest flushing byte =>
    change rest + s.ending + (1 + 0) = s.bytes + s.ending + 0
    omega

/-- A dispatch that is about to end for its byte does nothing else. -/
theorem ending_stays (h : Tokens wake s) (pending : s.ending = 1) (hs : WakeStep wake s label t) :
    t.ending = 1 ∨ label = .core .interrupted := by
  cases hs with
  | @core label next permits hc =>
    obtain ⟨⟨loop, interrupt, owned, stage⟩, bytes, hook, flushing⟩ := s
    cases hc with
    | interrupted => exact Or.inr rfl
    | dispatch | failed | timeout | arrive | lock | relock | find | leave | eintr | miss | invoke =>
      cases (ending_elsewhere h rfl).symm.trans pending
    | wait =>
      have idle : hook = .idle := hook_idle h nofun
      cases (ending_quiet (by simp [idle]) fun _ => rfl).symm.trans pending
    | interrupt =>
      left
      simp [Woken.ending, Stage.untested]
    | returned =>
      left
      have taken : hook ≠ .taken := by rcases permits with rfl | rfl <;> nofun
      simpa [Woken.ending, Stage.untested, hookAfter, taken] using pending
    | thrown =>
      cases (ending_other h rfl permits).symm.trans pending
    | add | modify | change | remove => exact Or.inl pending
  | interrupt | flush | drain | drained => exact Or.inl pending
  | read => exact Or.inl (if_pos (Or.inl rfl))

theorem step_awake (h : Tokens wake s) (dispatching : s.core.stage ≠ .outside)
    (awake : 0 < s.bytes + s.ending) (hs : WakeStep wake s label t)
    (goes : label ≠ .core .interrupted) : 0 < t.bytes + t.ending := by
  have even := step_even h hs
  have unended : label.ended = 0 := by
    unfold WakeLabel.ended
    split
    next => exact absurd rfl goes
    next => rfl
  have unflushed : label.flushed = 0 := by
    cases hs with
    | drain flushing => cases (still_dispatching h dispatching).symm.trans flushing
    | _ => rfl
  omega

/-- An error of `epoll_wait`, an exception from a callback, or one from `lock.lock()`. -/
def Raises (s : Woken κ) : Label κ → Prop
  | .failed | .thrown => True
  | .lock => s.core.owned = true
  | _ => False

/-- A dispatch for which there is a byte ends by an interrupt, if not by an exception. -/
theorem exit_awake (h : Tokens wake s) (awake : 0 < s.bytes + s.ending) {label : Label κ}
    (hs : WakeStep wake s (.core label) t) (before : s.core.stage ≠ .leaving)
    (after : t.core.stage = .leaving) : label = .interrupted ∨ Raises s label := by
  cases hs with
  | core permits hc =>
    obtain ⟨⟨loop, interrupt, owned, stage⟩, bytes, hook, flushing⟩ := s
    cases hc with
    | interrupted => exact Or.inl rfl
    | failed | thrown => exact Or.inr trivial
    | relock => exact Or.inr rfl
    | timeout =>
      have empty : bytes = 0 := permits (by rw [h.watched]; exact Option.some_ne_none _)
      rw [ending_elsewhere h rfl, Nat.add_zero] at awake
      exact absurd empty (Nat.ne_of_gt awake)
    | add | modify | change | remove => exact absurd after before
    | dispatch | eintr | wait | arrive | lock | find | miss | invoke | interrupt | returned | leave =>
      cases after

theorem wake_reported (h : Tokens wake s) (awake : 0 < s.bytes + s.ending)
    (waiting : s.core.stage = .waiting) :
    ∃ t, WakeStep wake s (.core (.arrive wake Read)) t := by
  have quiet : s.ending = 0 := ending_elsewhere h (by rw [waiting]; rfl)
  obtain ⟨⟨loop, interrupt, owned, stage⟩, bytes, hook, flushing⟩ := s
  cases waiting
  refine ⟨_, .core (fun _ => ?_) (.arrive ?_)⟩
  · rw [quiet] at awake
    exact awake
  · rw [h.watched]
    exact Option.some_ne_none _

/-- From the report of the byte on, the dispatching thread does nothing but take it and end. -/
def Delivered (wake : Fd) (s : Woken κ) : Prop :=
  s.core.stage.For wake ∨ s.hook = .entered ∨ s.ending = 1

theorem step_delivered (h : Tokens wake s) (delivered : Delivered wake s)
    (hs : WakeStep wake s label t) :
    Delivered wake t ∨ label = .core .interrupted ∨ label = .core .lock ∧ s.core.owned = true := by
  rcases delivered with own | entered | pending
  · cases hs with
    | @core label next permits hc =>
      obtain ⟨⟨loop, interrupt, owned, stage⟩, bytes, hook, flushing⟩ := s
      cases hc with
      | relock => exact Or.inr (Or.inr ⟨rfl, rfl⟩)
      | lock | find | add | modify | change | remove => exact Or.inl (Or.inl own)
      | miss unknown =>
        cases own
        exact absurd unknown h.known
      | invoke =>
        cases own
        exact Or.inl (Or.inr (Or.inl (if_pos rfl)))
      | interrupted | failed | timeout | thrown | wait | arrive | dispatch | eintr | interrupt |
        returned | leave => exact own.elim
    | interrupt | read | flush | drain | drained => exact Or.inl (Or.inl own)
  · have calling := h.inside (by rw [entered]; nofun)
    cases hs with
    | @core label next permits hc =>
      obtain ⟨⟨loop, interrupt, owned, stage⟩, bytes, hook, flushing⟩ := s
      cases calling
      have entered : hook = .entered := entered
      cases hc with
      | interrupt | thrown => cases entered.symm.trans permits
      | returned => rcases permits with idle | done <;> cases entered.symm.trans ‹_›
      | add | modify | change | remove => exact Or.inl (Or.inr (Or.inl entered))
    | interrupt | flush | drain | drained => exact Or.inl (Or.inr (Or.inl entered))
    | read => exact Or.inl (Or.inr (Or.inr (if_pos (Or.inl rfl))))
  · rcases ending_stays h pending hs with still | ended
    · exact Or.inl (Or.inr (Or.inr still))
    · exact Or.inr (Or.inl ended)

/-- Every descriptor that epoll watches, or has reported, is known. -/
structure Registered (s : State κ) : Prop where
  known : ∀ fd, s.loop.interest fd ≠ none → s.loop.callbacks fd ≠ none
  reported : ∀ fd, s.stage.For fd → s.loop.callbacks fd ≠ none

def Keeps : WakeLabel κ → Prop
  | .core (.remove _) => False
  | _ => True

theorem step_registered {s t : State κ} {label : Label κ} (h : Registered s) (hs : Step s label t)
    (keeps : Keeps (.core label)) : Registered t := by
  cases hs with
  | dispatch | interrupted | wait | eintr | failed | timeout | relock | miss | invoke | interrupt |
    returned | thrown | leave => exact ⟨h.known, nofun⟩
  | arrive watched =>
    refine ⟨h.known, ?_⟩
    rintro fd rfl
    exact h.known _ watched
  | lock | find => exact ⟨h.known, h.reported⟩
  | @add loop loop' _ _ fd _ callback _ added =>
    obtain ⟨_, _, _, _, rfl⟩ := add_ok added
    have kept : ∀ other, other = fd ∨ loop.callbacks other ≠ none →
        update loop.callbacks fd (some callback) other ≠ none := by
      intro other reason
      by_cases own : other = fd
      · rw [own, update_self]
        exact Option.some_ne_none _
      · rw [update_of_ne own]
        exact reason.resolve_left own
    refine ⟨?_, fun other own => kept other (Or.inr (h.reported other own))⟩
    intro other watched
    apply kept
    by_cases own : other = fd
    · exact Or.inl own
    · refine Or.inr (h.known other ?_)
      rwa [← update_of_ne own _ loop.interest]
  | @modify loop loop' _ _ _ fd events modified =>
    obtain ⟨_, old, rfl⟩ := modify_ok modified
    refine ⟨?_, h.reported⟩
    intro other watched
    by_cases own : other = fd
    · exact own ▸ h.known fd old
    · refine h.known other ?_
      rwa [← update_of_ne own _ loop.interest]
  | @change loop loop' _ _ fd callback changed =>
    obtain ⟨_, _, changed⟩ := bind_ok changed
    obtain ⟨_, _, changed⟩ := bind_ok changed
    cases Except.ok.inj changed
    have kept : ∀ other, loop.callbacks other ≠ none →
        update loop.callbacks fd (some callback) other ≠ none := by
      intro other reason
      by_cases own : other = fd
      · rw [own, update_self]
        exact Option.some_ne_none _
      · rwa [update_of_ne own]
    exact ⟨fun other watched => kept other (h.known other watched),
      fun other own => kept other (h.reported other own)⟩
  | remove => exact keeps.elim

/-- Without removals no lookup fails, so that the thread owns the mutex only at its lookups. -/
theorem owned_critical {callback : κ} {labels : List (WakeLabel κ)}
    (run : Run (WakeStep wake) (constructed wake callback) labels s)
    (keeps : ∀ label ∈ labels, Keeps label) : s.core.owned = true → s.core.stage.Critical := by
  have both : Held s.core ∧ Registered s.core := by
    apply (run.restrict keeps).invariant
    · refine ⟨⟨iff_of_false nofun id, nofun⟩, ?_, nofun⟩
      intro fd watched
      by_cases own : fd = wake
      · simp [constructed, initial, own]
      · simp [constructed, initial, update_of_ne own] at watched
    · rintro s label t ⟨held, registered⟩ ⟨keeps, hs⟩
      cases hs with
      | @core label next _ hc =>
        refine ⟨step_held held ?_ hc, step_registered registered hc keeps⟩
        cases label with
        | find => exact fun fd events looking => registered.reported fd (by rw [looking]; rfl)
        | _ => trivial
      | interrupt | read | flush | drain | drained => exact ⟨held, registered⟩
  exact both.1.owned.mp

def Goes (label : WakeLabel κ) : Prop :=
  label ≠ .core .interrupted ∧ label ≠ .core .leave

/-- A dispatch that has a byte to end for. -/
structure Ends (wake : Fd) (s : Woken κ) : Prop where
  awake : 0 < s.bytes + s.ending
  reported : s.core.stage = .waiting → ∃ t, WakeStep wake s (.core (.arrive wake Read)) t
  exit : ∀ label t, WakeStep wake s (.core label) t → s.core.stage ≠ .leaving →
    t.core.stage = .leaving → label = .interrupted ∨ Raises s label

theorem stays_inside (inside : s.core.stage ≠ .outside) (hs : WakeStep wake s label t)
    (goes : Goes label) : t.core.stage ≠ .outside := by
  cases hs with
  | core permits hc =>
    obtain ⟨⟨loop, interrupt, owned, stage⟩, bytes, hook, flushing⟩ := s
    cases hc with
    | leave => exact absurd rfl goes.2
    | add | modify | change | remove => exact inside
    | _ => nofun
  | interrupt | read | flush | drain | drained => exact inside

theorem ends_during {during : List (WakeLabel κ)} (h : Tokens wake s)
    (hs : WakeStep wake s (.core .dispatch) t) (byte : 0 < s.bytes)
    (run : Run (Restrict (fun _ => Goes) (WakeStep wake)) t during u) : Ends wake u := by
  have kept : Tokens wake u ∧ u.core.stage ≠ .outside ∧ 0 < u.bytes + u.ending := by
    apply run.invariant
    · refine ⟨step_tokens h hs, ?_⟩
      cases hs with
      | core permits hc =>
        obtain ⟨⟨loop, interrupt, owned, stage⟩, bytes, hook, flushing⟩ := s
        cases hc
        exact ⟨nofun, Nat.lt_of_lt_of_le byte (Nat.le_add_right _ _)⟩
    · rintro s label t ⟨h, inside, awake⟩ ⟨goes, hs⟩
      exact ⟨step_tokens h hs, stays_inside inside hs goes, step_awake h inside awake hs goes.1⟩
  obtain ⟨hu, _, awake⟩ := kept
  refine ⟨awake, wake_reported hu awake, ?_⟩
  exact fun label t hs before after => exit_awake hu awake hs before after

theorem interrupted_ending (hs : WakeStep wake s (.core .interrupted) t) : s.ending = 1 := by
  cases hs with
  | core permits hc =>
    obtain ⟨⟨loop, interrupt, owned, stage⟩, bytes, hook, flushing⟩ := s
    cases hc
    simp [Woken.ending, Stage.untested]

/-- The interrupts issued are the bytes in the pipe, those that `flush()` took and the dispatches that
ended, or are about to end, for one. -/
def Accounted (labels : List (WakeLabel κ)) (s : Woken κ) : Prop :=
  (labels.map WakeLabel.issued).sum = s.bytes + (labels.map WakeLabel.flushed).sum +
    ((labels.map WakeLabel.ended).sum + s.ending)

theorem accounted {callback : κ} {labels : List (WakeLabel κ)}
    (run : Run (WakeStep wake) (constructed wake callback) labels s) : Accounted labels s := by
  have balance : s.bytes + s.ending + (labels.map fun label => label.flushed + label.ended).sum =
      0 + (labels.map WakeLabel.issued).sum :=
    run.balance (tokens_constructed wake callback) (fun h hs => step_tokens h hs)
      fun h hs => step_even h hs
  rw [List.sum_map_add] at balance
  unfold Accounted
  omega

/-- In every run each interrupt is accounted for; a dispatch that took a byte ends for it and does
nothing else, and no other ends by an interrupt; the callback of `m_pipe[0]` finds its byte; and a
dispatch that starts with a byte in the pipe ends for one, unless an exception ends it first. -/
theorem interrupts_are_tokens {callback : κ} {labels : List (WakeLabel κ)}
    (run : Run (WakeStep wake) (constructed wake callback) labels s) :
    Accounted labels s ∧
      (∀ {t}, WakeStep wake s (.core .interrupted) t → s.ending = 1) ∧
      (∀ {label t}, WakeStep wake s label t → s.ending = 1 →
        t.ending = 1 ∨ label = .core .interrupted) ∧
      (∀ {label t}, WakeStep wake s label t → Delivered wake s →
        Delivered wake t ∨ label = .core .interrupted ∨
          label = .core .lock ∧ s.core.owned = true) ∧
      (s.hook = .entered → 0 < s.bytes) ∧
      (∀ {t during u}, WakeStep wake s (.core .dispatch) t → 0 < s.bytes →
        Run (Restrict (fun _ => Goes) (WakeStep wake)) t during u → Ends wake u) ∧
      ((∀ label ∈ labels, Keeps label) → s.core.owned = true → s.core.stage.Critical) := by
  have h : Tokens wake s :=
    run.invariant (tokens_constructed wake callback) fun h hs => step_tokens h hs
  refine ⟨accounted run, interrupted_ending, ?_, ?_, ?_, ?_, owned_critical run⟩
  · exact fun hs pending => ending_stays h pending hs
  · exact fun hs delivered => step_delivered h delivered hs
  · exact fun entered => h.ready (Or.inr entered)
  · exact fun hs byte during => ends_during h hs byte during

/-- An interrupt, and a dispatch that ends for it. -/
def interruptedFirst : List (WakeLabel Unit) :=
  [.interrupt, .core .dispatch, .core .wait, .core (.arrive 3 Read), .core .lock, .core .find,
    .core .invoke, .read, .core .interrupt, .core .returned, .core .interrupted]

theorem interrupts_are_tokens_first :
    ∃ s : Woken Unit, Run (WakeStep 3) (constructed 3 ()) interruptedFirst s ∧ s.bytes = 0 ∧
      Accounted interruptedFirst s := by
  have last : ∃ s : Woken Unit, Run (WakeStep 3) (constructed 3 ()) interruptedFirst s ∧
      s.bytes = 0 := by
    refine ⟨_, ((((((((((Run.start.next .interrupt).next (.core rfl .dispatch)).next
      (.core trivial .wait)).next (.core (fun _ => Nat.one_pos) (.arrive (by decide)))).next
      (.core trivial .lock)).next (.core trivial (.find rfl))).next (.core trivial .invoke)).next
      (.read rfl rfl)).next (.core rfl .interrupt)).next (.core (Or.inr rfl) .returned)).next
      (.core trivial .interrupted), rfl⟩
  obtain ⟨s, run, empty⟩ := last
  exact ⟨s, run, empty, (interrupts_are_tokens run).1⟩

end EventLoop

end Hlib
