import Hlib.EndpointHalves

namespace Hlib

open Function (update update_self update_of_ne)

variable {κ T : Type}

/-- The loop watches just the descriptors it has callbacks for, and never the invalid one. -/
structure EventLoop.Sound (loop : EventLoop κ) : Prop where
  watched : ∀ fd, loop.interest fd ≠ none ↔ loop.callbacks fd ≠ none
  valid : loop.callbacks (-1) = none

/-- A live loop that knows the descriptors of other objects and, where it is open, the object's. -/
structure Tabled (taken : Fd → Bool) (fd : Fd) (eventLoop : Option (EventLoop κ)) : Prop where
  table : ∃ loop, eventLoop = some loop ∧
    (∀ x, loop.callbacks x ≠ none ↔ taken x = true ∨ x = fd ∧ x ≠ -1) ∧
    ∀ x, loop.interest x ≠ none ↔ loop.callbacks x ≠ none
  own : taken fd = false
  invalid : taken (-1) = false

namespace Endpoint

/-- Another object than `io` has the descriptor watched. -/
def foreign (io : Endpoint κ T) (fd : Fd) : Bool :=
  fd ≠ io.fd && (io.eventLoop.bind fun loop => loop.callbacks fd).isSome

variable {io : Endpoint κ T} {taken : Fd → Bool}

theorem tabled_foreign {loop : EventLoop κ} (alive : io.eventLoop = some loop) (sound : loop.Sound)
    (known : loop.callbacks io.fd ≠ none) : Tabled io.foreign io.fd io.eventLoop := by
  have valid : io.fd ≠ -1 := fun invalid => known (invalid ▸ sound.valid)
  refine ⟨⟨loop, alive, ?_, sound.watched⟩, by simp [foreign], ?_⟩
  · intro x
    by_cases own : x = io.fd
    · subst x
      simp [known, valid]
    · simp [foreign, own, alive, Option.isSome_iff_ne_none]
  · simp [foreign, alive, sound.valid]

theorem known_of_tabled (h : Tabled taken io.fd io.eventLoop) : io.Known := by
  intro valid loop alive
  obtain ⟨loop', alive', callbacks, watched⟩ := h.table
  cases Option.some.inj (alive.symm.trans alive')
  have called := (callbacks io.fd).mpr (Or.inr ⟨rfl, valid⟩)
  exact ⟨(watched io.fd).mpr called, called⟩

theorem tabled_retuned {fd : Fd} {before after : Option (EventLoop κ)} (h : Tabled taken fd before)
    (retuned : Retuned fd before after) : Tabled taken fd after := by
  obtain ⟨loop, rfl, callbacks, watched⟩ := h.table
  cases alive : after with
  | none => exact absurd (retuned.none_iff.mp alive) (by simp)
  | some loop' =>
    obtain ⟨_, same, hc, hi⟩ := retuned.callbacks alive
    cases Option.some.inj same
    refine ⟨⟨loop', rfl, ?_, ?_⟩, h.own, h.invalid⟩
    · intro x
      rw [hc]
      exact callbacks x
    · intro x
      rw [hc, Ne, hi]
      exact watched x

theorem tabled_released {eventLoop : Option (EventLoop κ)} (h : Tabled taken io.fd io.eventLoop)
    (released : io.Released eventLoop) : Tabled taken (-1) eventLoop := by
  obtain ⟨loop, alive, callbacks, watched⟩ := h.table
  obtain ⟨dead, _⟩ | ⟨loop', alive', rfl⟩ := released
  · cases alive.symm.trans dead
  · cases Option.some.inj (alive.symm.trans alive')
    refine ⟨⟨_, rfl, ?_, ?_⟩, h.invalid, h.invalid⟩
    · intro x
      by_cases own : x = io.fd
      · subst x
        simp [h.own]
      · simp [callbacks x, own]
    · intro x
      by_cases own : x = io.fd
      · subst x
        simp
      · simp only [update_of_ne own]
        exact watched x

/-- A closed object with a live loop can open any descriptor that no other object has watched. -/
theorem attach_tabled (h : Tabled taken io.fd io.eventLoop) (shut : io.fd = -1) {fd : Fd}
    (valid : fd ≠ -1) (free : taken fd = false) (events : Events) (callback : κ) :
    ∃ loop, io.eventLoop = some loop ∧
      io.attach fd events callback none = .ok (true, io.attached loop fd events callback) ∧
      Tabled taken fd (io.attached loop fd events callback).eventLoop := by
  obtain ⟨loop, alive, callbacks, watched⟩ := h.table
  have unknown : loop.callbacks fd = none := by
    by_contra called
    rcases (callbacks fd).mp called with elsewhere | ⟨own, _⟩
    · rw [free] at elsewhere
      cases elsewhere
    · exact valid (own.trans shut)
  have unwatched : loop.interest fd = none := not_not.mp (mt (watched fd).mp (not_not.mpr unknown))
  refine ⟨loop, alive, ?_, ⟨_, rfl, ?_, ?_⟩, free, h.invalid⟩
  · unfold attach
    rw [alive]
    dsimp only
    rw [EventLoop.add_unknown valid unknown unwatched]
    rfl
  · intro x
    by_cases own : x = fd
    · subst x
      simp [valid]
    · change update loop.callbacks fd (some callback) x ≠ none ↔ _
      rw [update_of_ne own, callbacks x, shut]
      simp only [own, false_and, or_false]
      exact or_iff_left (fun invalid => invalid.2 invalid.1)
  · intro x
    by_cases own : x = fd
    · subst x
      simp
    · change update loop.interest fd (some events) x ≠ none ↔
        update loop.callbacks fd (some callback) x ≠ none
      rw [update_of_ne own, update_of_ne own]
      exact watched x

/-- Nothing can be opened that is invalid or watched for another object, or that epoll refuses. -/
theorem attach_refused (h : Tabled taken io.fd io.eventLoop) {fd : Fd} {ctl : Option Errno}
    (refused : ¬(fd ≠ -1 ∧ taken fd = false ∧ ctl = none)) (events : Events) (callback : κ)
    (result : Bool × Endpoint κ T) : io.attach fd events callback ctl ≠ .ok result := by
  intro attached
  obtain ⟨loop, alive, callbacks, _⟩ := h.table
  obtain ⟨_, dead, _⟩ | ⟨_, valid, granted, loop', alive', unknown, _⟩ :=
    attach_ok attached
  · cases alive.symm.trans dead
  · cases Option.some.inj (alive.symm.trans alive')
    refine refused ⟨valid, ?_, granted⟩
    by_contra elsewhere
    exact (callbacks fd).mpr (Or.inl (eq_true_of_ne_false elsewhere)) unknown

end Endpoint

end Hlib
