import Hlib.EventLoop
import Hlib.UnorderedMap

namespace Hlib

open Function (update update_self update_of_ne)
open UnorderedMap

namespace EventLoop

/-- What epoll keeps of an `epoll_event`. -/
structure Watch where
  events : Events
  data : Fd
  deriving DecidableEq, Repr

inductive Operation
  | add
  | mod
  | del
  deriving DecidableEq, Repr

/-- `epoll_ctl`: the error with which it fails, if any, and the interest list. `refused` is the error
with which it fails on a descriptor that is, or is not, on the list as it has to be. -/
def epollCtl (interest : Fd → Option Watch) (fd : Fd) (event : Watch) (refused : Option Errno) :
    Operation → Option Errno × (Fd → Option Watch)
  | .add =>
    match interest fd, refused with
    | some _, _ => (some 17, interest)
    | none, some errno => (some errno, interest)
    | none, none => (none, update interest fd (some event))
  | .mod =>
    match interest fd, refused with
    | none, _ => (some 2, interest)
    | some _, some errno => (some errno, interest)
    | some _, none => (none, update interest fd (some event))
  | .del =>
    match interest fd, refused with
    | none, _ => (some 2, interest)
    | some _, some errno => (some errno, interest)
    | some _, none => (none, update interest fd none)

/-- `m_callbacks`, and the interest list behind `m_fd`. -/
structure Tables (κ : Type) where
  callbacks : List (Fd × κ) := []
  interest : Fd → Option Watch := fun _ => none

inductive Thrown
  | badAlloc
  | system (errno : Errno)
  deriving DecidableEq, Repr

namespace Tables

variable {κ : Type}

/-- `add(fd, events, callback)`, with what it throws; `memory` is there for the new entry, or not. -/
def add (t : Tables κ) (fd : Fd) (events : Events) (callback : κ) (memory : Bool)
    (refused : Option Errno) : Checked (Option Thrown × Tables κ) := do
  require (fd ≠ -1) .assertion
  require (find t.callbacks fd = none) .assertion
  if memory then
    let callbacks := emplace t.callbacks fd callback
    let (failed, interest) := epollCtl t.interest fd { events, data := fd } refused .add
    match failed with
    | none => .ok (none, { callbacks, interest })
    | some errno => .ok (some (.system errno), { callbacks := erase callbacks fd, interest })
  else .ok (some .badAlloc, { t with callbacks := erase t.callbacks fd })

/-- `modify(fd, events)`, with the error it returns or throws. -/
def modify (t : Tables κ) (fd : Fd) (events : Events) (refused : Option Errno) :
    Checked (Option Errno × Tables κ) := do
  require (fd ≠ -1) .assertion
  let (failed, interest) := epollCtl t.interest fd { events, data := fd } refused .mod
  .ok (failed, { t with interest })

def change (t : Tables κ) (fd : Fd) (callback : κ) : Checked (Tables κ) := do
  require (fd ≠ -1) .assertion
  require (find t.callbacks fd ≠ none) .assertion
  .ok { t with callbacks := assign t.callbacks fd callback }

def remove (t : Tables κ) (fd : Fd) : Checked (Tables κ) :=
  if fd = -1 then .ok t
  else do
    require (find t.callbacks fd ≠ none) .assertion
    let (failed, interest) := epollCtl t.interest fd { events := 0#32, data := fd } none .del
    require (failed = none) .assertion
    .ok { callbacks := erase t.callbacks fd, interest }

inductive Call (κ : Type)
  | add (fd : Fd) (events : Events) (callback : κ) (memory : Bool) (refused : Option Errno)
  | modify (fd : Fd) (events : Events) (refused : Option Errno)
  | change (fd : Fd) (callback : κ)
  | remove (fd : Fd)

def execute (t : Tables κ) : Call κ → Checked (Tables κ)
  | .add fd events callback memory refused => do
    let (_, t) ← t.add fd events callback memory refused
    .ok t
  | .modify fd events refused => do
    let (_, t) ← t.modify fd events refused
    .ok t
  | .change fd callback => t.change fd callback
  | .remove fd => t.remove fd

/-- The callback that a call gives for a descriptor. -/
def given (fd : Fd) : Call κ → Option κ
  | .add fd' _ callback _ _ => if fd' = fd then some callback else none
  | .change fd' callback => if fd' = fd then some callback else none
  | _ => none

/-- The callback most recently given for a descriptor by `add` or `change`. -/
def mostRecent (calls : List (Call κ)) (fd : Fd) : Option κ :=
  calls.foldl (fun last call => (given fd call).or last) none

/-- The lookup of `dispatch` for an event that epoll reports for a descriptor. -/
def lookup (t : Tables κ) (fd : Fd) : Option κ := do
  let watch ← t.interest fd
  find t.callbacks watch.data

/-- The tables as one, without what epoll keeps beside the events. -/
def loop (t : Tables κ) : EventLoop κ where
  interest fd := (t.interest fd).map Watch.events
  callbacks := find t.callbacks

/-- The two tables have the same descriptors, epoll tells of them by their own number, and each has the
callback most recently given for it. -/
structure Matching (calls : List (Call κ)) (t : Tables κ) : Prop where
  distinct : Distinct t.callbacks
  watched : ∀ fd, t.interest fd ≠ none ↔ find t.callbacks fd ≠ none
  data : ∀ fd watch, t.interest fd = some watch → watch.data = fd
  recent : ∀ fd, find t.callbacks fd ≠ none → find t.callbacks fd = mostRecent calls fd

theorem matching_empty : Matching [] ({} : Tables κ) := by
  refine ⟨List.nodup_nil, ?_, ?_, ?_⟩
  · intro fd
    exact iff_of_false (fun h => h rfl) (fun h => h rfl)
  · intro fd watch watched
    cases watched
  · intro fd called
    exact absurd rfl called

theorem mostRecent_append (calls : List (Call κ)) (call : Call κ) (fd : Fd) :
    mostRecent (calls ++ [call]) fd = (given fd call).or (mostRecent calls fd) := by
  unfold mostRecent
  rw [List.foldl_append]
  rfl

theorem add_ok {t t' : Tables κ} {fd : Fd} {events : Events} {callback : κ} {memory : Bool}
    {refused : Option Errno} {thrown : Option Thrown}
    (h : t.add fd events callback memory refused = .ok (thrown, t')) :
    find t.callbacks fd = none ∧
      ((memory = false ∨ refused ≠ none ∨ t.interest fd ≠ none) ∧ thrown ≠ none ∧ t' = t ∨
        memory = true ∧ refused = none ∧ thrown = none ∧
          t' = { callbacks := emplace t.callbacks fd callback
                 interest := update t.interest fd (some { events, data := fd }) }) := by
  obtain ⟨_, _, h⟩ := bind_ok h
  obtain ⟨_, unknown, h⟩ := bind_ok h
  have unknown : find t.callbacks fd = none := require_ok unknown
  refine ⟨unknown, ?_⟩
  have restored := erase_emplace unknown callback
  cases memory with
  | false =>
    left
    cases h
    refine ⟨Or.inl rfl, Option.some_ne_none _, ?_⟩
    rw [erase_absent unknown]
  | true =>
    cases listed : t.interest fd with
    | some watch =>
      left
      simp only [epollCtl, listed, if_true, restored] at h
      cases h
      exact ⟨Or.inr (Or.inr (Option.some_ne_none _)), Option.some_ne_none _, rfl⟩
    | none =>
      cases refused with
      | some errno =>
        left
        simp only [epollCtl, listed, if_true, restored] at h
        cases h
        exact ⟨Or.inr (Or.inl (Option.some_ne_none _)), Option.some_ne_none _, rfl⟩
      | none =>
        right
        simp only [epollCtl, listed, if_true] at h
        cases h
        exact ⟨rfl, rfl, rfl, rfl⟩

theorem modify_ok {t t' : Tables κ} {fd : Fd} {events : Events} {refused failed : Option Errno}
    (h : t.modify fd events refused = .ok (failed, t')) :
    t' = t ∨ t.interest fd ≠ none ∧
      t' = { t with interest := update t.interest fd (some { events, data := fd }) } := by
  obtain ⟨_, _, h⟩ := bind_ok h
  cases listed : t.interest fd with
  | none =>
    left
    simp only [epollCtl, listed] at h
    cases h
    rfl
  | some watch =>
    cases refused with
    | some errno =>
      left
      simp only [epollCtl, listed] at h
      cases h
      rfl
    | none =>
      right
      simp only [epollCtl, listed] at h
      cases h
      exact ⟨Option.some_ne_none _, rfl⟩

theorem remove_ok {t t' : Tables κ} {fd : Fd} (h : t.remove fd = .ok t') :
    t' = t ∨ t' = { callbacks := erase t.callbacks fd, interest := update t.interest fd none } := by
  unfold remove at h
  split at h
  next =>
    cases h
    exact Or.inl rfl
  next =>
    right
    obtain ⟨_, _, h⟩ := bind_ok h
    cases listed : t.interest fd with
    | none =>
      simp only [epollCtl, listed] at h
      cases h
    | some watch =>
      simp only [epollCtl, listed] at h
      cases h
      rfl

section Kept

variable {calls : List (Call κ)} {t : Tables κ} (h : Matching calls t) (call : Call κ)

include h

theorem matching_quiet (quiet : ∀ fd, given fd call = none ∨ find t.callbacks fd = none) :
    Matching (calls ++ [call]) t := by
  refine ⟨h.distinct, h.watched, h.data, ?_⟩
  intro fd called
  rcases quiet fd with nothing | absent
  · rw [mostRecent_append, nothing, Option.none_or]
    exact h.recent fd called
  · exact absurd absent called

theorem listed_data (fd : Fd) (events : Events) (x : Fd) (watch : Watch)
    (listed : update t.interest fd (some { events, data := fd }) x = some watch) : watch.data = x := by
  by_cases own : x = fd
  · subst own
    rw [update_self] at listed
    cases listed
    rfl
  · rw [update_of_ne own] at listed
    exact h.data x watch listed

theorem matching_added {fd : Fd} (unknown : find t.callbacks fd = none) (events : Events) (callback : κ)
    (memory : Bool) (refused : Option Errno) :
    Matching (calls ++ [.add fd events callback memory refused])
      { callbacks := emplace t.callbacks fd callback
        interest := update t.interest fd (some { events, data := fd }) } := by
  refine ⟨distinct_emplace h.distinct unknown callback, ?_, listed_data h fd events, ?_⟩
  · intro x
    show update t.interest fd _ x ≠ none ↔ find (emplace t.callbacks fd callback) x ≠ none
    rw [find_emplace]
    by_cases own : fd = x
    · subst own
      simp
    · rw [update_of_ne (Ne.symm own), if_neg own, Option.or_none]
      exact h.watched x
  · intro x called
    show find (emplace t.callbacks fd callback) x = _
    rw [find_emplace] at called ⊢
    rw [mostRecent_append, given]
    by_cases own : fd = x
    · subst own
      rw [if_pos rfl, unknown]
      rfl
    · rw [if_neg own, Option.or_none] at called ⊢
      exact h.recent x called

theorem matching_modified {fd : Fd} (listed : t.interest fd ≠ none) (events : Events)
    (refused : Option Errno) :
    Matching (calls ++ [.modify fd events refused])
      { t with interest := update t.interest fd (some { events, data := fd }) } := by
  refine ⟨h.distinct, ?_, listed_data h fd events, ?_⟩
  · intro x
    show update t.interest fd _ x ≠ none ↔ find t.callbacks x ≠ none
    by_cases own : x = fd
    · subst own
      rw [update_self]
      exact iff_of_true (Option.some_ne_none _) ((h.watched x).mp listed)
    · rw [update_of_ne own]
      exact h.watched x
  · intro x called
    rw [mostRecent_append]
    exact h.recent x called

theorem matching_changed {fd : Fd} (known : find t.callbacks fd ≠ none) (callback : κ) :
    Matching (calls ++ [.change fd callback]) { t with callbacks := assign t.callbacks fd callback } := by
  refine ⟨distinct_assign h.distinct fd callback, ?_, h.data, ?_⟩
  · intro x
    show t.interest x ≠ none ↔ find (assign t.callbacks fd callback) x ≠ none
    by_cases own : x = fd
    · subst own
      rw [find_assign_self]
      exact iff_of_true ((h.watched x).mpr known) (Option.some_ne_none _)
    · rw [find_assign_of_ne _ _ own]
      exact h.watched x
  · intro x called
    show find (assign t.callbacks fd callback) x = _
    rw [mostRecent_append, given]
    by_cases own : x = fd
    · subst own
      rw [if_pos rfl, find_assign_self]
      rfl
    · rw [find_assign_of_ne _ _ own] at called ⊢
      rw [if_neg (Ne.symm own), Option.none_or]
      exact h.recent x called

theorem matching_removed (fd : Fd) :
    Matching (calls ++ [.remove fd])
      { callbacks := erase t.callbacks fd, interest := update t.interest fd none } := by
  refine ⟨distinct_filter h.distinct _, ?_, ?_, ?_⟩
  · intro x
    show update t.interest fd none x ≠ none ↔ find (erase t.callbacks fd) x ≠ none
    by_cases own : x = fd
    · subst own
      rw [update_self, find_erase_self]
      simp
    · rw [update_of_ne own, find_erase_of_ne h.distinct own]
      exact h.watched x
  · intro x watch watched
    have watched : update t.interest fd none x = some watch := watched
    by_cases own : x = fd
    · subst own
      rw [update_self] at watched
      cases watched
    · rw [update_of_ne own] at watched
      exact h.data x watch watched
  · intro x called
    show find (erase t.callbacks fd) x = _
    rw [mostRecent_append]
    by_cases own : x = fd
    · subst own
      exact absurd (find_erase_self _ _) called
    · rw [find_erase_of_ne h.distinct own] at called ⊢
      exact h.recent x called

theorem execute_matching {t' : Tables κ} (done : execute t call = .ok t') :
    Matching (calls ++ [call]) t' := by
  cases call with
  | add fd events callback memory refused =>
    obtain ⟨⟨thrown, after⟩, added, done⟩ := bind_ok done
    cases done
    obtain ⟨unknown, ⟨_, _, rfl⟩ | ⟨_, _, _, rfl⟩⟩ := add_ok added
    · refine matching_quiet h _ ?_
      intro x
      by_cases own : fd = x
      · exact Or.inr (own ▸ unknown)
      · exact Or.inl (if_neg own)
    · exact matching_added h unknown events callback memory refused
  | modify fd events refused =>
    obtain ⟨⟨failed, after⟩, modified, done⟩ := bind_ok done
    cases done
    rcases modify_ok modified with rfl | ⟨listed, rfl⟩
    · exact matching_quiet h _ fun _ => Or.inl rfl
    · exact matching_modified h listed events refused
  | change fd callback =>
    obtain ⟨_, _, done⟩ := bind_ok done
    obtain ⟨_, known, done⟩ := bind_ok done
    cases done
    exact matching_changed h (require_ok known) callback
  | remove fd =>
    rcases remove_ok done with rfl | rfl
    · exact matching_quiet h _ fun _ => Or.inl rfl
    · exact matching_removed h fd

end Kept

theorem foldlM_matching {before calls : List (Call κ)} {t t' : Tables κ} (h : Matching before t)
    (run : calls.foldlM execute t = .ok t') : Matching (before ++ calls) t' := by
  induction calls generalizing before t with
  | nil =>
    cases run
    rw [List.append_nil]
    exact h
  | cons call calls ih =>
    rw [List.foldlM_cons] at run
    obtain ⟨_, first, later⟩ := bind_ok run
    rw [List.append_cons]
    exact ih (execute_matching h call first) later

section Refinement

/-! The calls on one loop are those on its two tables. -/

theorem find_emplaced {t : Tables κ} {fd : Fd} (unknown : find t.callbacks fd = none) (callback : κ) :
    find (emplace t.callbacks fd callback) = update (find t.callbacks) fd (some callback) := by
  funext x
  rw [find_emplace]
  by_cases own : x = fd
  · subst own
    rw [update_self, unknown, if_pos rfl]
    rfl
  · rw [update_of_ne own, if_neg (Ne.symm own), Option.or_none]

theorem find_assigned (t : Tables κ) (fd : Fd) (callback : κ) :
    find (assign t.callbacks fd callback) = update (find t.callbacks) fd (some callback) := by
  funext x
  by_cases own : x = fd
  · subst own
    rw [update_self, find_assign_self]
  · rw [update_of_ne own, find_assign_of_ne _ _ own]

theorem find_erased {t : Tables κ} (distinct : Distinct t.callbacks) (fd : Fd) :
    find (erase t.callbacks fd) = update (find t.callbacks) fd none := by
  funext x
  by_cases own : x = fd
  · subst own
    rw [update_self, find_erase_self]
  · rw [update_of_ne own, find_erase_of_ne distinct own]

theorem events_update (interest : Fd → Option Watch) (fd : Fd) (watch : Option Watch) :
    (fun x => (update interest fd watch x).map Watch.events) =
      update (fun x => (interest x).map Watch.events) fd (watch.map Watch.events) := by
  funext x
  by_cases own : x = fd
  · subst own
    rw [update_self, update_self]
  · rw [update_of_ne own, update_of_ne own]

theorem loop_watched (t : Tables κ) (callbacks : List (Fd × κ)) (fd : Fd) (watch : Option Watch) :
    ({ callbacks, interest := update t.interest fd watch } : Tables κ).loop =
      { interest := update t.loop.interest fd (watch.map Watch.events), callbacks := find callbacks } :=
  congrArg (fun interest => EventLoop.mk interest (find callbacks)) (events_update t.interest fd watch)

/-- What the caller of `add` or `modify` is told. -/
def answer : Option Thrown × Tables κ → Result (EventLoop κ)
  | (some (.system errno), _) => .error errno
  | (_, t) => .ok t.loop

theorem loop_add (t : Tables κ) (fd : Fd) (events : Events) (callback : κ) (refused : Option Errno) :
    t.loop.add fd events callback refused = (t.add fd events callback true refused).map answer := by
  unfold EventLoop.add add
  by_cases valid : fd ≠ -1
  · rw [require_of valid, ok_bind, ok_bind]
    by_cases unknown : find t.callbacks fd = none
    · have unknown' : t.loop.callbacks fd = none := unknown
      rw [require_of unknown, ok_bind, require_of unknown', ok_bind, if_pos rfl]
      have listed : t.loop.interest fd = (t.interest fd).map Watch.events := rfl
      rw [listed]
      cases found : t.interest fd with
      | some watch =>
        simp only [epollCtl, found]
        rfl
      | none =>
        cases refused with
        | some errno =>
          simp only [epollCtl, found]
          rfl
        | none =>
          simp only [epollCtl, found]
          show Except.ok (Except.ok _) = Except.ok (Except.ok (loop _))
          rw [loop_watched, find_emplaced unknown]
          rfl
    · have known : ¬t.loop.callbacks fd = none := unknown
      simp only [require, if_neg unknown, if_neg known]
      rfl
  · simp only [require, if_neg valid]
    rfl

theorem loop_modify (t : Tables κ) (fd : Fd) (events : Events) :
    t.loop.modify fd events =
      (t.modify fd events none).map fun call => answer (call.1.map .system, call.2) := by
  unfold EventLoop.modify modify
  by_cases valid : fd ≠ -1
  · rw [require_of valid, ok_bind, ok_bind]
    have listed : t.loop.interest fd = (t.interest fd).map Watch.events := rfl
    rw [listed]
    cases found : t.interest fd with
    | none =>
      simp only [epollCtl, found]
      rfl
    | some watch =>
      simp only [epollCtl, found]
      show Except.ok (Except.ok _) = Except.ok (Except.ok (loop _))
      rw [loop_watched]
      rfl
  · simp only [require, if_neg valid]
    rfl

theorem loop_change (t : Tables κ) (fd : Fd) (callback : κ) :
    t.loop.change fd callback = (t.change fd callback).map loop := by
  unfold EventLoop.change change
  by_cases valid : fd ≠ -1
  · rw [require_of valid, ok_bind, ok_bind]
    by_cases known : find t.callbacks fd ≠ none
    · have known' : t.loop.callbacks fd ≠ none := known
      rw [require_of known, ok_bind, require_of known', ok_bind]
      exact congrArg (fun callbacks => Except.ok { t.loop with callbacks })
        (find_assigned t fd callback).symm
    · have unknown : ¬t.loop.callbacks fd ≠ none := known
      simp only [require, if_neg unknown, if_neg known]
      rfl
  · simp only [require, if_neg valid]
    rfl

theorem loop_remove {calls : List (Call κ)} {t : Tables κ} (h : Matching calls t) (fd : Fd) :
    t.loop.remove fd = (t.remove fd).map loop := by
  unfold EventLoop.remove remove
  by_cases invalid : fd = -1
  · rw [if_pos invalid, if_pos invalid]
    rfl
  · rw [if_neg invalid, if_neg invalid]
    by_cases known : find t.callbacks fd ≠ none
    · have known' : t.loop.callbacks fd ≠ none := known
      rw [require_of known, ok_bind, require_of known', ok_bind]
      obtain ⟨watch, found⟩ := Option.ne_none_iff_exists'.mp ((h.watched fd).mpr known)
      have listed : t.loop.interest fd ≠ none := by
        show (t.interest fd).map Watch.events ≠ none
        rw [found]
        exact Option.some_ne_none _
      rw [require_of listed, ok_bind]
      simp only [epollCtl, found]
      show Except.ok _ = Except.ok (loop _)
      rw [loop_watched, find_erased h.distinct]
      rfl
    · have unknown : ¬t.loop.callbacks fd ≠ none := known
      simp only [require, if_neg unknown, if_neg known]
      rfl

end Refinement

/-- What each call asserts. -/
def Allowed (t : Tables κ) : Call κ → Prop
  | .add fd _ _ _ _ => fd ≠ -1 ∧ t.interest fd = none
  | .modify fd _ _ => fd ≠ -1
  | .change fd _ => fd ≠ -1 ∧ t.interest fd ≠ none
  | .remove fd => fd = -1 ∨ t.interest fd ≠ none

theorem add_returns {calls : List (Call κ)} {t : Tables κ} (h : Matching calls t) {fd : Fd}
    (valid : fd ≠ -1) (unlisted : t.interest fd = none) (events : Events) (callback : κ) (memory : Bool)
    (refused : Option Errno) : ∃ thrown t', t.add fd events callback memory refused = .ok (thrown, t') := by
  have unknown : find t.callbacks fd = none := by
    by_contra known
    exact (h.watched fd).mpr known unlisted
  unfold add
  rw [require_of valid, ok_bind, require_of unknown, ok_bind]
  cases memory with
  | false => exact ⟨_, _, rfl⟩
  | true => cases refused <;> simp [epollCtl, unlisted]

theorem execute_allowed {calls : List (Call κ)} {t : Tables κ} (h : Matching calls t) {call : Call κ}
    (allowed : Allowed t call) : ∃ t', execute t call = .ok t' := by
  cases call with
  | add fd events callback memory refused =>
    obtain ⟨thrown, t', added⟩ := add_returns h allowed.1 allowed.2 events callback memory refused
    exact ⟨t', by rw [execute, added, ok_bind]⟩
  | modify fd events refused =>
    have valid : fd ≠ -1 := allowed
    exact ⟨_, by rw [execute, modify, require_of valid, ok_bind]; rfl⟩
  | change fd callback =>
    have known := (h.watched fd).mp allowed.2
    exact ⟨_, by rw [execute, change, require_of allowed.1, ok_bind, require_of known, ok_bind]⟩
  | remove fd =>
    by_cases invalid : fd = -1
    · exact ⟨t, if_pos invalid⟩
    · have listed := allowed.resolve_left invalid
      have known := (h.watched fd).mp listed
      obtain ⟨watch, found⟩ := Option.ne_none_iff_exists'.mp listed
      refine ⟨{ callbacks := erase t.callbacks fd, interest := update t.interest fd none }, ?_⟩
      rw [execute, remove, if_neg invalid, require_of known, ok_bind]
      simp only [epollCtl, found]
      rfl

theorem lookup_recent {calls : List (Call κ)} {t : Tables κ} (h : Matching calls t) {fd : Fd}
    (listed : t.interest fd ≠ none) :
    ∃ callback, t.lookup fd = some callback ∧ mostRecent calls fd = some callback := by
  have known := (h.watched fd).mp listed
  obtain ⟨watch, found⟩ := Option.ne_none_iff_exists'.mp listed
  obtain ⟨callback, called⟩ := Option.ne_none_iff_exists'.mp known
  refine ⟨callback, ?_, ?_⟩
  · rw [lookup, found]
    show find t.callbacks watch.data = some callback
    rw [h.data fd watch found]
    exact called
  · rw [← h.recent fd known]
    exact called

/-- From the constructor on, whatever is called as its assertions ask: the callbacks are those of the
watched descriptors, an `add` that fails throws and leaves both tables as they were, an event finds the
callback given last, and the next call that is asked for rightly returns or throws. -/
theorem tables_match {pipe : Fd} {interrupt : κ} {memory : Bool} {refused : Option Errno}
    {built t : Tables κ}
    (construct : ({} : Tables κ).add pipe Read interrupt memory refused = .ok (none, built))
    (calls : List (Call κ)) (run : calls.foldlM execute built = .ok t) :
    (∀ fd, fd ∈ t.callbacks.map Prod.fst ↔ t.interest fd ≠ none) ∧
      (∀ fd events callback memory refused, fd ≠ -1 → t.interest fd = none →
        ∃ thrown t', t.add fd events callback memory refused = .ok (thrown, t') ∧
          (thrown ≠ none ↔ memory = false ∨ refused ≠ none) ∧ (thrown ≠ none → t' = t)) ∧
      (∀ fd, t.interest fd ≠ none → ∃ callback, t.lookup fd = some callback ∧
        mostRecent (.add pipe Read interrupt memory refused :: calls) fd = some callback) ∧
      ∀ call, Allowed t call → ∃ t', execute t call = .ok t' := by
  have called : execute ({} : Tables κ) (.add pipe Read interrupt memory refused) = .ok built := by
    rw [execute, construct, ok_bind]
  have first := execute_matching matching_empty _ called
  have h := foldlM_matching first run
  refine ⟨?_, ?_, fun fd listed => lookup_recent h listed, fun call allowed => execute_allowed h allowed⟩
  · intro fd
    rw [key_iff, h.watched]
  · intro fd events callback memory refused valid unlisted
    obtain ⟨thrown, t', added⟩ := add_returns h valid unlisted events callback memory refused
    refine ⟨thrown, t', added, ?_⟩
    obtain ⟨_, ⟨failed, threw, same⟩ | ⟨given, granted, returned, _⟩⟩ := add_ok added
    · refine ⟨iff_of_true threw ?_, fun _ => same⟩
      rcases failed with missing | refusal | listed
      · exact Or.inl missing
      · exact Or.inr refusal
      · exact absurd unlisted listed
    · subst given granted returned
      simp

theorem tables_match_sample :
    ∃ built t : Tables Nat, ({} : Tables Nat).add 3 Read 0 true none = .ok (none, built) ∧
      [Call.add 5 Read 1 true none, .add 6 Write 9 true (some 1), .change 5 2].foldlM execute built =
        .ok t ∧
      (∃ callback, t.lookup 5 = some callback ∧
        mostRecent [.add 3 Read 0 true none, .add 5 Read 1 true none, .add 6 Write 9 true (some 1),
          .change 5 2] 5 = some callback) ∧
      ∀ call, Allowed t call → ∃ t', execute t call = .ok t' :=
  have matched := tables_match rfl [Call.add 5 Read 1 true none, .add 6 Write 9 true (some 1), .change 5 2]
    rfl
  ⟨_, _, rfl, rfl, matched.2.2.1 5 (by decide), matched.2.2.2⟩

end Tables

end EventLoop

end Hlib
