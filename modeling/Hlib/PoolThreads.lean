import Hlib.Holdings
import Hlib.Transition
import Mathlib.Data.Multiset.Basic
import Mathlib.Data.Multiset.ZeroCons
import Mathlib.Algebra.Order.Group.Multiset
import Mathlib.Tactic.Abel

namespace Hlib

open Function (update update_self update_of_ne)
open Holdings (total total_update total_update_same total_zero)
open Transition (Run Restrict)

namespace PoolThreads

/-- Where a thread stands in `get`. -/
inductive Stage (τ : Type)
  | idle
  /-- Without the lock, before the factory. -/
  | empty
  | made (element : τ)
  /-- Past `add`, before `m_pool.front()`. -/
  | added
  /-- Before `m_pool.pop_front()`, with what it took. -/
  | moved (slot : Option τ)

/-- `m_pool` of an unbounded pool, where `none` is an element that has been moved from; the threads;
and the elements that callers hold. -/
structure State (θ τ : Type) where
  pool : List (Option τ)
  threads : θ → Stage τ
  held : Multiset (Option τ)

inductive Label (θ τ : Type)
  | take (thread : θ)
  | unlock (thread : θ)
  | factory (thread : θ) (element : τ)
  | add (thread : θ)
  | front (thread : θ)
  | popFront (thread : θ)
  | put (slot : Option τ)

variable {θ τ : Type}

/-- A critical section, a call of the factory, or an access to `m_pool` without the lock. -/
inductive Step [DecidableEq θ] : State θ τ → Label θ τ → State θ τ → Prop
  | take {slot pool threads held thread} (idle : threads thread = .idle) :
      Step ⟨slot :: pool, threads, held⟩ (.take thread) ⟨pool, threads, slot ::ₘ held⟩
  | unlock {threads held thread} (idle : threads thread = .idle) :
      Step ⟨[], threads, held⟩ (.unlock thread) ⟨[], update threads thread .empty, held⟩
  | factory {pool threads held thread element} (empty : threads thread = .empty) :
      Step ⟨pool, threads, held⟩ (.factory thread element)
        ⟨pool, update threads thread (.made element), held⟩
  | add {pool threads held thread element} (made : threads thread = .made element) :
      Step ⟨pool, threads, held⟩ (.add thread)
        ⟨pool ++ [some element], update threads thread .added, held⟩
  | front {slot pool threads held thread} (added : threads thread = .added) :
      Step ⟨slot :: pool, threads, held⟩ (.front thread)
        ⟨none :: pool, update threads thread (.moved slot), held⟩
  | popFront {slot pool threads held thread taken} (moved : threads thread = .moved taken) :
      Step ⟨slot :: pool, threads, held⟩ (.popFront thread)
        ⟨pool, update threads thread .idle, taken ::ₘ held⟩
  | put {pool threads held rest slot} (own : held = slot ::ₘ rest) :
      Step ⟨pool, threads, held⟩ (.put slot) ⟨pool ++ [slot], threads, rest⟩

def initial : State θ τ := ⟨[], fun _ => .idle, 0⟩

def Stage.pending : Stage τ → Nat
  | .added => 1
  | _ => 0

def Stage.moving : Stage τ → Nat
  | .moved _ => 1
  | _ => 0

def element : Option τ → Multiset τ
  | some e => {e}
  | none => 0

def Stage.hand : Stage τ → Multiset τ
  | .made e => {e}
  | .moved slot => element slot
  | _ => 0

def Label.made : Label θ τ → Multiset τ
  | .factory _ e => {e}
  | _ => 0

section Counts

variable [Fintype θ] {s t : State θ τ} {label : Label θ τ} {labels : List (Label θ τ)}

/-- The elements in the pool, held by callers and on their way there. -/
def State.elements (s : State θ τ) : Multiset τ :=
  (s.pool.map element).sum + (s.held.map element).sum + total Stage.hand s.threads

def State.pending (s : State θ τ) : Nat := total Stage.pending s.threads

def State.moving (s : State θ τ) : Nat := total Stage.moving s.threads

/-- Each thread past its `add` has an element in the pool for its front, and nobody has taken one that
was moved from. -/
structure Ready (s : State θ τ) : Prop where
  pending : s.pending ≤ (s.pool.filterMap id).length
  hands : ∀ thread, s.threads thread ≠ .moved none
  held : none ∉ s.held

/-- Nothing is taken while a thread stands between its `front` and its `pop_front`, and `get` takes an
element under the lock only if it leaves one for every thread past its `add`. -/
def Apart (s : State θ τ) : Label θ τ → Prop
  | .take _ => s.moving = 0 ∧ s.pending < s.pool.length
  | .front _ => s.moving = 0
  | _ => True

/-- The pool is the element that a thread is about to pop, if one is, and the others. -/
structure Whole (s : State θ τ) : Prop where
  slots : ∃ rest : List τ, s.pool = List.replicate s.moving none ++ rest.map some ∧
    s.pending ≤ rest.length
  one : s.moving ≤ 1
  hands : ∀ thread, s.threads thread ≠ .moved none
  held : none ∉ s.held

theorem Whole.ready (h : Whole s) : Ready s := by
  obtain ⟨rest, pool, pending⟩ := h.slots
  refine ⟨?_, h.hands, h.held⟩
  simpa [pool, List.filterMap_append, List.filterMap_replicate] using pending

theorem Whole.front {slot : Option τ} {pool : List (Option τ)} (h : Whole s) (still : s.moving = 0)
    (cons : s.pool = slot :: pool) :
    ∃ (e : τ) (rest : List τ), slot = some e ∧ pool = rest.map some ∧
      s.pending ≤ rest.length + 1 := by
  obtain ⟨rest, slots, pending⟩ := h.slots
  rw [still, cons] at slots
  cases rest with
  | nil => cases slots
  | cons e rest =>
    cases slots
    exact ⟨e, rest, rfl, rfl, pending⟩

theorem not_none_of_cons {slot : Option τ} {held rest : Multiset (Option τ)}
    (h : none ∉ held) (own : held = slot ::ₘ rest) : slot ≠ none ∧ none ∉ rest := by
  rw [own, Multiset.mem_cons, not_or] at h
  exact ⟨Ne.symm h.1, h.2⟩

end Counts

section Steps

variable [Fintype θ] [DecidableEq θ] {s t : State θ τ} {label : Label θ τ}
  {labels : List (Label θ τ)}

omit [Fintype θ] in
theorem hands_update {threads : θ → Stage τ} (h : ∀ i, threads i ≠ .moved none) (thread : θ)
    (stage : Stage τ) (hs : stage ≠ .moved none) :
    ∀ i, update threads thread stage i ≠ .moved none := by
  intro i
  by_cases own : i = thread
  · rwa [own, update_self]
  · rw [update_of_ne own]
    exact h i

/-- A step of a thread that takes nothing and has nothing to take. -/
theorem whole_elsewhere (h : Whole s) {thread : θ} {old new : Stage τ}
    (before : s.threads thread = old) (pending : new.pending = old.pending)
    (moving : new.moving = old.moving) (hn : new ≠ .moved none) :
    Whole { s with threads := update s.threads thread new } := by
  have samePending : total Stage.pending (update s.threads thread new) = s.pending :=
    total_update_same (by rw [before, pending])
  have sameMoving : total Stage.moving (update s.threads thread new) = s.moving :=
    total_update_same (by rw [before, moving])
  refine ⟨?_, ?_, hands_update h.hands thread new hn, h.held⟩
  · unfold State.pending State.moving
    rw [samePending, sameMoving]
    exact h.slots
  · exact sameMoving.trans_le h.one

theorem whole_add (h : Whole s) {thread : θ} {e : τ} (made : s.threads thread = .made e) :
    Whole { s with pool := s.pool ++ [some e], threads := update s.threads thread .added } := by
  obtain ⟨rest, slots, pending⟩ := h.slots
  have one := total_update Stage.pending s.threads thread .added
  have same : total Stage.moving (update s.threads thread .added) = s.moving :=
    total_update_same (by rw [made]; rfl)
  rw [made] at one
  refine ⟨⟨rest ++ [e], ?_, ?_⟩, same.trans_le h.one, hands_update h.hands thread .added nofun, h.held⟩
  · simp only [State.moving, same]
    rw [slots, List.append_assoc, List.map_append]
    rfl
  · simp only [State.pending, Stage.pending] at one pending ⊢
    rw [List.length_append, List.length_singleton]
    omega

theorem whole_front (h : Whole s) (still : s.moving = 0) {thread : θ} {slot : Option τ}
    {pool : List (Option τ)} (cons : s.pool = slot :: pool) (added : s.threads thread = .added) :
    Whole { s with pool := none :: pool, threads := update s.threads thread (.moved slot) } := by
  obtain ⟨e, rest, rfl, rfl, pending⟩ := h.front still cons
  have less := total_update Stage.pending s.threads thread (.moved (some e))
  have one := total_update Stage.moving s.threads thread (.moved (some e))
  rw [added] at less one
  have moving : total Stage.moving (update s.threads thread (.moved (some e))) = 1 := by
    simp only [State.moving, Stage.moving] at one still
    omega
  refine ⟨⟨rest, ?_, ?_⟩, moving.le, hands_update h.hands thread (.moved e) nofun, h.held⟩
  · simp only [State.moving, moving]
    rfl
  · simp only [State.pending, Stage.pending] at less pending ⊢
    omega

theorem whole_popFront (h : Whole s) {thread : θ} {slot taken : Option τ} {pool : List (Option τ)}
    (cons : s.pool = slot :: pool) (moved : s.threads thread = .moved taken) :
    Whole { s with pool := pool, threads := update s.threads thread .idle, held := taken ::ₘ s.held } := by
  obtain ⟨rest, slots, pending⟩ := h.slots
  have same : total Stage.pending (update s.threads thread .idle) = s.pending :=
    total_update_same (by rw [moved]; rfl)
  have less := total_update Stage.moving s.threads thread .idle
  have one := h.one
  rw [moved] at less
  simp only [State.moving, Stage.moving] at less one slots
  have moving : total Stage.moving s.threads = 1 := by omega
  have still : total Stage.moving (update s.threads thread .idle) = 0 := by omega
  rw [cons, moving] at slots
  cases slots
  refine ⟨⟨rest, ?_, ?_⟩, still.trans_le (Nat.zero_le 1), hands_update h.hands thread .idle nofun, ?_⟩
  · simp only [State.moving, still]
    rfl
  · exact same.trans_le pending
  · rw [Multiset.mem_cons, not_or]
    refine ⟨?_, h.held⟩
    rintro rfl
    exact h.hands thread moved

omit [DecidableEq θ] in
theorem whole_put (h : Whole s) {slot : Option τ} {rest : Multiset (Option τ)}
    (own : s.held = slot ::ₘ rest) : Whole { s with pool := s.pool ++ [slot], held := rest } := by
  obtain ⟨others, slots, pending⟩ := h.slots
  obtain ⟨filled, fewer⟩ := not_none_of_cons h.held own
  obtain ⟨e, rfl⟩ := Option.ne_none_iff_exists'.mp filled
  refine ⟨⟨others ++ [e], ?_, ?_⟩, h.one, h.hands, fewer⟩
  · rw [slots, List.append_assoc, List.map_append]
    rfl
  · rw [List.length_append]
    exact Nat.le_add_right_of_le pending

theorem step_whole (h : Whole s) (apart : Apart s label) (hs : Step s label t) : Whole t := by
  cases hs with
  | @take slot pool threads held thread idle =>
    obtain ⟨still, left⟩ := apart
    obtain ⟨e, rest, rfl, rfl, _⟩ := h.front still rfl
    refine ⟨⟨rest, ?_, ?_⟩, h.one, h.hands, ?_⟩
    · change total Stage.moving threads = 0 at still
      simp only [State.moving, still, List.replicate_zero, List.nil_append]
    · simpa [State.pending, Nat.lt_succ_iff] using left
    · simpa using h.held
  | unlock idle => exact whole_elsewhere h idle rfl rfl nofun
  | factory empty => exact whole_elsewhere h empty rfl rfl nofun
  | add made => exact whole_add h made
  | front added => exact whole_front h apart rfl added
  | popFront moved => exact whole_popFront h rfl moved
  | put own => exact whole_put h own

omit [DecidableEq θ] in
theorem whole_initial : Whole (initial : State θ τ) := by
  have moving : total Stage.moving (fun _ : θ => (.idle : Stage τ)) = 0 := total_zero fun _ => rfl
  have pending : total Stage.pending (fun _ : θ => (.idle : Stage τ)) = 0 := total_zero fun _ => rfl
  refine ⟨⟨[], ?_, pending.le⟩, moving.trans_le (Nat.zero_le 1), nofun, Multiset.notMem_zero none⟩
  simp only [initial, State.moving, moving]
  rfl

omit [DecidableEq θ] in
/-- While a thread is about to pop it, the front has been moved from. -/
theorem front_husk (h : Whole s) {slot : Option τ} {pool : List (Option τ)}
    (cons : s.pool = slot :: pool) (moving : s.moving ≠ 0) : slot = none := by
  obtain ⟨rest, slots, _⟩ := h.slots
  have one := h.one
  rw [show s.moving = 1 by omega, cons] at slots
  cases slots
  rfl

theorem moving_of_moved {thread : θ} {taken : Option τ} (moved : s.threads thread = .moved taken) :
    s.moving ≠ 0 := by
  have less := total_update Stage.moving s.threads thread .idle
  rw [moved] at less
  simp only [State.moving, Stage.moving] at less ⊢
  omega

/-- A step that is not apart leaves a thread without an element, or takes one that was moved from. -/
theorem apart_of_ready (h : Whole s) (hs : Step s label t) (ready : Ready t) : Apart s label := by
  cases hs with
  | @take slot pool threads held thread idle =>
    have still : State.moving ⟨slot :: pool, threads, held⟩ = 0 := by
      by_contra moving
      exact ready.held (front_husk h rfl moving ▸ Multiset.mem_cons_self slot held)
    obtain ⟨e, rest, rfl, rfl, _⟩ := h.front still rfl
    refine ⟨still, ?_⟩
    have left := ready.pending
    simp only [State.pending] at left ⊢
    simpa [Nat.lt_succ_iff] using left
  | @front slot pool threads held thread added =>
    by_contra moving
    refine ready.hands thread ?_
    change update threads thread (.moved slot) thread = .moved none
    rw [update_self, front_husk h rfl moving]
  | unlock | factory | add | popFront | put => trivial

/-- What a thread had on its way and has no longer is now in the pool or held. -/
theorem elements_moved (s : State θ τ) {pool : List (Option τ)} {held : Multiset (Option τ)}
    {thread : θ} {old new : Stage τ} (before : s.threads thread = old)
    (even : (pool.map element).sum + (held.map element).sum + new.hand =
      (s.pool.map element).sum + (s.held.map element).sum + old.hand) :
    State.elements ⟨pool, update s.threads thread new, held⟩ = s.elements := by
  have moved := total_update Stage.hand s.threads thread new
  rw [before] at moved
  apply add_right_cancel (b := old.hand)
  calc State.elements ⟨pool, update s.threads thread new, held⟩ + old.hand
      = (pool.map element).sum + (held.map element).sum + (total Stage.hand s.threads + new.hand) := by
        rw [← moved, State.elements, add_assoc]
    _ = (pool.map element).sum + (held.map element).sum + new.hand + total Stage.hand s.threads := by
        abel
    _ = s.elements + old.hand := by
        rw [even, State.elements]
        abel

theorem step_elements (h : Whole s) (hs : Step s label t) :
    t.elements = s.elements + label.made := by
  cases hs with
  | @take slot pool threads held thread idle =>
    simp only [State.elements, Label.made, List.map_cons, List.sum_cons, Multiset.map_cons,
      Multiset.sum_cons]
    abel
  | @unlock threads held thread idle =>
    refine (elements_moved ⟨[], threads, held⟩ idle ?_).trans (add_zero _).symm
    rfl
  | @factory pool threads held thread e empty =>
    have even := total_update Stage.hand threads thread (.made e)
    rw [empty] at even
    have made : total Stage.hand (update threads thread (.made e)) =
        total Stage.hand threads + {e} := (add_zero _).symm.trans even
    simp only [State.elements, Label.made, made]
    abel
  | @add pool threads held thread e made =>
    refine (elements_moved ⟨pool, threads, held⟩ made ?_).trans (add_zero _).symm
    simp only [List.map_append, List.sum_append, List.map_cons, List.map_nil, List.sum_singleton,
      element, Stage.hand]
    abel
  | @front slot pool threads held thread added =>
    refine (elements_moved ⟨slot :: pool, threads, held⟩ added ?_).trans (add_zero _).symm
    simp only [List.map_cons, List.sum_cons, element, Stage.hand]
    abel
  | @popFront slot pool threads held thread taken moved =>
    have husk := front_husk h rfl (moving_of_moved moved)
    refine (elements_moved ⟨slot :: pool, threads, held⟩ moved ?_).trans (add_zero _).symm
    simp only [List.map_cons, List.sum_cons, Multiset.map_cons, Multiset.sum_cons, husk, element,
      Stage.hand]
    abel
  | @put pool threads held rest slot own =>
    simp only [State.elements, Label.made, own, List.map_append, List.sum_append, List.map_cons,
      List.map_nil, List.sum_singleton, Multiset.map_cons, Multiset.sum_cons]
    abel

/-- The elements that the factory has made. -/
def created (labels : List (Label θ τ)) : Multiset τ := (labels.map Label.made).sum

theorem added_front (h : Whole s) {thread : θ} (added : s.threads thread = .added) : s.pool ≠ [] := by
  intro none
  obtain ⟨rest, slots, pending⟩ := h.slots
  have less := total_update Stage.pending s.threads thread .idle
  rw [added] at less
  simp only [State.pending, Stage.pending] at less pending
  rw [none] at slots
  have empty : rest = [] := List.map_eq_nil_iff.mp (List.append_eq_nil_iff.mp slots.symm).2
  rw [empty] at pending
  simp only [List.length_nil] at pending
  omega

theorem moved_front (h : Whole s) {thread : θ} {taken : Option τ}
    (moved : s.threads thread = .moved taken) : s.pool ≠ [] := by
  intro none
  obtain ⟨rest, slots, _⟩ := h.slots
  rw [none] at slots
  have no := (List.append_eq_nil_iff.mp slots.symm).1
  exact moving_of_moved moved (List.replicate_eq_nil_iff _ |>.mp no)

/-- In a run whose steps keep apart, every thread at `front` or `pop_front` finds the pool non-empty,
and the elements in the pool and those held are the ones that the factory made; and a next step keeps
every thread ready just when it keeps apart. -/
theorem get_apart (run : Run (Restrict Apart Step) initial labels s) :
    (∀ thread, s.threads thread = .added → s.pool ≠ []) ∧
      (∀ thread taken, s.threads thread = .moved taken → s.pool ≠ []) ∧
      s.elements = created labels ∧ Ready s ∧
      ∀ {label t}, Step s label t → (Ready t ↔ Apart s label) := by
  have whole : Whole s := run.invariant whole_initial fun h hs => step_whole h hs.1 hs.2
  refine ⟨fun thread => added_front whole, fun thread taken => moved_front whole, ?_, whole.ready, ?_⟩
  · have even : s.elements + (labels.map fun _ => 0).sum =
        (initial : State θ τ).elements + created labels := by
      refine run.balance whole_initial (fun h hs => step_whole h hs.1 hs.2) fun h hs => ?_
      rw [add_zero]
      exact step_elements h hs.2
    have start : State.elements (initial : State θ τ) = 0 := by
      simp only [State.elements, initial, List.map_nil, List.sum_nil, Multiset.map_zero,
        Multiset.sum_zero, zero_add]
      exact total_zero fun _ => rfl
    simpa [start] using even
  · intro label t hs
    exact ⟨apart_of_ready whole hs, fun apart => (step_whole whole apart hs).ready⟩

/-- Two threads that make an element each. -/
def bothMake : List (Label Bool Nat) :=
  [.unlock true, .unlock false, .factory true 7, .factory false 8, .add false, .add true]

theorem get_apart_both :
    ∃ s : State Bool Nat, Run (Restrict Apart Step) initial bothMake s ∧ s.elements = {7, 8} := by
  have last : ∃ s : State Bool Nat, Run (Restrict Apart Step) initial bothMake s :=
    ⟨_, (((((Run.start.next ⟨trivial, .unlock rfl⟩).next ⟨trivial, .unlock rfl⟩).next
      ⟨trivial, .factory rfl⟩).next ⟨trivial, .factory rfl⟩).next ⟨trivial, .add rfl⟩).next
      ⟨trivial, .add rfl⟩⟩
  obtain ⟨s, run⟩ := last
  exact ⟨s, run, (get_apart run).2.2.1.trans (by decide)⟩

/-- Every `get` that has left the lock finds an element at the front. -/
def FrontThere : Prop :=
  ∀ (labels : List (Label Bool Nat)) (s : State Bool Nat), Run Step initial labels s →
    ∀ thread, s.threads thread = .added → s.pool ≠ []

/-- One thread takes the element that another has added for itself. -/
theorem front_gone : ¬FrontThere := by
  intro there
  exact there [.unlock true, .factory true 7, .add true, .take false] _
    ((((Run.start.next (.unlock rfl)).next (.factory rfl)).next (.add rfl)).next (.take rfl)) true
    rfl rfl

end Steps

end PoolThreads

end Hlib
