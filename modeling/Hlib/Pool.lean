import Hlib.Memory
import Hlib.Transition
import Mathlib.Data.Multiset.Basic

namespace Hlib

open Transition (Run Restrict)

/-- `std::overflow_error`. -/
structure OverflowError where
  what : String
  deriving DecidableEq, Repr

/-- `Pool<T>`, less its factory. -/
structure Pool (τ : Type) where
  maximum : Nat
  count : Nat
  pool : List τ
  deriving DecidableEq, Repr

namespace Pool

variable {τ : Type}

def add (p : Pool τ) (element : τ) : Except OverflowError (Pool τ) :=
  if p.maximum ≠ 0 ∧ p.count ≥ p.maximum then .error ⟨"Maximum pool capacity reached"⟩
  else .ok { p with pool := p.pool ++ [element] }

/-- `Pool(factory, maximum, initial)`, with the elements that the factory makes. -/
def constructed (maximum : Nat) (initial : List τ) : Except OverflowError (Pool τ) :=
  initial.foldlM add ⟨maximum, 0, []⟩

/-- `m_pool.front()`, moved from, and `m_pool.pop_front()`. -/
def takeFront (p : Pool τ) : Checked (τ × Pool τ) :=
  match p.pool with
  | [] => .error .outOfBounds
  | element :: rest => .ok (element, { p with pool := rest })

/-- `get()`; `made` is what the factory makes if it is called. -/
def get (p : Pool τ) (made : τ) : Checked (Except OverflowError (τ × Pool τ)) :=
  if p.pool.isEmpty then
    match p.add made with
    | .error e => .ok (.error e)
    | .ok p => .ok <$> p.takeFront
  else .ok <$> p.takeFront

def put (p : Pool τ) (element : τ) : Checked (Pool τ) := do
  let p := { p with pool := p.pool ++ [element] }
  require (p.maximum = 0 ∨ p.pool.length ≤ p.maximum) .assertion
  .ok p

structure State (τ : Type) where
  pool : Pool τ
  out : Multiset τ

inductive Label (τ : Type)
  | add (element : τ)
  | get (made : τ)
  | put (element : τ)

inductive Step : State τ → Label τ → State τ → Prop
  | add {p p' out element} (h : p.add element = .ok p') : Step ⟨p, out⟩ (.add element) ⟨p', out⟩
  | addThrows {p out element e} (h : p.add element = .error e) :
      Step ⟨p, out⟩ (.add element) ⟨p, out⟩
  | get {p p' out made element} (h : p.get made = .ok (.ok (element, p'))) :
      Step ⟨p, out⟩ (.get made) ⟨p', element ::ₘ out⟩
  | getThrows {p out made e} (h : p.get made = .ok (.error e)) :
      Step ⟨p, out⟩ (.get made) ⟨p, out⟩
  | put {p p' out rest element} (held : out = element ::ₘ rest) (h : p.put element = .ok p') :
      Step ⟨p, out⟩ (.put element) ⟨p', rest⟩

variable {s t : State τ} {label : Label τ} {labels : List (Label τ)}

def State.existing (s : State τ) : Nat := s.pool.pool.length + s.out.card

/-- Fewer than the maximum exist before an element is made or added. -/
def Room (s : State τ) : Label τ → Prop
  | .add _ => s.existing < s.pool.maximum
  | .get _ => s.pool.pool = [] → s.existing < s.pool.maximum
  | .put _ => True

theorem add_uncounted {p : Pool τ} (count : p.count = 0) (element : τ) :
    p.add element = .ok { p with pool := p.pool ++ [element] } := by
  refine if_neg ?_
  rintro ⟨bounded, full⟩
  rw [count] at full
  exact bounded (Nat.le_zero.mp full)

theorem constructed_eq (maximum : Nat) (initial : List τ) :
    constructed maximum initial = .ok ⟨maximum, 0, initial⟩ := by
  have all : ∀ (earlier : List τ), initial.foldlM add ⟨maximum, 0, earlier⟩ =
      .ok ⟨maximum, 0, earlier ++ initial⟩ := by
    induction initial with
    | nil => intro earlier; simp [pure, Except.pure]
    | cons element initial ih =>
      intro earlier
      rw [List.foldlM_cons, add_uncounted rfl]
      change initial.foldlM add ⟨maximum, 0, earlier ++ [element]⟩ = _
      rw [ih, List.append_assoc]
      rfl
  exact all []

theorem get_cons {p : Pool τ} {element : τ} {rest : List τ} (h : p.pool = element :: rest) (made : τ) :
    p.get made = .ok (.ok (element, { p with pool := rest })) := by
  simp [get, takeFront, h]

theorem get_nil {p : Pool τ} (count : p.count = 0) (h : p.pool = []) (made : τ) :
    p.get made = .ok (.ok (made, p)) := by
  obtain ⟨maximum, _, pool⟩ := p
  cases count
  cases h
  simp [get, add_uncounted, takeFront]

/-- The steps as the code takes them: `m_count` stays zero, so that nothing throws. -/
theorem step_cases (count : s.pool.count = 0) (hs : Step s label t) :
    (∃ element, label = .add element ∧
      t = ⟨{ s.pool with pool := s.pool.pool ++ [element] }, s.out⟩) ∨
    (∃ made element rest, label = .get made ∧ s.pool.pool = element :: rest ∧
      t = ⟨{ s.pool with pool := rest }, element ::ₘ s.out⟩) ∨
    (∃ made, label = .get made ∧ s.pool.pool = [] ∧ t = ⟨s.pool, made ::ₘ s.out⟩) ∨
    (∃ element rest, label = .put element ∧ s.out = element ::ₘ rest ∧
      t = ⟨{ s.pool with pool := s.pool.pool ++ [element] }, rest⟩) := by
  cases hs with
  | @add p p' out element h =>
    rw [add_uncounted count] at h
    cases h
    exact Or.inl ⟨element, rfl, rfl⟩
  | @addThrows p out element e h =>
    rw [add_uncounted count] at h
    cases h
  | @get p p' out made element h =>
    cases hp : p.pool with
    | nil =>
      rw [get_nil count hp] at h
      cases h
      exact Or.inr (Or.inr (Or.inl ⟨_, rfl, rfl, rfl⟩))
    | cons front rest =>
      rw [get_cons hp] at h
      cases h
      exact Or.inr (Or.inl ⟨made, _, rest, rfl, rfl, rfl⟩)
  | @getThrows p out made e h =>
    cases hp : p.pool with
    | nil => rw [get_nil count hp] at h; cases h
    | cons front rest => rw [get_cons hp] at h; cases h
  | @put p p' out rest element held h =>
    obtain ⟨_, _, h⟩ := bind_ok h
    cases h
    exact Or.inr (Or.inr (Or.inr ⟨element, rest, rfl, held, rfl⟩))

/-- At most the maximum exist, and nothing counts them. -/
structure Bounded (bound : Nat) (s : State τ) : Prop where
  maximum : s.pool.maximum = bound
  count : s.pool.count = 0
  existing : s.existing ≤ bound

theorem step_bounded_iff {maximum : Nat} (h : Bounded maximum s) (hs : Step s label t) :
    Bounded maximum t ↔ Room s label := by
  obtain ⟨same, count, existing⟩ := h
  obtain ⟨element, rfl, rfl⟩ | ⟨made, element, rest, rfl, front, rfl⟩ | ⟨made, rfl, empty, rfl⟩ |
    ⟨element, rest, rfl, held, rfl⟩ := step_cases count hs
  · constructor
    · rintro ⟨_, _, bound⟩
      simp only [State.existing, List.length_append, List.length_singleton] at bound
      simp only [Room, State.existing]
      omega
    · intro room
      refine ⟨same, count, ?_⟩
      simp only [Room, State.existing] at room
      simp only [State.existing, List.length_append, List.length_singleton]
      omega
  · refine iff_of_true ⟨same, count, ?_⟩ ?_
    · simp only [State.existing, front, List.length_cons] at existing
      simp only [State.existing, Multiset.card_cons]
      omega
    · intro empty
      cases front.symm.trans empty
  · constructor
    · rintro ⟨_, _, bound⟩ _
      simp only [State.existing, Multiset.card_cons] at bound
      simp only [State.existing]
      omega
    · intro room
      have room := room empty
      refine ⟨same, count, ?_⟩
      simp only [State.existing] at room
      simp only [State.existing, Multiset.card_cons]
      omega
  · refine iff_of_true ⟨same, count, ?_⟩ trivial
    simp only [State.existing, held, Multiset.card_cons] at existing
    simp only [State.existing, List.length_append, List.length_singleton]
    omega

theorem put_held {maximum : Nat} (h : Bounded maximum s) {element : τ} {rest : Multiset τ}
    (held : s.out = element ::ₘ rest) :
    s.pool.put element = .ok { s.pool with pool := s.pool.pool ++ [element] } := by
  have existing := h.existing
  have maximum := h.maximum
  have room : s.pool.maximum = 0 ∨ (s.pool.pool ++ [element]).length ≤ s.pool.maximum := by
    right
    simp only [State.existing, held, Multiset.card_cons] at existing
    simp only [List.length_append, List.length_singleton]
    omega
  simp only [put, require_of room, ok_bind]

/-- In a run that adds, and makes, an element only while fewer than the maximum exist, no more than the
maximum ever do, and the assertion of `put` holds of every element handed out; and after a next step
this stays so just when that one keeps to it. -/
theorem bounded_while_room {maximum : Nat} {initial : List τ} {p : Pool τ}
    (made : constructed maximum initial = .ok p) (fits : initial.length ≤ maximum)
    (run : Run (Restrict Room Step) ⟨p, 0⟩ labels s) :
    s.existing ≤ maximum ∧
      (∀ element rest, s.out = element ::ₘ rest → ∃ p', s.pool.put element = .ok p') ∧
      ∀ {label t}, Step s label t → (t.existing ≤ maximum ↔ Room s label) := by
  rw [constructed_eq] at made
  cases made
  have bounded : Bounded maximum s := by
    refine run.invariant ⟨rfl, rfl, ?_⟩ fun h hs => (step_bounded_iff h hs.2).mpr hs.1
    simpa [State.existing] using fits
  refine ⟨bounded.existing, fun element rest held => ⟨_, put_held bounded held⟩, ?_⟩
  intro label t hs
  rw [← step_bounded_iff bounded hs]
  constructor
  · intro bound
    have kept : t.pool.maximum = s.pool.maximum ∧ t.pool.count = s.pool.count := by
      obtain ⟨_, _, rfl⟩ | ⟨_, _, _, _, _, rfl⟩ | ⟨_, _, _, rfl⟩ | ⟨_, _, _, _, rfl⟩ :=
        step_cases bounded.count hs <;> exact ⟨rfl, rfl⟩
    exact ⟨kept.1.trans bounded.maximum, kept.2.trans bounded.count, bound⟩
  · exact fun h => h.existing

theorem bounded_while_room_two :
    ∃ s : State Nat, Run (Restrict Room Step) ⟨⟨2, 0, [7]⟩, 0⟩ [.get 8, .get 8] s ∧
      s.existing ≤ 2 := by
  refine Exists.imp (fun s run => ⟨run, (bounded_while_room (constructed_eq 2 [7]) (by decide) run).1⟩) ?_
  exact ⟨_, (Run.start.next ⟨nofun, .get (get_cons rfl 8)⟩).next ⟨fun _ => by decide, .get (get_nil rfl rfl 8)⟩⟩

def NeverExceeds : Prop :=
  ∀ (maximum : Nat) (initial : List Nat) (p : Pool Nat) (labels : List (Label Nat)) (s : State Nat),
    0 < maximum → initial.length ≤ maximum → constructed maximum initial = .ok p →
      Run Step ⟨p, 0⟩ labels s → s.existing ≤ maximum

theorem exceeds_after_two : ¬NeverExceeds := by
  intro never
  have bound := never 1 [] _ [.get 8, .get 9] _ (by decide) (by decide) rfl
    ((Run.start.next (.get (get_nil rfl rfl 8))).next (.get (get_nil rfl rfl 9)))
  exact absurd bound (by decide)

end Pool

end Hlib
