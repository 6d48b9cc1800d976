import Mathlib.Data.Sum.Basic

namespace Loop

/-- One pass of a loop: it faults, goes on with a state, or is left with a result. -/
abbrev Body (σ ω ε : Type*) := σ → Except ε (σ ⊕ ω)

variable {σ τ ω ψ ε : Type*} {body : Body σ ω ε} {measure : σ → Nat} {start : σ}

def Descends (body : Body σ ω ε) (measure : σ → Nat) : Prop :=
  ∀ s t, body s = .ok (.inl t) → measure t < measure s

def loop (body : Body σ ω ε) (measure : σ → Nat) (descends : Descends body measure) (s : σ) : Except ε ω :=
  match _ : body s with
  | .error fault => .error fault
  | .ok (.inr result) => .ok result
  | .ok (.inl t) => loop body measure descends t
  termination_by measure s
  decreasing_by exact descends s t (by assumption)

theorem loop_faults {descends : Descends body measure} {s : σ} {fault : ε} (h : body s = .error fault) :
    loop body measure descends s = .error fault := by
  rw [loop]
  split
  next h' => rw [h] at h'; cases h'; rfl
  next h' => rw [h] at h'; cases h'
  next h' => rw [h] at h'; cases h'

theorem loop_leaves {descends : Descends body measure} {s : σ} {result : ω} (h : body s = .ok (.inr result)) :
    loop body measure descends s = .ok result := by
  rw [loop]
  split
  next h' => rw [h] at h'; cases h'
  next h' => rw [h] at h'; cases h'; rfl
  next h' => rw [h] at h'; cases h'

theorem loop_goes {descends : Descends body measure} {s t : σ} (h : body s = .ok (.inl t)) :
    loop body measure descends s = loop body measure descends t := by
  rw [loop]
  split
  next h' => rw [h] at h'; cases h'
  next h' => rw [h] at h'; cases h'
  next h' => rw [h] at h'; cases h'; rfl

/-- A property of the outcome that follows from what one pass does, given it for the next state. -/
theorem loop_induction {P : σ → Except ε ω → Prop} (descends : Descends body measure)
    (faults : ∀ s fault, body s = .error fault → P s (.error fault))
    (leaves : ∀ s result, body s = .ok (.inr result) → P s (.ok result))
    (goes : ∀ s t outcome, body s = .ok (.inl t) → P t outcome → P s outcome) (s : σ) :
    P s (loop body measure descends s) := by
  induction hn : measure s using Nat.strongRecOn generalizing s with
  | ind n ih =>
    cases h : body s with
    | error fault =>
      rw [loop_faults h]
      exact faults s fault h
    | ok next =>
      cases next with
      | inr result =>
        rw [loop_leaves h]
        exact leaves s result h
      | inl t =>
        rw [loop_goes h]
        exact goes s t _ h (ih (measure t) (hn ▸ descends s t h) t rfl)

/-- The states in which a pass begins, up to the first one that is not `allowed`. -/
inductive Visits (body : Body σ ω ε) (allowed : σ → Prop) (start : σ) : σ → Prop
  | start : Visits body allowed start start
  | next {s t} : Visits body allowed start s → allowed s → body s = .ok (.inl t) → Visits body allowed start t

/-- The states in which a pass of the loop begins. -/
abbrev Reaches (body : Body σ ω ε) (start : σ) : σ → Prop := Visits body (fun _ => True) start

theorem Visits.reaches {allowed : σ → Prop} {s : σ} (v : Visits body allowed start s) :
    Reaches body start s := by
  induction v with
  | start => exact Visits.start
  | next _ _ h ih => exact ih.next trivial h

theorem Visits.invariant {allowed : σ → Prop} (good : σ → Prop) {s : σ} (v : Visits body allowed start s)
    (first : good start) (keep : ∀ s t, good s → body s = .ok (.inl t) → good t) : good s := by
  induction v with
  | start => exact first
  | next _ _ h ih => exact keep _ _ ih h

theorem Visits.loop_eq {allowed : σ → Prop} {s : σ} (v : Visits body allowed start s)
    (descends : Descends body measure) :
    loop body measure descends start = loop body measure descends s := by
  induction v with
  | start => rfl
  | next _ _ h ih => rw [ih, loop_goes h]

/-- Of the states reached that are not `allowed`, one is the first. -/
theorem Visits.first {allowed : σ → Prop} {s : σ} (v : Reaches body start s) (h : ¬allowed s) :
    ∃ t, Visits body allowed start t ∧ ¬allowed t := by
  suffices all : Visits body allowed start s ∨ ∃ t, Visits body allowed start t ∧ ¬allowed t by
    rcases all with v | found
    · exact ⟨s, v, h⟩
    · exact found
  clear h
  induction v with
  | start => exact Or.inl Visits.start
  | @next s t _ _ hs ih =>
    rcases ih with v | found
    · by_cases ha : allowed s
      · exact Or.inl (v.next ha hs)
      · exact Or.inr ⟨s, v, ha⟩
    · exact Or.inr found

/-- A loop returns if no pass of it faults. -/
theorem loop_returns (descends : Descends body measure)
    (fine : ∀ s, Reaches body start s → ∀ fault, body s ≠ .error fault) :
    ∃ result, loop body measure descends start = .ok result := by
  have from_here : ∀ s, Reaches body start s → ∃ result, loop body measure descends s = .ok result := by
    intro s
    induction hn : measure s using Nat.strongRecOn generalizing s with
    | ind n ih =>
      intro reached
      cases hs : body s with
      | error fault => exact absurd hs (fine s reached fault)
      | ok next =>
        cases next with
        | inr result => exact ⟨result, loop_leaves hs⟩
        | inl t =>
          rw [loop_goes hs]
          exact ih _ (hn ▸ descends _ _ hs) _ rfl (reached.next trivial hs)
  exact from_here start Visits.start

/-- The loop, which may also go on for ever, is left with `result`. -/
def Returns (body : Body σ ω ε) (start : σ) (result : ω) : Prop :=
  ∃ s, Reaches body start s ∧ body s = .ok (.inr result)

/-- A loop with a measure is left with what it gives. -/
theorem returns_iff (descends : Descends body measure) {result : ω} :
    Returns body start result ↔ loop body measure descends start = .ok result := by
  constructor
  · rintro ⟨s, v, left⟩
    exact (v.loop_eq descends).trans (loop_leaves left)
  · have from_here : ∀ s, Reaches body start s → loop body measure descends s = .ok result →
        Returns body start result := by
      intro s
      induction hn : measure s using Nat.strongRecOn generalizing s with
      | ind n ih =>
        intro reached h
        cases hs : body s with
        | error fault =>
          rw [loop_faults hs] at h
          cases h
        | ok next =>
          cases next with
          | inr other =>
            rw [loop_leaves hs] at h
            cases h
            exact ⟨s, reached, hs⟩
          | inl t =>
            rw [loop_goes hs] at h
            exact ih _ (hn ▸ descends _ _ hs) _ rfl (reached.next trivial hs) h
    exact from_here start Visits.start

/-- As many passes as there is fuel, `none` if the loop is not left by then. -/
def run (body : Body σ ω ε) : Nat → σ → Except ε (Option ω)
  | 0, _ => .ok none
  | fuel + 1, s =>
    match body s with
    | .error fault => .error fault
    | .ok (.inr result) => .ok (some result)
    | .ok (.inl t) => run body fuel t

theorem run_leaves {s : σ} {result : ω} (h : body s = .ok (.inr result)) (fuel : Nat) :
    run body (fuel + 1) s = .ok (some result) := by
  rw [run, h]

theorem run_goes {s t : σ} (h : body s = .ok (.inl t)) (fuel : Nat) :
    run body (fuel + 1) s = run body fuel t := by
  rw [run, h]

theorem run_faults {s : σ} {fault : ε} (h : body s = .error fault) (fuel : Nat) :
    run body (fuel + 1) s = .error fault := by
  rw [run, h]

/-- A loop is left with what enough fuel gives. -/
theorem returns_iff_run {result : ω} :
    Returns body start result ↔ ∃ fuel, run body fuel start = .ok (some result) := by
  constructor
  · rintro ⟨s, v, left⟩
    have back : ∀ fuel, run body fuel s = .ok (some result) →
        ∃ fuel, run body fuel start = .ok (some result) := by
      clear left
      induction v with
      | start => exact fun fuel h => ⟨fuel, h⟩
      | next _ _ goes ih => exact fun fuel h => ih (fuel + 1) ((run_goes goes fuel).trans h)
    exact back 1 (run_leaves left 0)
  · rintro ⟨fuel, h⟩
    have from_here : ∀ fuel s, Reaches body start s → run body fuel s = .ok (some result) →
        Returns body start result := by
      intro fuel
      induction fuel with
      | zero =>
        intro s _ h
        cases h
      | succ fuel ih =>
        intro s reached h
        cases hs : body s with
        | error fault =>
          rw [run_faults hs] at h
          cases h
        | ok next =>
          cases next with
          | inr other =>
            rw [run_leaves hs] at h
            cases h
            exact ⟨s, reached, hs⟩
          | inl t =>
            rw [run_goes hs] at h
            exact ih t (reached.next trivial hs) h
    exact from_here fuel start Visits.start h

/-- A loop returns what it returns from its second pass on. -/
theorem returns_goes {s t : σ} {result : ω} (h : body s = .ok (.inl t)) :
    Returns body s result ↔ Returns body t result := by
  rw [returns_iff_run, returns_iff_run]
  constructor
  · rintro ⟨fuel, left⟩
    cases fuel with
    | zero => cases left
    | succ fuel => exact ⟨fuel, (run_goes h fuel).symm.trans left⟩
  · exact fun ⟨fuel, left⟩ => ⟨fuel + 1, (run_goes h fuel).trans left⟩

theorem Returns.invariant {result : ω} (returned : Returns body start result) (good : σ → Prop)
    (first : good start) (keep : ∀ s t, good s → body s = .ok (.inl t) → good t) :
    ∃ s, good s ∧ body s = .ok (.inr result) := by
  obtain ⟨s, v, left⟩ := returned
  exact ⟨s, v.invariant good first keep, left⟩

theorem returns_leaves {s : σ} {result : ω} (h : body s = .ok (.inr result)) : Returns body s result :=
  ⟨s, Visits.start, h⟩

/-- A loop whose first pass faults returns nothing. -/
theorem not_returns {s : σ} {fault : ε} (h : body s = .error fault) (result : ω) :
    ¬Returns body s result := by
  rw [returns_iff_run]
  rintro ⟨fuel, left⟩
  cases fuel with
  | zero => cases left
  | succ fuel =>
    rw [run_faults h] at left
    cases left

/-- Two passes with the same kind of ending, in related states or with related results. -/
inductive Alike (R : σ → τ → Prop) (S : ω → ψ → Prop) : Except ε (σ ⊕ ω) → Except ε (τ ⊕ ψ) → Prop
  | faults (fault : ε) : Alike R S (.error fault) (.error fault)
  | goes {s t} : R s t → Alike R S (.ok (.inl s)) (.ok (.inl t))
  | leaves {r r'} : S r r' → Alike R S (.ok (.inr r)) (.ok (.inr r'))

theorem Alike.imp {R R' : σ → τ → Prop} {S : ω → ψ → Prop} {x : Except ε (σ ⊕ ω)} {y : Except ε (τ ⊕ ψ)}
    (h : Alike R S x y) (finer : ∀ s t, x = .ok (.inl s) → R s t → R' s t) : Alike R' S x y := by
  cases h with
  | faults fault => exact .faults fault
  | goes related => exact .goes (finer _ _ rfl related)
  | leaves related => exact .leaves related

/-- Two outcomes of the same kind, with related results. -/
inductive AlikeOutcome (S : ω → ψ → Prop) : Except ε ω → Except ε ψ → Prop
  | faults (fault : ε) : AlikeOutcome S (.error fault) (.error fault)
  | returns {r r'} : S r r' → AlikeOutcome S (.ok r) (.ok r')

theorem AlikeOutcome.eq {x y : Except ε ω} (h : AlikeOutcome Eq x y) : x = y := by
  cases h with
  | faults fault => rfl
  | returns same => rw [same]

section Simulation

variable {other : Body τ ψ ε} {measure' : τ → Nat} {R : σ → τ → Prop} {S : ω → ψ → Prop} {start' : τ}

/-- Loops whose passes are alike in related states have alike outcomes. -/
theorem loop_alike (descends : Descends body measure) (descends' : Descends other measure')
    (alike : ∀ s t, Reaches body start s → R s t → Alike R S (body s) (other t))
    (first : R start start') :
    AlikeOutcome S (loop body measure descends start) (loop other measure' descends' start') := by
  have from_here : ∀ s t, Reaches body start s → R s t →
      AlikeOutcome S (loop body measure descends s) (loop other measure' descends' t) := by
    intro s
    induction hn : measure s using Nat.strongRecOn generalizing s with
    | ind n ih =>
      intro t reached related
      have pass := alike s t reached related
      cases hs : body s with
      | error fault =>
        rw [hs] at pass
        cases ht : other t <;> rw [ht] at pass <;> cases pass
        rw [loop_faults hs, loop_faults ht]
        exact .faults fault
      | ok next =>
        rw [hs] at pass
        cases ht : other t with
        | error fault => rw [ht] at pass; cases pass
        | ok next' =>
          rw [ht] at pass
          cases pass with
          | goes h =>
            rw [loop_goes hs, loop_goes ht]
            exact ih _ (hn ▸ descends _ _ hs) _ rfl _ (reached.next trivial hs) h
          | leaves h =>
            rw [loop_leaves hs, loop_leaves ht]
            exact .returns h
  exact from_here start start' Visits.start first

/-- What the one loop visits while its passes are alike is related to what the other one visits. -/
theorem Visits.follow {allowed : σ → Prop} {s : σ} (v : Visits body allowed start s)
    (alike : ∀ s t, Reaches body start s → Reaches other start' t → allowed s → R s t →
      Alike R S (body s) (other t))
    (first : R start start') : ∃ t, Reaches other start' t ∧ R s t := by
  induction v with
  | start => exact ⟨start', Visits.start, first⟩
  | @next s next earlier ha hs ih =>
    obtain ⟨t, reached, related⟩ := ih
    have pass := alike s t earlier.reaches reached ha related
    rw [hs] at pass
    cases ht : other t with
    | error fault => rw [ht] at pass; cases pass
    | ok next' =>
      rw [ht] at pass
      cases pass with
      | goes h => exact ⟨_, reached.next trivial ht, h⟩

/-- And the other way round. -/
theorem Visits.followed {t : τ} (v : Reaches other start' t)
    (alike : ∀ s t, Reaches body start s → R s t → Alike R S (body s) (other t))
    (first : R start start') : ∃ s, Reaches body start s ∧ R s t := by
  induction v with
  | start => exact ⟨start, Visits.start, first⟩
  | @next t next _ _ ht ih =>
    obtain ⟨s, reached, related⟩ := ih
    have pass := alike s t reached related
    rw [ht] at pass
    cases hs : body s with
    | error fault => rw [hs] at pass; cases pass
    | ok next' =>
      rw [hs] at pass
      cases pass with
      | goes h => exact ⟨_, reached.next trivial hs, h⟩

end Simulation

end Loop
