import Mathlib.Data.List.Basic

namespace Mealy

variable {σ τ ι ο : Type*}

/-- What a machine that answers every input says to a sequence of them. -/
def answers (step : σ → ι → ο × σ) : σ → List ι → List ο
  | _, [] => []
  | s, i :: inputs => (step s i).1 :: answers step (step s i).2 inputs

/-- The state in which the machine is then. -/
def after (step : σ → ι → ο × σ) (s : σ) (inputs : List ι) : σ :=
  inputs.foldl (fun s i => (step s i).2) s

theorem after_invariant {step : σ → ι → ο × σ} (good : σ → Prop) (keep : ∀ s i, good s → good (step s i).2)
    {s : σ} (h : good s) (inputs : List ι) : good (after step s inputs) := by
  induction inputs generalizing s with
  | nil => exact h
  | cons i inputs ih => exact ih (keep s i h)

/-- Two machines in related states agree on one input exactly under `fits`, and then go on to related
states: they agree on a sequence exactly if `fits` holds at each of its inputs. -/
theorem answers_eq_iff {step : σ → ι → ο × σ} {step' : τ → ι → ο × τ} (related : σ → τ → Prop)
    (fits : τ → ι → Prop)
    (agree : ∀ s t i, related s t → ((step s i).1 = (step' t i).1 ↔ fits t i))
    (keep : ∀ s t i, related s t → fits t i → related (step s i).2 (step' t i).2)
    {s : σ} {t : τ} (h : related s t) (inputs : List ι) :
    answers step s inputs = answers step' t inputs ↔
      ∀ done i rest, inputs = done ++ i :: rest → fits (after step' t done) i := by
  induction inputs generalizing s t with
  | nil =>
    constructor
    · intro _ done i rest split
      exact absurd split.symm (List.append_ne_nil_of_right_ne_nil done (List.cons_ne_nil i rest))
    · intro _
      rfl
  | cons i inputs ih =>
    show (step s i).1 :: answers step (step s i).2 inputs =
      (step' t i).1 :: answers step' (step' t i).2 inputs ↔ _
    rw [List.cons.injEq, agree s t i h]
    constructor
    · rintro ⟨first, later⟩ done j rest split
      have others := (ih (keep s t i h first)).mp later
      cases done with
      | nil =>
        cases split
        exact first
      | cons k done =>
        cases split
        exact others done j rest rfl
    · intro all
      have first : fits t i := all [] i inputs rfl
      refine ⟨first, (ih (keep s t i h first)).mpr ?_⟩
      intro done j rest split
      exact all (i :: done) j rest (congrArg (List.cons i) split)

end Mealy
