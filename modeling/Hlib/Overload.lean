import Mathlib.Data.List.Basic

namespace Overload

/-- A function that is declared in some scope. -/
structure Declaration (ν τ φ : Type*) where
  name : ν
  parameters : List τ
  function : φ

variable {ν τ φ : Type*} [DecidableEq ν]

def declared (scope : List (Declaration ν τ φ)) (name : ν) : List (Declaration ν τ φ) :=
  scope.filter fun d => d.name = name

/-- Unqualified lookup goes outwards through the scopes, and no further than the first one that declares
the name. -/
def lookup : List (List (Declaration ν τ φ)) → ν → List (Declaration ν τ φ)
  | [], _ => []
  | scope :: outer, name =>
    match declared scope name with
    | [] => lookup outer name
    | found => found

/-- Whether a function with these parameters can be called with these arguments. -/
def accepts (converts : τ → τ → Bool) (arguments parameters : List τ) : Bool :=
  arguments.length = parameters.length && (arguments.zip parameters).all fun pair => converts pair.1 pair.2

/-- Overload resolution, as far as no ranking of conversions is needed: the one candidate that can be
called. -/
def resolve (converts : τ → τ → Bool) (candidates : List (Declaration ν τ φ)) (arguments : List τ) :
    Option φ :=
  match candidates.filter fun d => accepts converts arguments d.parameters with
  | [d] => some d.function
  | _ => none

variable {converts : τ → τ → Bool} {scope : List (Declaration ν τ φ)} {name : ν}

/-- A scope that declares the name hides all outer ones. -/
theorem lookup_hides (outer : List (List (Declaration ν τ φ))) (h : declared scope name ≠ []) :
    lookup (scope :: outer) name = declared scope name := by
  rw [lookup]
  split
  next nothing => exact absurd nothing h
  next => rfl

omit [DecidableEq ν] in
theorem resolve_mem {candidates : List (Declaration ν τ φ)} {arguments : List τ} {f : φ}
    (h : resolve converts candidates arguments = some f) : ∃ d ∈ candidates, d.function = f := by
  unfold resolve at h
  split at h
  next d one =>
    cases h
    have found : d ∈ candidates.filter fun d => accepts converts arguments d.parameters := by
      rw [one]
      exact List.mem_singleton_self d
    exact ⟨d, List.mem_of_mem_filter found, rfl⟩
  next => cases h

/-- A call by an unqualified name that the inner scope declares is one of a function of that scope. -/
theorem resolve_inner {outer : List (List (Declaration ν τ φ))} {arguments : List τ} {f : φ}
    (h : declared scope name ≠ []) (hr : resolve converts (lookup (scope :: outer) name) arguments = some f) :
    ∃ d ∈ scope, d.name = name ∧ d.function = f := by
  rw [lookup_hides outer h] at hr
  obtain ⟨d, found, rfl⟩ := resolve_mem hr
  obtain ⟨inside, named⟩ := List.mem_filter.mp found
  exact ⟨d, inside, of_decide_eq_true named, rfl⟩

end Overload
