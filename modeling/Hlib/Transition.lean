import Mathlib.Logic.Function.Basic
import Mathlib.Data.List.Basic
import Mathlib.Algebra.Order.Ring.Int
import Mathlib.Algebra.BigOperators.Group.List.Basic

namespace Transition

variable {σ ι : Type*} {step : σ → ι → σ → Prop}

/-- Finite runs of a labelled transition relation, with the labels in order. -/
inductive Run (step : σ → ι → σ → Prop) (start : σ) : List ι → σ → Prop
  | start : Run step start [] start
  | next {labels s label t} : Run step start labels s → step s label t →
      Run step start (labels ++ [label]) t

theorem Run.trans {start s t : σ} {labels more : List ι} (run : Run step start labels s)
    (rest : Run step s more t) : Run step start (labels ++ more) t := by
  induction rest with
  | start =>
    rw [List.append_nil]
    exact run
  | next _ hs ih =>
    rw [← List.append_assoc]
    exact ih.next hs

/-- A property of the first state that every step keeps holds along the run. -/
theorem Run.invariant {good : σ → Prop} {start s : σ} {labels : List ι}
    (run : Run step start labels s) (first : good start)
    (keep : ∀ {s label t}, good s → step s label t → good t) : good s := by
  induction run with
  | start => exact first
  | next _ hs ih => exact keep ih hs

/-- A run simulates the fold of its labels, if every step does what `next` does for its label. -/
theorem Run.simulates {α : Type*} {next : α → ι → α} (related : α → σ → Prop) {a : α} {start s : σ}
    {labels : List ι} (run : Run step start labels s) (first : related a start)
    (keep : ∀ {a s label t}, related a s → step s label t → related (next a label) t) :
    related (labels.foldl next a) s := by
  induction run with
  | start => exact first
  | next _ hs ih =>
    rw [List.foldl_append]
    exact keep ih hs

theorem Run.mono {step' : σ → ι → σ → Prop} {start s : σ} {labels : List ι}
    (run : Run step start labels s) (h : ∀ {s label t}, step s label t → step' s label t) :
    Run step' start labels s := by
  induction run with
  | start => exact Run.start
  | next _ hs ih => exact ih.next (h hs)

/-- The steps of `step` taken only where `allowed` permits them. -/
def Restrict (allowed : σ → ι → Prop) (step : σ → ι → σ → Prop) (s : σ) (label : ι) (t : σ) : Prop :=
  allowed s label ∧ step s label t

/-- Steps that are not allowed lead to states that no step makes good again: a run is one of allowed
steps or ends in such a state. -/
theorem Run.restrict_or {allowed : σ → ι → Prop} {bad : σ → Prop} {start s : σ} {labels : List ι}
    (run : Run step start labels s)
    (spoil : ∀ {s label t}, ¬allowed s label → step s label t → bad t)
    (stay : ∀ {s label t}, bad s → step s label t → bad t) :
    Run (Restrict allowed step) start labels s ∨ bad s := by
  induction run with
  | start => exact Or.inl Run.start
  | @next labels s label t _ hs ih =>
    rcases ih with restricted | spoiled
    · by_cases h : allowed s label
      · exact Or.inl (restricted.next ⟨h, hs⟩)
      · exact Or.inr (spoil h hs)
    · exact Or.inr (stay spoiled hs)

theorem Run.restrict {allowed : ι → Prop} {start s : σ} {labels : List ι}
    (run : Run step start labels s) (h : ∀ label ∈ labels, allowed label) :
    Run (Restrict (fun _ => allowed) step) start labels s := by
  induction run with
  | start => exact Run.start
  | next _ hs ih =>
    have earlier := ih fun label hl => h label (List.mem_append_left _ hl)
    exact earlier.next ⟨h _ (List.mem_append_right _ (List.mem_singleton.mpr rfl)), hs⟩

/-- What a run has gained is what it has lost and what it still holds, if every step keeps this up. -/
theorem Run.balance {μ : Type*} [AddCommMonoid μ] {good : σ → Prop} {measure : σ → μ}
    {gain loss : ι → μ} {start s : σ} {labels : List ι} (run : Run step start labels s)
    (first : good start) (keep : ∀ {s label t}, good s → step s label t → good t)
    (even : ∀ {s label t}, good s → step s label t →
      measure t + loss label = measure s + gain label) :
    measure s + (labels.map loss).sum = measure start + (labels.map gain).sum := by
  induction run with
  | start => simp
  | @next labels s label t earlier hs ih =>
    have hg : good s := earlier.invariant first keep
    simp only [List.map_append, List.map_cons, List.map_nil, List.sum_append, List.sum_singleton]
    calc measure t + ((labels.map loss).sum + loss label)
        = measure t + loss label + (labels.map loss).sum := by rw [add_assoc, add_comm (loss label)]
      _ = measure s + gain label + (labels.map loss).sum := by rw [even hg hs]
      _ = measure s + (labels.map loss).sum + gain label := by rw [add_right_comm]
      _ = measure start + ((labels.map gain).sum + gain label) := by rw [ih, add_assoc]

/-- All states along some labels are good exactly if all steps fit, where from a good state a step
leads to a good one exactly if it fits. -/
theorem along_iff {good : σ → Prop} {fits : σ → ι → Prop} {start : σ} (first : good start)
    (agree : ∀ {done s i t}, Run step start done s → good s → step s i t → (good t ↔ fits s i))
    (labels : List ι) :
    (∀ done rest s, labels = done ++ rest → Run step start done s → good s) ↔
      ∀ done i rest s t, labels = done ++ i :: rest → Run step start done s → step s i t →
        fits s i := by
  constructor
  · intro all done i rest s t split run hs
    have before := all done (i :: rest) s split run
    have after := all (done ++ [i]) rest t (by rw [split, List.append_assoc]; rfl) (run.next hs)
    exact (agree run before hs).mp after
  · intro all done rest s split run
    induction run generalizing rest with
    | start => exact first
    | @next done s i t earlier hs ih =>
      have split : labels = done ++ i :: rest := by rw [split, List.append_assoc]; rfl
      exact (agree earlier (ih (i :: rest) split) hs).mpr (all done i rest s t split earlier hs)

section Follows

variable {α β κ ε : Type*} {next : α → κ → Option α} {run : β → κ → Except ε β}

/-- A partial step of a model and a step that may fail agree: both fail, or both lead to related
states. -/
def Follows (related : α → β → Prop) : Option α → Except ε β → Prop
  | none, .error _ => True
  | some a, .ok b => related a b
  | _, _ => False

theorem follows_foldlM {related : α → β → Prop}
    (step : ∀ {a b} label, related a b → Follows related (next a label) (run b label))
    (labels : List κ) {a : α} {b : β} (h : related a b) :
    Follows related (labels.foldlM next a) (labels.foldlM run b) := by
  induction labels generalizing a b with
  | nil => exact h
  | cons label labels ih =>
    have first := step label h
    rw [List.foldlM_cons, List.foldlM_cons]
    cases hn : next a label <;> cases hr : run b label <;> rw [hn, hr] at first
    · exact trivial
    · exact first.elim
    · exact first.elim
    · exact ih first

theorem follows_some {related : α → β → Prop} {x : Option α} {y : Except ε β} {b : β}
    (h : Follows related x y) (hy : y = .ok b) : ∃ a, x = some a ∧ related a b := by
  subst hy
  cases x with
  | none => exact h.elim
  | some a => exact ⟨a, rfl, h⟩

theorem follows_ok {related : α → β → Prop} {a : α} {y : Except ε β}
    (h : Follows related (some a) y) : ∃ b, y = .ok b ∧ related a b := by
  cases y with
  | error e => exact h.elim
  | ok b => exact ⟨b, rfl, h⟩

end Follows

/-- In a run of steps that may fail, every state is good exactly if every step is one that fits, where
from a good state a step leads to a good one exactly if it fits. -/
theorem foldlM_along_iff {ε : Type*} {step : σ → ι → Except ε σ} {good : σ → Prop} {fits : σ → ι → Prop}
    (agree : ∀ {s i t}, good s → step s i = .ok t → (good t ↔ fits s i)) {s t : σ} (h : good s)
    {labels : List ι} (run : labels.foldlM step s = .ok t) :
    (∀ done rest t, labels = done ++ rest → done.foldlM step s = .ok t → good t) ↔
      ∀ done i rest t, labels = done ++ i :: rest → done.foldlM step s = .ok t → fits t i := by
  induction labels generalizing s with
  | nil =>
    constructor
    · intro _ done i rest t split
      exact absurd split.symm (List.append_ne_nil_of_right_ne_nil done (List.cons_ne_nil i rest))
    · intro _ done rest t split reached
      obtain ⟨rfl, _⟩ := List.append_eq_nil_iff.mp split.symm
      cases reached
      exact h
  | cons i labels ih =>
    rw [List.foldlM_cons] at run
    cases first : step s i with
    | error e =>
      rw [first] at run
      cases run
    | ok s' =>
      rw [first] at run
      have enter {done : List ι} : (i :: done).foldlM step s = done.foldlM step s' := by
        rw [List.foldlM_cons, first]
        rfl
      constructor
      · intro all
        have kept : good s' := all [i] labels s' rfl (by rw [enter]; rfl)
        have fit := (agree h first).mp kept
        have later := (ih kept run).mp fun done rest t split reached =>
          all (i :: done) rest t (congrArg (List.cons i) split) (enter.trans reached)
        intro done j rest t split reached
        cases done with
        | nil =>
          cases split
          cases reached
          exact fit
        | cons k done =>
          cases split
          exact later done j rest t rfl (enter.symm.trans reached)
      · intro all
        have fit : fits s i := all [] i labels s rfl rfl
        have kept := (agree h first).mpr fit
        have later := (ih kept run).mpr fun done j rest t split reached =>
          all (i :: done) j rest t (congrArg (List.cons i) split) (enter.trans reached)
        intro done rest t split reached
        cases done with
        | nil =>
          cases reached
          exact h
        | cons k done =>
          cases split
          exact later done rest t rfl (enter.symm.trans reached)

section Safety

variable {ε : Type*}

/-- No step along the labels fails, and every state on the way is good. -/
def Safe (step : σ → ι → Except ε σ) (good : σ → Prop) : σ → List ι → Prop
  | s, [] => good s
  | s, i :: labels => good s ∧ ∃ t, step s i = .ok t ∧ Safe step good t labels

/-- Every label is allowed in the state in which it is met. -/
def Along (step : σ → ι → Except ε σ) (allowed : σ → ι → Prop) : σ → List ι → Prop
  | _, [] => True
  | s, i :: labels => allowed s i ∧ ∀ t, step s i = .ok t → Along step allowed t labels

/-- Where a step from a sound state leads to a sound one if it fits, and else fails or leads to one that is
not good, all is safe along legal labels exactly if all of them fit. -/
theorem safe_iff {step : σ → ι → Except ε σ} {good : σ → Prop} {legal fits : σ → ι → Prop} (sound : σ → Prop)
    (weaken : ∀ {s}, sound s → good s)
    (keep : ∀ {s i}, sound s → legal s i → fits s i → ∃ t, step s i = .ok t ∧ sound t)
    (only : ∀ {s i t}, sound s → legal s i → step s i = .ok t → good t → fits s i)
    {s : σ} (h : sound s) {labels : List ι} (legals : Along step legal s labels) :
    Safe step good s labels ↔ Along step fits s labels := by
  induction labels generalizing s with
  | nil => exact iff_of_true (weaken h) trivial
  | cons i labels ih =>
    obtain ⟨here, later⟩ := legals
    have start {t : σ} (safe : Safe step good t labels) : good t := by
      cases labels with
      | nil => exact safe
      | cons _ _ => exact safe.1
    constructor
    · rintro ⟨_, t, reached, safe⟩
      have fit := only h here reached (start safe)
      refine ⟨fit, fun t' reached' => ?_⟩
      obtain ⟨t₁, reached₁, sound⟩ := keep h here fit
      cases reached₁.symm.trans reached
      cases reached'.symm.trans reached
      exact (ih sound (later t reached)).mp safe
    · rintro ⟨fit, rest⟩
      obtain ⟨t, reached, sound⟩ := keep h here fit
      exact ⟨weaken h, t, reached, (ih sound (later t reached)).mpr (rest t reached)⟩

end Safety

end Transition
