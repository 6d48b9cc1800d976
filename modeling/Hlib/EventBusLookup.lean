import Hlib.EventBus

namespace Hlib

open Function (update update_self update_of_ne)
open UnorderedMap

namespace EventBus

variable {κ θ γ δ : Type} {actions : Actions κ θ γ}

/-- No action and, under one action, no name has two entries. -/
def Keyed (actions : Actions κ θ γ) : Prop :=
  Distinct actions ∧ ∀ entry ∈ actions, Distinct entry.2

theorem keyed_sweep (h : Keyed actions) : Keyed (sweep actions) :=
  ⟨distinct_filter h.1 _, fun entry he => h.2 entry (List.mem_filter.mp he).1⟩

variable [DecidableEq κ]

def lookup (actions : Actions κ θ γ) (action name : κ) : Option (Subscription θ γ) :=
  (find actions action).bind fun names => find names name

theorem Keyed.names (h : Keyed actions) {action : κ} {names : List (κ × Subscription θ γ)}
    (present : find actions action = some names) : Distinct names :=
  h.2 _ (mem_of_find present)

theorem keyed_assign (h : Keyed actions) (action : κ) {names : List (κ × Subscription θ γ)}
    (hn : Distinct names) : Keyed (assign actions action names) := by
  refine ⟨distinct_assign h.1 action names, ?_⟩
  rintro ⟨other, entries⟩ hm
  have found := find_of_mem (distinct_assign h.1 action names) hm
  by_cases own : other = action
  · rw [own, find_assign_self] at found
    cases found
    exact hn
  · rw [find_assign_of_ne actions names own] at found
    exact h.names found

theorem lookup_assign_self (actions : Actions κ θ γ) (action : κ)
    (names : List (κ × Subscription θ γ)) (name : κ) :
    lookup (assign actions action names) action name = find names name := by
  rw [lookup, find_assign_self]
  rfl

theorem lookup_assign_of_ne (actions : Actions κ θ γ) {action other : κ}
    (names : List (κ × Subscription θ γ)) (h : other ≠ action) (name : κ) :
    lookup (assign actions action names) other name = lookup actions other name := by
  rw [lookup, find_assign_of_ne actions names h, lookup]

theorem lookup_sweep (h : Keyed actions) (action name : κ) :
    lookup (sweep actions) action name = lookup actions action name := by
  rw [lookup, sweep, find_filter h.1, lookup]
  cases find actions action with
  | none => rfl
  | some names =>
    cases names with
    | nil => rfl
    | cons entry names => rfl

theorem lookup_present {action : κ} {names : List (κ × Subscription θ γ)}
    (present : find actions action = some names) (name : κ) :
    lookup actions action name = find names name := by
  rw [lookup, present]
  rfl

theorem get_eq (actions : Actions κ θ γ) (name action : κ) :
    get actions name action = (lookup actions action name).getD {} := by
  unfold get lookup
  cases find actions action with
  | none => rfl
  | some names =>
    dsimp only [Option.bind_some]
    cases find names name <;> rfl

/-- A change of one name under an action, with the entries of the others as they are. -/
theorem lookup_changed {action name other other' : κ} {names names' : List (κ × Subscription θ γ)}
    (before : ∀ n, find names n = lookup actions action n)
    (others : ∀ n, n ≠ name → find names' n = find names n) (h : (other, other') ≠ (action, name)) :
    lookup (assign actions action names') other other' = lookup actions other other' := by
  by_cases own : other = action
  · subst own
    have elsewhere : other' ≠ name := by
      rintro rfl
      exact h rfl
    rw [lookup_assign_self, others other' elsewhere, before]
  · exact lookup_assign_of_ne actions names' own other'

theorem find_getD (actions : Actions κ θ γ) (action name : κ) :
    find ((find actions action).getD []) name = lookup actions action name := by
  unfold lookup
  cases find actions action <;> rfl

theorem subscribe_cases {alive : θ → Bool} {name action : κ} {sub : Subscription θ γ} {result : Bool}
    {actions' : Actions κ θ γ}
    (h : subscribe actions alive name action sub = (result, actions')) :
    result = (sub.live alive && sub.callback.isSome) ∧
      (result = false ∧ actions' = actions ∨ result = true ∧
        actions' = assign actions action (assign ((find actions action).getD []) name sub)) := by
  unfold subscribe at h
  split at h
  next refused =>
    cases h
    refine ⟨?_, Or.inl ⟨rfl, rfl⟩⟩
    rcases refused with dead | null
    · rw [dead]
      rfl
    · rw [Option.isNone_iff_eq_none.mp null]
      exact (Bool.and_false _).symm
  next accepted =>
    cases h
    obtain ⟨live, callback⟩ := not_or.mp accepted
    refine ⟨?_, Or.inr ⟨rfl, rfl⟩⟩
    rw [eq_true_of_ne_false live]
    cases hc : sub.callback with
    | none => rw [hc] at callback; exact absurd rfl callback
    | some callback => rfl

theorem unsubscribe_lookup (h : Keyed actions) (name action : κ) :
    Keyed (unsubscribe actions name action) ∧
      lookup (unsubscribe actions name action) action name = none ∧
      ∀ other other', (other, other') ≠ (action, name) →
        lookup (unsubscribe actions name action) other other' = lookup actions other other' := by
  unfold unsubscribe
  cases present : find actions action with
  | none => exact ⟨h, by rw [lookup, present]; rfl, fun _ _ _ => rfl⟩
  | some names =>
    cases entry : find names name with
    | none =>
      simp only [entry]
      refine ⟨h, ?_, fun _ _ _ => trivial⟩
      rw [lookup_present present, entry]
    | some sub =>
      simp only [entry]
      have hn := h.names present
      have hk := keyed_assign h action (distinct_filter hn fun entry => entry.1 ≠ name)
      refine ⟨keyed_sweep hk, ?_, ?_⟩
      · exact (lookup_sweep hk action name).trans
          ((lookup_assign_self actions action _ name).trans (find_erase_self names name))
      · intro other other' ho
        refine (lookup_sweep hk other other').trans ?_
        exact lookup_changed (fun n => (lookup_present present n).symm)
          (fun n hne => find_erase_of_ne hn hne) ho

theorem notify_lookup (h : Keyed actions) {alive : θ → Bool} {name action : κ} {data : δ}
    {pushes : List (Push θ γ δ)} {actions' : Actions κ θ γ}
    (hn : notify actions alive name action data = (pushes, actions')) :
    Keyed actions' ∧
      (pushes = match lookup actions action name with
        | some sub => if sub.live alive then [sub.bind data] else []
        | none => []) ∧
      lookup actions' action name =
        (lookup actions action name).filter (fun sub => sub.live alive) ∧
      ∀ other other', (other, other') ≠ (action, name) →
        lookup actions' other other' = lookup actions other other' := by
  unfold notify at hn
  cases present : find actions action with
  | none =>
    rw [present] at hn
    cases hn
    have absent : lookup actions action name = none := by rw [lookup, present]; rfl
    rw [absent]
    exact ⟨h, rfl, rfl, fun _ _ _ => rfl⟩
  | some names =>
    rw [present] at hn
    have own := lookup_present present name
    cases entry : find names name with
    | none =>
      simp only [entry] at hn
      cases hn
      rw [own, entry]
      exact ⟨h, rfl, rfl, fun _ _ _ => rfl⟩
    | some sub =>
      simp only [entry] at hn
      rw [own, entry]
      by_cases live : sub.live alive = true
      · rw [if_pos live] at hn
        cases hn
        refine ⟨h, by simp [live], ?_, fun _ _ _ => rfl⟩
        rw [own, entry, Option.filter_some, if_pos live]
      · rw [if_neg live] at hn
        cases hn
        have hd := h.names present
        refine ⟨keyed_assign h action (distinct_filter hd fun entry => entry.1 ≠ name), ?_, ?_, ?_⟩
        · exact (if_neg live).symm
        · rw [lookup_assign_self, find_erase_self, Option.filter_some, if_neg live]
        · intro other other' ho
          exact lookup_changed (fun n => (lookup_present present n).symm)
            (fun n hne => find_erase_of_ne hd hne) ho

end EventBus

end Hlib
