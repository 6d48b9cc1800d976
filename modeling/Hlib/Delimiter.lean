import Mathlib.Data.List.TakeWhile

namespace Delimiter

variable {α : Type*}

theorem run_append {keep : α → Bool} {before after : List α} (inside : ∀ c ∈ before, keep c = true)
    (stop : ∀ c ∈ after.head?, keep c = false) :
    (before ++ after).takeWhile keep = before ∧ (before ++ after).dropWhile keep = after := by
  rw [List.takeWhile_append_of_pos inside, List.dropWhile_append_of_pos inside]
  cases after with
  | nil => exact ⟨List.append_nil before, rfl⟩
  | cons c after =>
    have stopped : ¬keep c = true := by
      rw [stop c rfl]
      exact Bool.false_ne_true
    rw [List.takeWhile_cons_of_neg stopped, List.dropWhile_cons_of_neg stopped]
    exact ⟨List.append_nil before, rfl⟩

theorem run_stop (keep : α → Bool) (text : List α) : ∀ c ∈ (text.dropWhile keep).head?, keep c = false := by
  induction text with
  | nil => exact nofun
  | cons x text ih =>
    by_cases hx : keep x = true
    · rwa [List.dropWhile_cons_of_pos hx]
    · rw [List.dropWhile_cons_of_neg hx]
      rintro c ⟨⟩
      exact eq_false_of_ne_true hx

theorem findIdx_run (keep : α → Bool) (text : List α) :
    (text.findIdx? (fun c => !keep c)).elim text (fun n => text.take n) = text.takeWhile keep := by
  induction text with
  | nil => rfl
  | cons c text ih =>
    rw [List.findIdx?_cons]
    cases hc : keep c with
    | false =>
      rw [List.takeWhile_cons_of_neg (by rw [hc]; exact Bool.false_ne_true)]
      rfl
    | true =>
      rw [List.takeWhile_cons_of_pos hc, ← ih]
      cases text.findIdx? fun c => !keep c with
      | none => rfl
      | some n => rfl

variable [DecidableEq α]

/-- What stands before and after the first `sep`. -/
def cutFirst (sep : α) : List α → Option (List α × List α)
  | [] => none
  | c :: text =>
    if c = sep then some ([], text)
    else (cutFirst sep text).map fun cut => (c :: cut.1, cut.2)

def cutLast (sep : α) : List α → Option (List α × List α)
  | [] => none
  | c :: text =>
    match cutLast sep text with
    | some cut => some (c :: cut.1, cut.2)
    | none => if c = sep then some ([], text) else none

theorem cutFirst_append {sep : α} {before : List α} (h : sep ∉ before) (after : List α) :
    cutFirst sep (before ++ sep :: after) = some (before, after) := by
  induction before with
  | nil => exact if_pos rfl
  | cons c before ih =>
    rw [List.mem_cons, not_or] at h
    rw [List.cons_append, cutFirst, if_neg (Ne.symm h.1), ih h.2]
    rfl

theorem cutFirst_none {sep : α} {text : List α} : cutFirst sep text = none ↔ sep ∉ text := by
  induction text with
  | nil => exact iff_of_true rfl List.not_mem_nil
  | cons c text ih =>
    rw [cutFirst, List.mem_cons, not_or]
    by_cases hc : c = sep
    · rw [if_pos hc]
      exact iff_of_false nofun fun h => h.1 hc.symm
    · rw [if_neg hc, Option.map_eq_none_iff, ih]
      exact ⟨fun h => ⟨Ne.symm hc, h⟩, fun h => h.2⟩

theorem cutFirst_some {sep : α} {text before after : List α}
    (h : cutFirst sep text = some (before, after)) : text = before ++ sep :: after ∧ sep ∉ before := by
  induction text generalizing before after with
  | nil => cases h
  | cons c text ih =>
    rw [cutFirst] at h
    split at h
    next hc =>
      cases h
      exact ⟨hc ▸ rfl, List.not_mem_nil⟩
    next hc =>
      obtain ⟨⟨first, second⟩, inner, whole⟩ := Option.map_eq_some_iff.mp h
      cases whole
      obtain ⟨rfl, fresh⟩ := ih inner
      refine ⟨rfl, ?_⟩
      rw [List.mem_cons, not_or]
      exact ⟨Ne.symm hc, fresh⟩

theorem cutFirst_behind {sep : α} {before : List α} (h : sep ∉ before) (text : List α) :
    cutFirst sep (before ++ text) = (cutFirst sep text).map fun cut => (before ++ cut.1, cut.2) := by
  induction before with
  | nil => simp
  | cons c before ih =>
    rw [List.mem_cons, not_or] at h
    rw [List.cons_append, cutFirst, if_neg (Ne.symm h.1), ih h.2, Option.map_map]
    rfl

/-- The position of the first `sep` is the length of what stands before it. -/
theorem findIdx_cutFirst (sep : α) (text : List α) :
    text.findIdx? (fun c => c = sep) = (cutFirst sep text).map fun cut => cut.1.length := by
  induction text with
  | nil => rfl
  | cons c text ih =>
    rw [List.findIdx?_cons, cutFirst]
    by_cases hc : c = sep
    · rw [if_pos hc, if_pos (decide_eq_true hc)]
      rfl
    · rw [if_neg hc, if_neg (by simpa using hc), ih, Option.map_map, Option.map_map]
      rfl

theorem cutLast_some {sep : α} {text before after : List α}
    (h : cutLast sep text = some (before, after)) : text = before ++ sep :: after := by
  induction text generalizing before after with
  | nil => cases h
  | cons c text ih =>
    rw [cutLast] at h
    split at h
    next cut inner =>
      cases h
      exact congrArg (c :: ·) (ih inner)
    next =>
      split at h
      next hc =>
        cases h
        exact hc ▸ rfl
      next => cases h

/-- What stands before and after the first occurrence of `sep`. -/
def cutAt (sep : List α) : List α → Option (List α × List α)
  | [] => if sep = [] then some ([], []) else none
  | c :: text =>
    if sep <+: c :: text then some ([], (c :: text).drop sep.length)
    else (cutAt sep text).map fun cut => (c :: cut.1, cut.2)

theorem cutAt_here {sep text : List α} (h : sep <+: text) : cutAt sep text = some ([], text.drop sep.length) := by
  cases text with
  | nil =>
    have empty := List.prefix_nil.mp h
    subst empty
    rfl
  | cons c text => exact if_pos h

theorem cutAt_later {sep : List α} {c : α} {text : List α} (h : ¬sep <+: c :: text) :
    cutAt sep (c :: text) = (cutAt sep text).map fun cut => (c :: cut.1, cut.2) := if_neg h

/-- `sep` occurs behind `before`, and nowhere earlier. -/
structure FirstAt (sep text before after : List α) : Prop where
  whole : text = before ++ (sep ++ after)
  first : ∀ n < before.length, ¬sep <+: text.drop n

theorem FirstAt.cut {sep text before after : List α} (h : FirstAt sep text before after) :
    cutAt sep text = some (before, after) := by
  obtain ⟨rfl, first⟩ := h
  induction before with
  | nil =>
    rw [List.nil_append, cutAt_here (List.prefix_append sep after), List.drop_left]
  | cons c before ih =>
    have here : ¬sep <+: c :: (before ++ (sep ++ after)) := first 0 (Nat.succ_pos _)
    have rest := ih fun n hn => first (n + 1) (Nat.succ_lt_succ hn)
    rw [List.cons_append, cutAt_later here, rest]
    rfl

theorem cutAt_none {sep text : List α} (h : ∀ n ≤ text.length, ¬sep <+: text.drop n) :
    cutAt sep text = none := by
  induction text with
  | nil =>
    refine if_neg ?_
    rintro rfl
    exact h 0 (Nat.le_refl _) (List.prefix_refl _)
  | cons c text ih =>
    have rest := ih fun n hn => h (n + 1) (Nat.succ_le_succ hn)
    rw [cutAt_later (h 0 (Nat.zero_le _)), rest]
    rfl

/-- The greatest position at which `sep` occurs. -/
def rfind (sep : List α) : List α → Option Nat
  | [] => if sep = [] then some 0 else none
  | c :: text =>
    match rfind sep text with
    | some position => some (position + 1)
    | none => if sep <+: c :: text then some 0 else none

theorem rfind_none {first : α} {rest text : List α} (h : first ∉ text) :
    rfind (first :: rest) text = none := by
  induction text with
  | nil => rfl
  | cons c text ih =>
    rw [List.mem_cons, not_or] at h
    have here : ¬first :: rest <+: c :: text := fun occurs => h.1 (List.cons_prefix_cons.mp occurs).1
    rw [rfind, ih h.2]
    exact if_neg here

theorem rfind_append {first : α} {rest after : List α} (h : first ∉ rest ++ after) (before : List α) :
    rfind (first :: rest) (before ++ (first :: rest ++ after)) = some before.length := by
  induction before with
  | nil =>
    have here : first :: rest <+: first :: (rest ++ after) := List.prefix_append (first :: rest) after
    rw [List.nil_append, List.cons_append, rfind, rfind_none h]
    exact if_pos here
  | cons c before ih => rw [List.cons_append, rfind, ih, List.length_cons]

end Delimiter
