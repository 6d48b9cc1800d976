import Mathlib.Data.List.Perm.Basic

variable {α β γ : Type*} {p : α → Bool} {xs ys : List α}

/-- No two elements of the list satisfy `p`. -/
def AtMostOne (p : α → Bool) (xs : List α) : Prop := xs.Pairwise fun a b => ¬(p a = true ∧ p b = true)

namespace AtMostOne

theorem tail {x : α} (one : AtMostOne p (x :: xs)) : AtMostOne p xs := (List.pairwise_cons.mp one).2

theorem others {x : α} (one : AtMostOne p (x :: xs)) (hx : p x = true) {y : α} (hy : y ∈ xs) : p y = false := by
  rw [← Bool.not_eq_true]
  intro also
  exact (List.pairwise_cons.mp one).1 y hy ⟨hx, also⟩

theorem perm (one : AtMostOne p xs) (h : ys.Perm xs) : AtMostOne p ys :=
  (h.pairwise_iff fun hab hba => hab ⟨hba.2, hba.1⟩).mpr one

theorem filter_eq (one : AtMostOne p xs) : xs.filter p = (xs.find? p).toList := by
  induction xs with
  | nil => rfl
  | cons x xs ih =>
    cases hx : p x with
    | true =>
      have none_left : xs.filter p = [] := by
        rw [List.filter_eq_nil_iff]
        intro y hy
        rw [one.others hx hy]
        exact Bool.false_ne_true
      rw [List.filter_cons_of_pos hx, List.find?_cons_of_pos hx, none_left]
      rfl
    | false =>
      have other : ¬p x = true := by rw [hx]; exact Bool.false_ne_true
      rw [List.filter_cons_of_neg other, List.find?_cons_of_neg other]
      exact ih one.tail

/-- The one element that satisfies `p` is found in any order of the list. -/
theorem find?_perm (one : AtMostOne p xs) (h : ys.Perm xs) : ys.find? p = xs.find? p := by
  have same := h.filter p
  rw [one.filter_eq, (one.perm h).filter_eq] at same
  cases hy : ys.find? p with
  | none =>
    rw [hy] at same
    cases hx : xs.find? p with
    | none => rfl
    | some x =>
      rw [hx] at same
      cases same.length_eq
  | some y =>
    rw [hy] at same
    cases hx : xs.find? p with
    | none =>
      rw [hx] at same
      cases same.length_eq
    | some x =>
      rw [hx] at same
      exact congrArg some (List.singleton_perm_singleton.mp same)

/-- What is changed beside the first element that satisfies `p` is changed beside all of them. -/
theorem zip_modify (one : AtMostOne p xs) (zs : List β) (g : β → β) :
    xs.zip (zs.modify (xs.findIdx p) g) = (xs.zip zs).map fun e => if p e.1 then (e.1, g e.2) else e := by
  induction xs generalizing zs with
  | nil => rfl
  | cons x xs ih =>
    cases zs with
    | nil => simp
    | cons z zs =>
      cases hx : p x with
      | true =>
        have kept : (xs.zip zs).map (fun e => if p e.1 then (e.1, g e.2) else e) = xs.zip zs := by
          rw [List.map_congr_left, List.map_id]
          intro e he
          have other := one.others hx (List.of_mem_zip he).1
          rw [other]
          rfl
        simp [List.findIdx_cons, hx, kept]
      | false => simp [List.findIdx_cons, hx, ih one.tail]

/-- The index of the element that satisfies `p`. -/
theorem findIdx_append_cons {before after : List α} {x : α} (one : AtMostOne p (before ++ x :: after))
    (hx : p x = true) : (before ++ x :: after).findIdx p = before.length := by
  induction before with
  | nil => simp [List.findIdx_cons, hx]
  | cons y before ih =>
    have other : p y = false := by
      rw [← Bool.not_eq_true]
      intro also
      have not_x := one.others also (List.mem_append_right before List.mem_cons_self)
      cases hx.symm.trans not_x
    rw [List.cons_append, List.findIdx_cons, other, ih one.tail]
    rfl

/-- A change to the first of two lists, beside the second one. -/
theorem set_zip (xs : List β) (ys : List γ) (k : Nat) (x : β) :
    (xs.set k x).zip ys = (xs.zip ys).modify k fun e => (x, e.2) := by
  induction xs generalizing ys k with
  | nil => simp
  | cons a xs ih =>
    cases ys with
    | nil => simp
    | cons b ys =>
      cases k with
      | zero => rfl
      | succ k => simp [ih]

theorem zip_set (xs : List β) (ys : List γ) (k : Nat) (y : γ) :
    xs.zip (ys.set k y) = (xs.zip ys).modify k fun e => (e.1, y) := by
  induction xs generalizing ys k with
  | nil => simp
  | cons a xs ih =>
    cases ys with
    | nil => simp
    | cons b ys =>
      cases k with
      | zero => rfl
      | succ k => simp [ih]

end AtMostOne
