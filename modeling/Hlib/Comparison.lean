import Mathlib.Algebra.Order.Field.Basic

/-- The six comparison operators of a type; a call without a result is none. -/
structure Comparison (α : Type) where
  equal : α → α → Option Bool
  notEqual : α → α → Option Bool
  less : α → α → Option Bool
  lessEqual : α → α → Option Bool
  greater : α → α → Option Bool
  greaterEqual : α → α → Option Bool

namespace Comparison

variable {α β : Type} [LinearOrder β]

/-- Each operator gives what the order of the values gives. -/
structure Agrees (c : Comparison α) (value : α → β) (a b : α) : Prop where
  equal : c.equal a b = some (decide (value a = value b))
  notEqual : c.notEqual a b = some (decide (value a ≠ value b))
  less : c.less a b = some (decide (value a < value b))
  lessEqual : c.lessEqual a b = some (decide (value a ≤ value b))
  greater : c.greater a b = some (decide (value a > value b))
  greaterEqual : c.greaterEqual a b = some (decide (value a ≥ value b))

/-- Exactly one of less, equal and greater holds. -/
def Trichotomous (c : Comparison α) (a b : α) : Prop :=
  [c.less a b, c.equal a b, c.greater a b].count (some true) = 1

instance (c : Comparison α) (a b : α) : Decidable (c.Trichotomous a b) :=
  inferInstanceAs (Decidable (_ = _))

theorem Agrees.trichotomous {c : Comparison α} {value : α → β} {a b : α} (agrees : c.Agrees value a b) :
    c.Trichotomous a b := by
  unfold Trichotomous
  rw [agrees.less, agrees.equal, agrees.greater]
  rcases lt_trichotomy (value a) (value b) with below | same | above
  · simp [below, below.ne, below.not_gt]
  · simp [same]
  · simp [above, above.ne', above.not_gt]

end Comparison

section Cross

variable {K : Type} [Field K] [LinearOrder K] [IsStrictOrderedRing K] {a b c d : K}

/-- Cross products order the fractions if the denominators have the same sign. -/
theorem div_lt_div_iff_cross (h : 0 < b * d) : a / b < c / d ↔ a * d < c * b := by
  have nonzero := mul_ne_zero_iff.mp h.ne'
  have gap : c / d - a / b = (c * b - a * d) / (b * d) := by
    rw [div_sub_div _ _ nonzero.2 nonzero.1, mul_comm d b, mul_comm d a]
  rw [← sub_pos, gap, div_pos_iff_of_pos_right h, sub_pos]

/-- They turn the order around if the denominators have opposite signs. -/
theorem div_lt_div_iff_cross_of_neg (h : b * d < 0) : a / b < c / d ↔ c * b < a * d := by
  have turned := @div_lt_div_iff_cross K _ _ _ a b (-c) (-d) (by rw [mul_neg]; exact neg_pos.mpr h)
  rw [neg_div_neg_eq, mul_neg, neg_mul, neg_lt_neg_iff] at turned
  exact turned

end Cross
