import Mathlib.Data.Rat.Lemmas
import Hlib.Comparison
import Hlib.RatioConversion

namespace Hlib

/-- `Fraction<N, D>` with one type for both numbers. -/
structure Fraction (T : IntegralType) where
  n : Int
  d : Int
  insideN : T.Holds n
  insideD : T.Holds d

namespace Fraction

variable {T : IntegralType}

/-- The products `n * that.d` and `that.n * d` in a relation. -/
def compare (relation : Int → Int → Bool) (a that : Fraction T) : Option Bool := do
  let left ← T.promoted.multiply a.n that.d
  let right ← T.promoted.multiply that.n a.d
  some (relation left right)

/-- `operator ==`, `!=`, `<`, `<=`, `>` and `>=`. -/
def operators : Comparison (Fraction T) where
  equal := compare (· == ·)
  notEqual := compare (· != ·)
  less := compare (· < ·)
  lessEqual := compare (· ≤ ·)
  greater := compare (· > ·)
  greaterEqual := compare (· ≥ ·)

/-- The rational `n/d`. -/
def value (a : Fraction T) : ℚ := a.n / a.d

/-- The cross products do not overflow. -/
def Fits (a b : Fraction T) : Prop := T.promoted.Holds (a.n * b.d) ∧ T.promoted.Holds (b.n * a.d)

theorem compare_eq {a b : Fraction T} (fits : Fits a b) (relation : Int → Int → Bool) :
    compare relation a b = some (relation (a.n * b.d) (b.n * a.d)) := by
  unfold compare IntegralType.multiply
  rw [IntegralType.evaluated_eq fits.1, IntegralType.evaluated_eq fits.2]
  rfl

theorem value_eq_iff {a b : Fraction T} (given : a.d ≠ 0) (known : b.d ≠ 0) :
    a.value = b.value ↔ a.n * b.d = b.n * a.d := by
  unfold value
  rw [div_eq_div_iff (Int.cast_ne_zero.mpr given) (Int.cast_ne_zero.mpr known)]
  norm_cast

theorem value_lt_iff {a b : Fraction T} (same : 0 < a.d * b.d) :
    a.value < b.value ↔ a.n * b.d < b.n * a.d := by
  have signs : (0 : ℚ) < a.d * b.d := by exact_mod_cast same
  unfold value
  rw [div_lt_div_iff_cross signs]
  norm_cast

theorem value_lt_iff_of_neg {a b : Fraction T} (opposite : a.d * b.d < 0) :
    a.value < b.value ↔ b.n * a.d < a.n * b.d := by
  have signs : (a.d * b.d : ℚ) < 0 := by exact_mod_cast opposite
  unfold value
  rw [div_lt_div_iff_cross_of_neg signs]
  norm_cast

/-- With denominators of the same sign, every operator follows the rationals. -/
theorem agrees_of_pos {a b : Fraction T} (fits : Fits a b) (same : 0 < a.d * b.d) :
    operators.Agrees value a b := by
  have nonzero := mul_ne_zero_iff.mp same.ne'
  have reversed : 0 < b.d * a.d := by rwa [mul_comm]
  have eq := value_eq_iff nonzero.1 nonzero.2
  have lt := value_lt_iff same
  have gt := value_lt_iff reversed
  constructor
  case equal => simp only [operators, compare_eq fits, eq, beq_eq_decide]
  case notEqual => simp only [operators, compare_eq fits, Ne, eq, bne, beq_eq_decide, decide_not]
  case less => simp only [operators, compare_eq fits, lt]
  case lessEqual => simp only [operators, compare_eq fits, ← not_lt, gt]
  case greater => simp only [operators, compare_eq fits, gt_iff_lt, gt]
  case greaterEqual => simp only [operators, compare_eq fits, ge_iff_le, ← not_lt, lt]

/-- They also follow the rationals wherever these are equal. -/
theorem agrees_of_eq {a b : Fraction T} (fits : Fits a b) (given : a.d ≠ 0) (known : b.d ≠ 0)
    (same : a.value = b.value) : operators.Agrees value a b := by
  have cross := (value_eq_iff given known).mp same
  constructor <;> simp [operators, compare_eq fits, same, cross]

/-- `operator <` goes wrong on different rationals if the denominators have opposite signs. -/
theorem not_agrees {a b : Fraction T} (fits : Fits a b) (opposite : a.d * b.d < 0)
    (different : a.value ≠ b.value) : ¬ operators.Agrees value a b := by
  intro agrees
  have nonzero := mul_ne_zero_iff.mp opposite.ne
  have less := agrees.less
  have turned := value_lt_iff_of_neg opposite
  have unequal := mt (value_eq_iff nonzero.1 nonzero.2).mpr different
  simp only [operators, compare_eq fits, Option.some.injEq, decide_eq_decide] at less
  have swapped := less.trans turned
  omega

end Fraction

namespace RatioValue

variable {R : Ratio} {T : IntegralType}

/-- `operator ==`, `!=`, `<`, `<=`, `>` and `>=`; `>` compares with `>=`. -/
def operators : Comparison (RatioValue R T) where
  equal v that := some (that.value == v.value)
  notEqual v that := some (that.value != v.value)
  less v that := some (v.value < that.value)
  lessEqual v that := some (v.value ≤ that.value)
  greater v that := some (v.value ≥ that.value)
  greaterEqual v that := some (v.value ≥ that.value)

theorem agrees_of_ne {v w : RatioValue R T} (different : v.value ≠ w.value) :
    operators.Agrees RatioValue.value v w := by
  constructor
  case equal => simp [operators, different, different.symm]
  case notEqual => simp [operators, different, different.symm]
  case less => rfl
  case lessEqual => rfl
  case greater => simp [operators, different.symm.le_iff_lt]
  case greaterEqual => rfl

theorem not_agrees {v w : RatioValue R T} (same : v.value = w.value) :
    ¬ operators.Agrees RatioValue.value v w := by
  intro agrees
  have greater := agrees.greater
  simp [operators, same] at greater

end RatioValue

/-- Every operator follows the order of the values, and exactly one of less, equal and greater holds. -/
def FollowsOrder {α β : Type} [LinearOrder β] (c : Comparison α) (value : α → β) (a b : α) : Prop :=
  c.Agrees value a b ∧ c.Trichotomous a b

theorem followsOrder_iff {α β : Type} [LinearOrder β] {c : Comparison α} {value : α → β} {a b : α} :
    FollowsOrder c value a b ↔ c.Agrees value a b :=
  ⟨And.left, fun agrees => ⟨agrees, agrees.trichotomous⟩⟩

/-- Fractions compare right for denominators of one sign and for equal rationals, ratio values for different ones. -/
theorem comparisons_follow_iff {a b : Fraction .int64} (given : a.d ≠ 0) (known : b.d ≠ 0)
    (fits : Fraction.Fits a b) {R : Ratio} {T : IntegralType} (v w : RatioValue R T) :
    (FollowsOrder Fraction.operators Fraction.value a b ↔ 0 < a.d * b.d ∨ a.value = b.value) ∧
      (FollowsOrder RatioValue.operators RatioValue.value v w ↔ v.value ≠ w.value) := by
  simp only [followsOrder_iff]
  refine ⟨⟨?_, ?_⟩, ?_, RatioValue.agrees_of_ne⟩
  case refine_1 =>
    intro agrees
    by_contra wrong
    obtain ⟨signs, different⟩ := not_or.mp wrong
    have opposite : a.d * b.d < 0 := lt_of_le_of_ne (not_lt.mp signs) (mul_ne_zero given known)
    exact Fraction.not_agrees fits opposite different agrees
  case refine_2 =>
    rintro (same | equal)
    · exact Fraction.agrees_of_pos fits same
    · exact Fraction.agrees_of_eq fits given known equal
  case refine_3 => exact fun agrees same => RatioValue.not_agrees same agrees

def half : Fraction .int64 := ⟨1, 2, by decide, by decide⟩

def minusThird : Fraction .int64 := ⟨1, -3, by decide, by decide⟩

def kilos : RatioValue ⟨1000⟩ .int64 := ⟨5, by decide⟩

theorem comparisons_follow_iff_sample :
    (FollowsOrder Fraction.operators Fraction.value half minusThird ↔
        0 < half.d * minusThird.d ∨ half.value = minusThird.value) ∧
      (FollowsOrder RatioValue.operators RatioValue.value kilos kilos ↔ kilos.value ≠ kilos.value) :=
  comparisons_follow_iff (by decide) (by decide) (by unfold Fraction.Fits; decide) kilos kilos

/-- One half is less than minus a third, and five is greater than five. -/
theorem comparisons_fail :
    Fraction.operators.less half minusThird = some true ∧ minusThird.value < half.value ∧
      RatioValue.operators.greater kilos kilos = some true ∧ ¬ RatioValue.operators.Trichotomous kilos kilos ∧
      ¬ FollowsOrder Fraction.operators Fraction.value half minusThird ∧
      ¬ FollowsOrder RatioValue.operators RatioValue.value kilos kilos := by
  have above : minusThird.value < half.value := by
    unfold Fraction.value half minusThird
    norm_num
  have less : Fraction.operators.less half minusThird = some true := by decide
  have greater : ¬ RatioValue.operators.Trichotomous kilos kilos := by decide
  refine ⟨less, above, by decide, greater, fun follows => ?_, fun follows => greater follows.2⟩
  have right := follows.1.less
  rw [less, decide_eq_false above.not_gt] at right
  cases right

end Hlib
