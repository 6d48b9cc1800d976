import Hlib.Loop
import Hlib.Truncation
import Mathlib.Tactic.Linarith
import Mathlib.Tactic.FieldSimp
import Mathlib.Tactic.Ring

namespace Hlib.Fraction

open Loop Truncation

inductive DivisionFault
  | byZero
  deriving DecidableEq, Repr

def divide (x y : ℚ) : Except DivisionFault ℚ := if y = 0 then .error .byZero else .ok (x / y)

def divideInt (x y : ℤ) : Except DivisionFault ℤ := if y = 0 then .error .byZero else .ok (x.tdiv y)

/-- The variables of the loop in `detail::to_fraction`. -/
structure Recurrence where
  a : ℤ
  h1 : ℤ
  h2 : ℤ
  k1 : ℤ
  k2 : ℤ
  deriving DecidableEq, Repr

namespace Recurrence

def h (s : Recurrence) : ℤ := s.a * s.h1 + s.h2

def k (s : Recurrence) : ℤ := s.a * s.k1 + s.k2

end Recurrence

/-- A pass of the loop. -/
def toFractionPass (sign integral : ℤ) (value tolerance : ℚ) : Body Recurrence (ℤ × ℤ) DivisionFault := fun s => do
  let ratio ← divide s.h s.k
  if |value - ratio| < tolerance then
    let commonFactor : ℤ := Int.gcd ((integral * s.k + s.h) * sign) s.k
    let num ← divideInt ((integral * s.k + s.h) * sign) commonFactor
    let den ← divideInt s.k commonFactor
    .ok (.inr (num, den))
  else
    let inverse ← divide 1 (value - ratio)
    .ok (.inl { a := truncate inverse, h1 := s.h, h2 := s.h1, k1 := s.k, k2 := s.k1 })

/-- `detail::to_fraction`, `none` if there is too little fuel. -/
def toFraction (fuel : ℕ) (value tolerance : ℚ) : Except DivisionFault (Option (ℤ × ℤ)) :=
  let sign : ℤ := if value < 0 then -1 else 1
  let integral := truncate |value|
  let rest := |value| - integral
  if rest < tolerance then .ok (some (integral * sign, 1))
  else run (toFractionPass sign integral rest tolerance) fuel ⟨integral, 1, 0, 0, 1⟩

/-- A reduced fraction near the value. -/
structure Approximates (value tolerance : ℚ) (num den : ℤ) : Prop where
  positive : 0 < den
  reduced : Int.gcd num den = 1
  near : |num / den - value| ≤ tolerance

/-- It terminates, and gives a reduced fraction near the value. -/
def Converges (value tolerance : ℚ) : Prop :=
  ∃ fuel num den, toFraction fuel value tolerance = .ok (some (num, den)) ∧ Approximates value tolerance num den

/-- The value is near its whole part, from 1 up to 2 near 2, or below 1 near the unit fraction above it. -/
def Simple (value tolerance : ℚ) : Prop :=
  Int.fract |value| < tolerance ∨
    ⌊|value|⌋ = 1 ∧ 1 - Int.fract |value| < tolerance ∨
    ⌊|value|⌋ = 0 ∧ 1 / ⌊1 / Int.fract |value|⌋ - Int.fract |value| < tolerance

section Passes

variable {sign integral : ℤ} {value tolerance : ℚ} {s t : Recurrence}

theorem toFractionPass_zero (zero : s.k = 0) :
    toFractionPass sign integral value tolerance s = .error .byZero := by
  have undefined_ : divide s.h s.k = .error .byZero := by
    rw [zero]
    rfl
  rw [toFractionPass, undefined_]
  rfl

theorem toFractionPass_near (given : s.k ≠ 0) (near : |value - s.h / s.k| < tolerance) :
    toFractionPass sign integral value tolerance s =
      .ok (.inr (((integral * s.k + s.h) * sign).tdiv (Int.gcd ((integral * s.k + s.h) * sign) s.k),
        s.k.tdiv (Int.gcd ((integral * s.k + s.h) * sign) s.k))) := by
  have ratio : divide s.h s.k = .ok (s.h / s.k) := if_neg (Int.cast_ne_zero.mpr given)
  have common : (Int.gcd ((integral * s.k + s.h) * sign) s.k : ℤ) ≠ 0 := by
    rw [Int.natCast_ne_zero]
    exact Int.gcd_ne_zero_right given
  have whole (x : ℤ) : divideInt x (Int.gcd ((integral * s.k + s.h) * sign) s.k) = .ok (x.tdiv _) :=
    if_neg common
  rw [toFractionPass, ratio]
  show (if |value - s.h / s.k| < tolerance then _ else _) = _
  rw [if_pos near]
  show (divideInt _ _ >>= fun num => divideInt _ _ >>= fun den => _) = _
  rw [whole, whole]
  rfl

theorem toFractionPass_far (given : s.k ≠ 0) (far : tolerance ≤ |value - s.h / s.k|)
    (positive : 0 < tolerance) :
    toFractionPass sign integral value tolerance s =
      .ok (.inl ⟨truncate (1 / (value - s.h / s.k)), s.h, s.h1, s.k, s.k1⟩) := by
  have ratio : divide s.h s.k = .ok (s.h / s.k) := if_neg (Int.cast_ne_zero.mpr given)
  have apart : value - s.h / s.k ≠ 0 := abs_pos.mp (positive.trans_le far)
  have inverse : divide 1 (value - s.h / s.k) = .ok (1 / (value - s.h / s.k)) := if_neg apart
  rw [toFractionPass, ratio]
  show (if |value - s.h / s.k| < tolerance then _ else _) = _
  rw [if_neg (not_lt.mpr far)]
  show (divide _ _ >>= fun inverse => _) = _
  rw [inverse]
  rfl

/-- What a pass can do: it divides by zero, leaves near the value, or goes on away from it. -/
theorem toFractionPass_cases (sign integral : ℤ) (value : ℚ) (s : Recurrence) (positive : 0 < tolerance) :
    s.k = 0 ∧ toFractionPass sign integral value tolerance s = .error .byZero ∨
      s.k ≠ 0 ∧ |value - s.h / s.k| < tolerance ∧
        toFractionPass sign integral value tolerance s =
          .ok (.inr (((integral * s.k + s.h) * sign).tdiv (Int.gcd ((integral * s.k + s.h) * sign) s.k),
            s.k.tdiv (Int.gcd ((integral * s.k + s.h) * sign) s.k))) ∨
      s.k ≠ 0 ∧ tolerance ≤ |value - s.h / s.k| ∧
        toFractionPass sign integral value tolerance s =
          .ok (.inl ⟨truncate (1 / (value - s.h / s.k)), s.h, s.h1, s.k, s.k1⟩) := by
  by_cases zero : s.k = 0
  · exact .inl ⟨zero, toFractionPass_zero zero⟩
  · rcases lt_or_ge |value - s.h / s.k| tolerance with near | far
    · exact .inr (.inl ⟨zero, near, toFractionPass_near zero near⟩)
    · exact .inr (.inr ⟨zero, far, toFractionPass_far zero far positive⟩)

/-- A pass that goes on is away from the value, by a fraction that it gives to the next one. -/
theorem toFractionPass_goes (positive : 0 < tolerance)
    (h : toFractionPass sign integral value tolerance s = .ok (.inl t)) :
    s.k ≠ 0 ∧ tolerance ≤ |value - s.h / s.k| ∧
      t = ⟨truncate (1 / (value - s.h / s.k)), s.h, s.h1, s.k, s.k1⟩ := by
  rcases toFractionPass_cases sign integral value s positive with
    ⟨-, pass⟩ | ⟨-, -, pass⟩ | ⟨given, far, pass⟩ <;> cases pass.symm.trans h
  exact ⟨given, far, rfl⟩

theorem toFractionPass_leaves (positive : 0 < tolerance) {num den : ℤ}
    (h : toFractionPass sign integral value tolerance s = .ok (.inr (num, den))) :
    s.k ≠ 0 ∧ |value - s.h / s.k| < tolerance ∧
      num = ((integral * s.k + s.h) * sign).tdiv (Int.gcd ((integral * s.k + s.h) * sign) s.k) ∧
      den = s.k.tdiv (Int.gcd ((integral * s.k + s.h) * sign) s.k) := by
  rcases toFractionPass_cases sign integral value s positive with
    ⟨-, pass⟩ | ⟨given, near, pass⟩ | ⟨-, -, pass⟩ <;> cases pass.symm.trans h
  exact ⟨given, near, rfl, rfl⟩

/-- A negative denominator stays negative in what is returned. -/
theorem leaves_negative (positive : 0 < tolerance) {num den : ℤ} (negative : s.k < 0)
    (h : toFractionPass sign integral value tolerance s = .ok (.inr (num, den))) : den < 0 := by
  obtain ⟨_, _, _, rfl⟩ := toFractionPass_leaves positive h
  have common : (0 : ℤ) < Int.gcd ((integral * s.k + s.h) * sign) s.k :=
    Int.natCast_pos.mpr (Int.gcd_pos_of_ne_zero_right _ negative.ne)
  have whole := Int.tdiv_mul_cancel (Int.gcd_dvd_right ((integral * s.k + s.h) * sign) s.k)
  by_contra up
  have product := Int.mul_nonneg (not_lt.mp up) common.le
  omega

/-- With a positive denominator, what is returned is a reduced fraction near the value. -/
theorem leaves_approximates {original : ℚ} {num den : ℤ} (positive : 0 < tolerance)
    (given : original = sign * (integral + value)) (unit : |(sign : ℚ)| = 1) (up : 0 < s.k)
    (h : toFractionPass sign integral value tolerance s = .ok (.inr (num, den))) :
    Approximates original tolerance num den := by
  obtain ⟨_, near, hnum, hden⟩ := toFractionPass_leaves positive h
  have common : 0 < Int.gcd ((integral * s.k + s.h) * sign) s.k := Int.gcd_pos_of_ne_zero_right _ up.ne'
  have wholeNum := Int.tdiv_mul_cancel (Int.gcd_dvd_left ((integral * s.k + s.h) * sign) s.k)
  have wholeDen := Int.tdiv_mul_cancel (Int.gcd_dvd_right ((integral * s.k + s.h) * sign) s.k)
  have exactNum := Int.tdiv_eq_ediv_of_dvd (Int.gcd_dvd_left ((integral * s.k + s.h) * sign) s.k)
  have exactDen := Int.tdiv_eq_ediv_of_dvd (Int.gcd_dvd_right ((integral * s.k + s.h) * sign) s.k)
  rw [← hnum] at wholeNum exactNum
  rw [← hden] at wholeDen exactDen
  refine ⟨?_, ?_, ?_⟩
  · by_contra down
    have product := Int.mul_nonpos_of_nonpos_of_nonneg (not_lt.mp down) (Int.natCast_nonneg
      (Int.gcd ((integral * s.k + s.h) * sign) s.k))
    omega
  · rw [exactNum, exactDen]
    exact Int.gcd_ediv_gcd_ediv_gcd common
  · have factor : ((Int.gcd ((integral * s.k + s.h) * sign) s.k : ℤ) : ℚ) ≠ 0 :=
      Int.cast_ne_zero.mpr (Int.natCast_ne_zero.mpr common.ne')
    have below : (s.k : ℚ) ≠ 0 := Int.cast_ne_zero.mpr up.ne'
    have quotient : (num / den : ℚ) = sign * (integral + s.h / s.k) := by
      rw [← mul_div_mul_right _ _ factor, ← Int.cast_mul, ← Int.cast_mul, wholeNum, wholeDen]
      push_cast
      field_simp
    have apart : (num / den - original : ℚ) = sign * -(value - s.h / s.k) := by
      rw [quotient, given]
      ring
    rw [apart, abs_mul, unit, one_mul, abs_neg]
    exact near.le

end Passes

end Hlib.Fraction
