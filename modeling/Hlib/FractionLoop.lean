import Hlib.Fraction

namespace Hlib.Fraction

open Loop Truncation

section Invariants

variable {sign integral : ℤ} {value tolerance bound : ℚ} {s t : Recurrence}

/-- The denominators are negative, and the fractions at most the value. -/
structure Behind (value : ℚ) (s : Recurrence) : Prop where
  negative : s.k < 0
  earlier : s.k1 < 0
  low : value * s.k ≤ s.h
  lowEarlier : value * s.k1 ≤ s.h1

/-- The denominators change their sign in each pass, and the fractions are at least the bound. -/
def Above (bound : ℚ) (s : Recurrence) : Prop :=
  (s.k < 0 ∧ 0 < s.k1 ∧ s.h ≤ bound * s.k ∧ bound * s.k1 ≤ s.h1) ∨
    (0 < s.k ∧ s.k1 < 0 ∧ bound * s.k ≤ s.h ∧ s.h1 ≤ bound * s.k1)

theorem Behind.goes (positive : 0 < tolerance) (behind : Behind value s)
    (h : toFractionPass sign integral value tolerance s = .ok (.inl t)) : Behind value t := by
  obtain ⟨_, _, rfl⟩ := toFractionPass_goes positive h
  obtain ⟨negative, earlier, low, lowEarlier⟩ := behind
  have below : (s.k : ℚ) < 0 := Int.cast_lt_zero.mpr negative
  have most : (s.h / s.k : ℚ) ≤ value := (div_le_iff_of_neg below).mpr low
  have up : 0 ≤ truncate (1 / (value - s.h / s.k)) :=
    truncate_nonneg (one_div_nonneg.mpr (sub_nonneg.mpr most))
  generalize truncate (1 / (value - s.h / s.k)) = a at up ⊢
  have upQ : (0 : ℚ) ≤ a := Int.cast_nonneg up
  constructor
  · have product := Int.mul_nonpos_of_nonneg_of_nonpos up negative.le
    show a * s.k + s.k1 < 0
    omega
  · exact negative
  · show value * ((a * s.k + s.k1 : ℤ) : ℚ) ≤ ((a * s.h + s.h1 : ℤ) : ℚ)
    have scaled := mul_le_mul_of_nonneg_left low upQ
    push_cast
    linarith
  · exact low

theorem Above.fraction (above : Above bound s) : s.k ≠ 0 ∧ bound ≤ s.h / s.k := by
  rcases above with ⟨negative, _, high, _⟩ | ⟨positive, _, high, _⟩
  · exact ⟨negative.ne, (le_div_iff_of_neg (Int.cast_lt_zero.mpr negative)).mpr high⟩
  · exact ⟨positive.ne', (le_div_iff₀ (Int.cast_pos.mpr positive)).mpr high⟩

theorem Above.goes (positive : 0 < tolerance) (above : Above (value + tolerance) s)
    (h : toFractionPass sign integral value tolerance s = .ok (.inl t)) : Above (value + tolerance) t := by
  obtain ⟨_, _, rfl⟩ := toFractionPass_goes positive h
  have high := above.fraction.2
  have down : truncate (1 / (value - s.h / s.k)) ≤ 0 :=
    truncate_nonpos (one_div_nonpos.mpr (by linarith))
  generalize truncate (1 / (value - s.h / s.k)) = a at down ⊢
  have downQ : (a : ℚ) ≤ 0 := Int.cast_nonpos.mpr down
  rcases above with ⟨negative, earlier, beyond, beyondEarlier⟩ | ⟨positive, earlier, beyond, beyondEarlier⟩
  · right
    have product := Int.mul_nonneg_of_nonpos_of_nonpos down negative.le
    have scaled := mul_le_mul_of_nonpos_left beyond downQ
    refine ⟨?_, negative, ?_, beyond⟩
    · show 0 < a * s.k + s.k1
      omega
    · show (value + tolerance) * ((a * s.k + s.k1 : ℤ) : ℚ) ≤ ((a * s.h + s.h1 : ℤ) : ℚ)
      push_cast
      linarith
  · left
    have product := Int.mul_nonpos_of_nonpos_of_nonneg down positive.le
    have scaled := mul_le_mul_of_nonpos_left beyond downQ
    refine ⟨?_, positive, ?_, beyond⟩
    · show a * s.k + s.k1 < 0
      omega
    · show ((a * s.h + s.h1 : ℤ) : ℚ) ≤ (value + tolerance) * ((a * s.k + s.k1 : ℤ) : ℚ)
      push_cast
      linarith

/-- A loop whose fractions stay above the value and its tolerance is never left. -/
theorem Above.never (positive : 0 < tolerance) (above : Above (value + tolerance) s) (result : ℤ × ℤ) :
    ¬Returns (toFractionPass sign integral value tolerance) s result := by
  intro returned
  obtain ⟨t, later, left⟩ := returned.invariant (Above (value + tolerance)) above
    fun s t above goes => above.goes positive goes
  obtain ⟨_, near, _⟩ := toFractionPass_leaves positive left
  have high := later.fraction.2
  have low := (abs_lt.mp near).1
  linarith

end Invariants

section UnitFractions

variable {x : ℚ}

/-- The unit fraction next above a number. -/
theorem unitFraction (hx : 0 < x) (small : x ≤ 1) :
    1 ≤ ⌊1 / x⌋ ∧ ⌊1 / x⌋ * x ≤ 1 ∧ 1 < (⌊1 / x⌋ + 1) * x := by
  have low := Int.floor_le (1 / x)
  have high := Int.lt_floor_add_one (1 / x)
  refine ⟨?_, (le_div_iff₀ hx).mp low, (div_lt_iff₀ hx).mp high⟩
  rw [Int.le_floor, Int.cast_one]
  exact (one_le_div hx).mpr small

/-- It is so near that the reciprocal of the difference is at least two. -/
theorem unitFraction_gap {m : ℤ} (given : 1 ≤ m) (above : 1 < (m + 1) * x) (gap : 0 < 1 / (m : ℚ) - x) :
    2 ≤ ⌊1 / (1 / (m : ℚ) - x)⌋ := by
  have positive : (1 : ℚ) ≤ m := by exact_mod_cast given
  have scaled : (m : ℚ) * (1 / m) = 1 := mul_one_div_cancel (by linarith)
  have most : (m : ℚ) * 1 ≤ m * ((m + 1) * x) := mul_le_mul_of_nonneg_left above.le (by linarith)
  have square : (1 : ℚ) * 2 ≤ m * (m + 1) := mul_le_mul positive (by linarith) (by linarith) (by linarith)
  rw [Int.le_floor, le_div_iff₀ gap]
  push_cast
  calc
    (2 : ℚ) * (1 / m - x) ≤ m * (m + 1) * (1 / m - x) := mul_le_mul_of_nonneg_right (by linarith) gap.le
    _ = (m + 1) * (m * (1 / m)) - m * ((m + 1) * x) := by ring
    _ ≤ 1 := by
      rw [scaled]
      linarith

end UnitFractions

section Starts

variable {sign integral : ℤ} {value tolerance : ℚ}

/-- What the loop begins with. -/
theorem start_fields (integral : ℤ) :
    (⟨integral, 1, 0, 0, 1⟩ : Recurrence).h = integral ∧ (⟨integral, 1, 0, 0, 1⟩ : Recurrence).k = 1 := by
  constructor
  · show integral * 1 + 0 = integral
    omega
  · show integral * 0 + 1 = 1
    omega

/-- From 2 on, the second pass divides by zero. -/
theorem whole_faults (positive : 0 < tolerance) (apart : tolerance ≤ value) (proper : value < 1)
    (large : 2 ≤ integral) (result : ℤ × ℤ) :
    ¬Returns (toFractionPass sign integral value tolerance) ⟨integral, 1, 0, 0, 1⟩ result := by
  obtain ⟨h, k⟩ := start_fields integral
  have largeQ : (2 : ℚ) ≤ integral := by exact_mod_cast large
  have ratio : value - (integral : ℚ) / (1 : ℤ) = -(integral - value) := by
    push_cast
    ring
  have distance : |value - (integral : ℚ) / (1 : ℤ)| = integral - value := by
    rw [ratio, abs_neg, abs_of_nonneg (by linarith)]
  have goes := @toFractionPass_far sign integral value tolerance ⟨integral, 1, 0, 0, 1⟩
    (by omega) (by rw [h, k, distance]; linarith) positive
  have unit : ⌊1 / (integral - value : ℚ)⌋ = 0 := by
    rw [Int.floor_eq_zero_iff, Set.mem_Ico]
    exact ⟨one_div_nonneg.mpr (by linarith), (div_lt_one (by linarith)).mpr (by linarith)⟩
  have zero : truncate (1 / (value - (integral : ℚ) / (1 : ℤ))) = 0 := by
    rw [ratio, one_div_neg_eq_neg_one_div, truncate_neg,
      truncate_of_nonneg (one_div_nonneg.mpr (by linarith)), unit]
    rfl
  rw [h, k, zero] at goes
  rw [returns_goes goes]
  exact not_returns (toFractionPass_zero rfl) result

/-- Below 1, the second pass tries the unit fraction above the value. -/
theorem proper_goes (positive : 0 < tolerance) (apart : tolerance ≤ value) :
    toFractionPass sign 0 value tolerance ⟨0, 1, 0, 0, 1⟩ = .ok (.inl ⟨⌊1 / value⌋, 0, 1, 1, 0⟩) := by
  obtain ⟨h, k⟩ := start_fields 0
  have given : 0 ≤ value := by linarith
  have ratio : value - ((0 : ℤ) : ℚ) / (1 : ℤ) = value := by
    push_cast
    ring
  have goes := @toFractionPass_far sign 0 value tolerance ⟨0, 1, 0, 0, 1⟩
    (by omega) (by rw [h, k, ratio, abs_of_nonneg given]; exact apart) positive
  rw [goes, h, k, ratio, truncate_of_nonneg (one_div_nonneg.mpr given)]

/-- Behind a unit fraction that is too far away, the fractions stay above it. -/
theorem above_unitFraction (positive : 0 < tolerance) {m : ℤ} (given : 1 ≤ m) (above : 1 < (m + 1) * value)
    (far : tolerance ≤ 1 / m - value) (proper : 0 < value) :
    Above (value + tolerance) ⟨truncate (1 / (value - 1 / m)), 1, 0, m, 1⟩ := by
  have mPositive : (1 : ℚ) ≤ m := by exact_mod_cast given
  have gap : (0 : ℚ) < 1 / m - value := by linarith
  have turned : 1 / (value - 1 / m) = -(1 / (1 / (m : ℚ) - value)) := by
    rw [← one_div_neg_eq_neg_one_div, neg_sub]
  have large := unitFraction_gap given above gap
  have whole : truncate (1 / (value - 1 / m)) = -⌊1 / (1 / (m : ℚ) - value)⌋ := by
    rw [turned, truncate_neg, truncate_of_nonneg (one_div_nonneg.mpr gap.le)]
  have bound : (value + tolerance) * m ≤ 1 := (le_div_iff₀ (by linarith)).mp (by linarith)
  rw [whole]
  generalize ⌊1 / (1 / (m : ℚ) - value)⌋ = a at large ⊢
  have atLeast : a ≤ a * m := le_mul_of_one_le_right (by omega) given
  have aPositive : (2 : ℚ) ≤ a := by exact_mod_cast large
  have k : (⟨-a, 1, 0, m, 1⟩ : Recurrence).k = -(a * m) + 1 := by
    show -a * m + 1 = _
    rw [Int.neg_mul]
  have h : (⟨-a, 1, 0, m, 1⟩ : Recurrence).h = -a := by
    show -a * 1 + 0 = _
    omega
  left
  rw [h, k]
  refine ⟨by omega, lt_of_lt_of_le one_pos given, ?_, ?_⟩
  · have scaled := mul_le_mul_of_nonneg_left bound (by linarith : (0 : ℚ) ≤ a)
    push_cast
    linarith
  · rw [Int.cast_one]
    exact bound

theorem proper_returns (positive : 0 < tolerance) (apart : tolerance ≤ value) (proper : value < 1)
    {original : ℚ} (given : original = sign * ((0 : ℤ) + value)) (unit : |(sign : ℚ)| = 1) :
    (∃ num den, Returns (toFractionPass sign 0 value tolerance) ⟨0, 1, 0, 0, 1⟩ (num, den) ∧
        Approximates original tolerance num den) ↔
      1 / ⌊1 / value⌋ - value < tolerance := by
  have valuePositive : 0 < value := by linarith
  obtain ⟨least, below, above⟩ := unitFraction valuePositive proper.le
  simp only [returns_goes (proper_goes positive apart)]
  generalize ⌊1 / value⌋ = m at least below above ⊢
  have mPositive : (1 : ℚ) ≤ m := by exact_mod_cast least
  have h : (⟨m, 0, 1, 1, 0⟩ : Recurrence).h = 1 := by
    show m * 0 + 1 = 1
    omega
  have k : (⟨m, 0, 1, 1, 0⟩ : Recurrence).k = m := by
    show m * 1 + 0 = m
    omega
  have order : value ≤ 1 / m := by
    rw [le_div_iff₀ (by linarith)]
    linarith
  have distance : |value - ((⟨m, 0, 1, 1, 0⟩ : Recurrence).h : ℚ) / (⟨m, 0, 1, 1, 0⟩ : Recurrence).k| =
      1 / m - value := by
    rw [h, k, Int.cast_one, abs_sub_comm, abs_of_nonneg (by linarith)]
  constructor
  · rintro ⟨num, den, returned, -⟩
    by_contra far
    have goes := @toFractionPass_far sign 0 value tolerance ⟨m, 0, 1, 1, 0⟩
      (by omega) (by rw [distance]; exact not_lt.mp far) positive
    rw [h, k, Int.cast_one] at goes
    rw [returns_goes goes] at returned
    exact (above_unitFraction positive least above (not_lt.mp far) valuePositive).never positive _ returned
  · intro near
    have leaves := @toFractionPass_near sign 0 value tolerance ⟨m, 0, 1, 1, 0⟩
      (by omega) (by rw [distance]; exact near)
    exact ⟨_, _, returns_leaves leaves, leaves_approximates positive given unit (by omega) leaves⟩

/-- Behind the fraction at most the value that is a unit fraction away from 1, the denominators stay
negative. -/
theorem behind_unitFraction {m : ℤ} (proper : value < 1) (given : 1 ≤ m) (below : m * (1 - value) ≤ 1)
    (above : 1 < (m + 1) * (1 - value)) (gap : 0 < value - ((1 - m : ℤ) : ℚ) / (-m : ℤ)) :
    Behind value ⟨truncate (1 / (value - ((1 - m : ℤ) : ℚ) / (-m : ℤ))), 1 - m, 1, -m, 1⟩ := by
  have mPositive : (1 : ℚ) ≤ m := by exact_mod_cast given
  have ratio : value - ((1 - m : ℤ) : ℚ) / (-m : ℤ) = 1 / m - (1 - value) := by
    have nonzero : (m : ℚ) ≠ 0 := by linarith
    push_cast
    field_simp
    ring
  rw [ratio] at gap ⊢
  have large := unitFraction_gap given above gap
  have order : (m : ℚ) * (1 / m - (1 - value)) = 1 - m * (1 - value) := by
    rw [mul_sub, mul_one_div_cancel (by linarith)]
  have room := mul_pos (by linarith : (0 : ℚ) < m) gap
  rw [truncate_of_nonneg (one_div_nonneg.mpr gap.le)]
  generalize ⌊1 / (1 / (m : ℚ) - (1 - value))⌋ = a at large ⊢
  have atLeast : a ≤ a * m := le_mul_of_one_le_right (by omega) given
  have aPositive : (2 : ℚ) ≤ a := by exact_mod_cast large
  have k : (⟨a, 1 - m, 1, -m, 1⟩ : Recurrence).k = -(a * m) + 1 := by
    show a * -m + 1 = _
    rw [Int.mul_neg]
  have h : (⟨a, 1 - m, 1, -m, 1⟩ : Recurrence).h = a * (1 - m) + 1 := rfl
  constructor
  · rw [k]
    omega
  · show -m < 0
    omega
  · have scaled := mul_le_mul_of_nonneg_left below (by linarith : (0 : ℚ) ≤ a)
    rw [h, k]
    push_cast
    linarith
  · show value * ((-m : ℤ) : ℚ) ≤ ((1 - m : ℤ) : ℚ)
    push_cast
    linarith

/-- From 1 up to 2, if the first pass goes on, what is returned has a negative denominator. -/
theorem improper_negative (positive : 0 < tolerance) (proper : value < 1) {m : ℤ} (least : 1 ≤ m)
    (below : m * (1 - value) ≤ 1) (above : 1 < (m + 1) * (1 - value)) {num den : ℤ}
    (returned : Returns (toFractionPass sign integral value tolerance) ⟨-m, 1, 1, 1, 0⟩ (num, den)) :
    den < 0 := by
  have mPositive : (1 : ℚ) ≤ m := by exact_mod_cast least
  have h : (⟨-m, 1, 1, 1, 0⟩ : Recurrence).h = 1 - m := by
    show -m * 1 + 1 = 1 - m
    omega
  have k : (⟨-m, 1, 1, 1, 0⟩ : Recurrence).k = -m := by
    show -m * 1 + 0 = -m
    omega
  have order : ((1 - m : ℤ) : ℚ) / (-m : ℤ) ≤ value := by
    rw [div_le_iff_of_neg (Int.cast_lt_zero.mpr (by omega))]
    push_cast
    linarith
  obtain ⟨s, good, left⟩ := returned.invariant (fun s => s = ⟨-m, 1, 1, 1, 0⟩ ∨ Behind value s) (.inl rfl) (by
    rintro s t (rfl | behind) goes
    · obtain ⟨_, far, rfl⟩ := toFractionPass_goes positive goes
      rw [h, k] at far ⊢
      rw [abs_of_nonneg (by linarith)] at far
      exact .inr (behind_unitFraction proper least below above (by linarith))
    · exact .inr (behind.goes positive goes))
  rcases good with rfl | behind
  · exact leaves_negative positive (by omega) left
  · exact leaves_negative positive behind.negative left

theorem improper_returns (positive : 0 < tolerance) (apart : tolerance ≤ value) (proper : value < 1)
    {original : ℚ} (given : original = sign * ((1 : ℤ) + value)) (unit : |(sign : ℚ)| = 1) :
    (∃ num den, Returns (toFractionPass sign 1 value tolerance) ⟨1, 1, 0, 0, 1⟩ (num, den) ∧
        Approximates original tolerance num den) ↔
      1 - value < tolerance := by
  obtain ⟨h, k⟩ := start_fields 1
  have ratio : value - ((1 : ℤ) : ℚ) / (1 : ℤ) = -(1 - value) := by
    push_cast
    ring
  have distance : |value - ((1 : ℤ) : ℚ) / (1 : ℤ)| = 1 - value := by
    rw [ratio, abs_neg, abs_of_nonneg (by linarith)]
  constructor
  · rintro ⟨num, den, returned, approximates⟩
    by_contra far
    have room : (0 : ℚ) < 1 - value := by linarith
    obtain ⟨least, below, above⟩ := unitFraction room (by linarith)
    have goes := @toFractionPass_far sign 1 value tolerance ⟨1, 1, 0, 0, 1⟩
      (by omega) (by rw [h, k, distance]; exact not_lt.mp far) positive
    have first : truncate (1 / (value - ((1 : ℤ) : ℚ) / (1 : ℤ))) = -⌊1 / (1 - value)⌋ := by
      rw [ratio, one_div_neg_eq_neg_one_div, truncate_neg,
        truncate_of_nonneg (one_div_nonneg.mpr room.le)]
    rw [h, k, first] at goes
    rw [returns_goes goes] at returned
    generalize ⌊1 / (1 - value)⌋ = m at least below above returned
    have negative := improper_negative positive proper least below above returned
    have := approximates.positive
    omega
  · intro near
    have leaves := @toFractionPass_near sign 1 value tolerance ⟨1, 1, 0, 0, 1⟩
      (by omega) (by rw [h, k, distance]; exact near)
    exact ⟨_, _, returns_leaves leaves, leaves_approximates positive given unit (by omega) leaves⟩

end Starts

theorem sign_spec (value : ℚ) :
    value = ((if value < 0 then -1 else 1 : ℤ) : ℚ) * |value| ∧
      |((if value < 0 then -1 else 1 : ℤ) : ℚ)| = 1 := by
  split
  next negative =>
    rw [abs_of_neg negative]
    constructor
    · push_cast
      ring
    · simp
  next nonneg =>
    rw [abs_of_nonneg (not_lt.mp nonneg)]
    constructor
    · push_cast
      ring
    · simp

/-- The value is its own approximation, without what is behind the point. -/
theorem whole_approximates {value tolerance : ℚ} (near : Int.fract |value| < tolerance) :
    Approximates value tolerance (⌊|value|⌋ * if value < 0 then -1 else 1) 1 := by
  obtain ⟨given, unit⟩ := sign_spec value
  refine ⟨one_pos, Int.gcd_one_right _, ?_⟩
  generalize (if value < 0 then -1 else 1 : ℤ) = sign at given unit ⊢
  have apart : ((⌊|value|⌋ * sign : ℤ) : ℚ) / (1 : ℤ) - value = sign * -Int.fract |value| := by
    calc
      ((⌊|value|⌋ * sign : ℤ) : ℚ) / (1 : ℤ) - value = ⌊|value|⌋ * sign - sign * |value| := by
        rw [← given]
        push_cast
        ring
      _ = sign * -Int.fract |value| := by
        rw [← Int.self_sub_floor]
        ring
  rw [apart, abs_mul, unit, one_mul, abs_neg, abs_of_nonneg (Int.fract_nonneg _)]
  exact near.le

/-- What the loop returns, for any fuel that is enough. -/
theorem toFraction_loop {value tolerance : ℚ} (apart : tolerance ≤ Int.fract |value|) {num den : ℤ} :
    (∃ fuel, toFraction fuel value tolerance = .ok (some (num, den))) ↔
      Returns (toFractionPass (if value < 0 then -1 else 1) ⌊|value|⌋ (Int.fract |value|) tolerance)
        ⟨⌊|value|⌋, 1, 0, 0, 1⟩ (num, den) := by
  rw [returns_iff_run]
  apply exists_congr
  intro fuel
  unfold toFraction
  simp only
  rw [truncate_of_nonneg (abs_nonneg value), Int.self_sub_floor, if_neg (not_lt.mpr apart)]

theorem converges_iff (value tolerance : ℚ) (positive : 0 < tolerance) :
    Converges value tolerance ↔ Simple value tolerance := by
  rcases lt_or_ge (Int.fract |value|) tolerance with near | apart
  · refine iff_of_true ⟨0, _, _, ?_, whole_approximates near⟩ (.inl near)
    unfold toFraction
    simp only
    rw [truncate_of_nonneg (abs_nonneg value), Int.self_sub_floor, if_pos near]
  · obtain ⟨given, unit⟩ := sign_spec value
    have original := given
    rw [← Int.floor_add_fract |value|] at original
    have proper := Int.fract_lt_one |value|
    have least : 0 ≤ ⌊|value|⌋ := Int.floor_nonneg.mpr (abs_nonneg value)
    have loop : Converges value tolerance ↔ ∃ num den,
        Returns (toFractionPass (if value < 0 then -1 else 1) ⌊|value|⌋ (Int.fract |value|) tolerance)
          ⟨⌊|value|⌋, 1, 0, 0, 1⟩ (num, den) ∧ Approximates value tolerance num den := by
      simp only [← toFraction_loop apart]
      constructor
      · exact fun ⟨fuel, num, den, returned, near⟩ => ⟨num, den, ⟨fuel, returned⟩, near⟩
      · exact fun ⟨num, den, ⟨fuel, returned⟩, near⟩ => ⟨fuel, num, den, returned, near⟩
    rw [loop]
    unfold Simple
    rw [or_iff_right (not_lt.mpr apart)]
    rcases (by omega : ⌊|value|⌋ = 0 ∨ ⌊|value|⌋ = 1 ∨ 2 ≤ ⌊|value|⌋) with zero | one | large
    · rw [zero] at original ⊢
      rw [proper_returns positive apart proper original unit]
      simp
    · rw [one] at original ⊢
      rw [improper_returns positive apart proper original unit]
      simp
    · refine iff_of_false ?_ ?_
      · rintro ⟨num, den, returned, _⟩
        exact whole_faults positive apart proper large _ returned
      · rintro (⟨one, _⟩ | ⟨zero, _⟩)
        · omega
        · omega

theorem converges_iff_sample : Converges (-1 / 3) (1 / 1000000) :=
  (converges_iff (-1 / 3) (1 / 1000000) (by decide +kernel)).mpr
    (.inr (.inr ⟨by decide +kernel, by decide +kernel⟩))

/-- The second pass divides 1 by 0, and the loop does not return. -/
theorem five_halves : toFraction 2 (5 / 2) (1 / 1000000) = .error .byZero ∧
    ¬Converges (5 / 2) (1 / 1000000) := by
  refine ⟨by decide +kernel, ?_⟩
  rintro ⟨fuel, num, den, returned, _⟩
  have apart : (1 / 1000000 : ℚ) ≤ Int.fract |5 / 2| := by decide +kernel
  exact whole_faults (by decide +kernel) apart (Int.fract_lt_one _) (by decide +kernel) _
    ((toFraction_loop apart).mp ⟨fuel, returned⟩)

end Hlib.Fraction
