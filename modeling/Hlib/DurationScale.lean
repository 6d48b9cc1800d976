import Hlib.DurationArithmetic
import Hlib.Truncation
import Mathlib.Tactic.Linarith
import Mathlib.Tactic.FieldSimp
import Mathlib.Tactic.Positivity

namespace Hlib

open Truncation

/-- `static_cast` of a `double`, taken to be a rational number, to a signed type of 64 bits. -/
def toInt64 (q : ℚ) : Option Int := int64 (truncate q)

/-- `timespec_multiply(lhs, that)`. -/
def timespecMultiply (lhs : Int × Int) (that : ℚ) : Option (Int × Int) := do
  let nsec : ℚ := lhs.2 * that
  let carry : ℚ := ⌊nsec / 1000000000⌋
  let factor ← toInt64 that
  let scaled ← int64 (lhs.1 * factor)
  let carried ← toInt64 carry
  let sec ← int64 (scaled + carried)
  let rest ← toInt64 (nsec - carry * 1000000000)
  some (sec, rest)

/-- `timespec_divide(lhs, that)`; a quotient by zero is not a number that could be cast. -/
def timespecDivide (lhs : Int × Int) (that : ℚ) : Option (Int × Int) :=
  if that = 0 then none
  else do
    -- The nanoseconds are divided as integers.
    let totalSecs ← int64 (lhs.1 + lhs.2.tdiv 1000000000)
    let dividedSecs : ℚ := totalSecs / that
    let sec ← toInt64 dividedSecs
    let nsec ← toInt64 ((dividedSecs - sec) * 1000000000)
    some (sec, nsec)

namespace Duration

/-- `operator *`. -/
def multiply (d : Duration) (that : ℚ) : Option Duration := (timespecMultiply d.ts that).map ofTs

/-- `operator /`. -/
def divide (d : Duration) (that : ℚ) : Option Duration := (timespecDivide d.ts that).map ofTs

/-- A normalised duration less than a nanosecond from a length. -/
def Near (result : Option Duration) (length : ℚ) : Prop :=
  ∃ d, result = some d ∧ Normalised d.ts ∧ |(d.nanoseconds : ℚ) - length| < 1

structure Scales (d : Duration) (k : ℚ) : Prop where
  multiply : 0 ≤ k → Near (d.multiply k) (d.nanoseconds * k)
  divide : 0 < k → Near (d.divide k) (d.nanoseconds / k)

/-- The seconds are multiplied by the whole part of the factor alone, and little is lost by that. -/
structure MultipliesExactly (d : Duration) (k : ℚ) : Prop where
  factor : k < 2 ^ 63
  seconds : d.tvSec * ⌊k⌋ + d.tvNsec * k / 1000000000 < 2 ^ 63
  lost : d.tvSec * Int.fract k * 1000000000 + Int.fract (d.tvNsec * k) < 1

/-- The seconds are divided alone, and the share of the nanoseconds is small. -/
structure DividesExactly (d : Duration) (k : ℚ) : Prop where
  seconds : d.tvSec / k < 2 ^ 63
  lost : Int.fract (d.tvSec * 1000000000 / k) + d.tvNsec / k < 1

end Duration

section Casts

theorem toInt64_nonneg {q : ℚ} (h : 0 ≤ q) : toInt64 q = if q < 2 ^ 63 then some ⌊q⌋ else none := by
  have least : 0 ≤ ⌊q⌋ := Int.floor_nonneg.mpr h
  have bound : ⌊q⌋ < 2 ^ 63 ↔ q < 2 ^ 63 := by
    rw [Int.floor_lt]
    norm_num
  rw [toInt64, truncate_of_nonneg h, int64]
  by_cases fits : q < 2 ^ 63
  · rw [if_pos fits, if_pos ⟨by omega, bound.mpr fits⟩]
  · rw [if_neg fits, if_neg fun inside => fits (bound.mp inside.2)]

theorem toInt64_small {q : ℚ} (h : 0 ≤ q) (small : q < 1000000000) :
    toInt64 q = some ⌊q⌋ ∧ 0 ≤ ⌊q⌋ ∧ ⌊q⌋ < 1000000000 := by
  refine ⟨?_, Int.floor_nonneg.mpr h, Int.floor_lt.mpr (by exact_mod_cast small)⟩
  rw [toInt64_nonneg h, if_pos (by linarith)]

theorem toInt64_intCast {n : ℤ} (h : 0 ≤ n) : toInt64 n = int64 n := by
  rw [toInt64, truncate_of_nonneg (by exact_mod_cast h), Int.floor_intCast]

/-- The sum of two numbers that are not negative is defined if it fits. -/
theorem int64_sum {α : Type} {a c : ℤ} (ha : 0 ≤ a) (hc : 0 ≤ c) (f : ℤ → Option α) :
    ((int64 a).bind fun scaled => (toInt64 c).bind fun carried => (int64 (scaled + carried)).bind f) =
      if a + c < 2 ^ 63 then f (a + c) else none := by
  rw [toInt64_intCast hc]
  unfold int64
  by_cases fits : a + c < 2 ^ 63
  · rw [if_pos fits, if_pos ⟨by omega, by omega⟩, if_pos ⟨by omega, by omega⟩, Option.bind_some,
      Option.bind_some, if_pos ⟨by omega, fits⟩, Option.bind_some]
  · rw [if_neg fits]
    split
    next =>
      split
      next =>
        rw [Option.bind_some, Option.bind_some, if_neg fun inside => fits inside.2]
        rfl
      next => rfl
    next => rfl

theorem near_iff {r : Duration} {length lost : ℚ} (difference : length - r.nanoseconds = lost)
    (least : 0 ≤ lost) (h : Normalised r.ts) :
    Duration.Near (some r) length ↔ lost < 1 := by
  have size : |(r.nanoseconds : ℚ) - length| = lost := by
    rw [abs_sub_comm, difference, abs_of_nonneg least]
  constructor
  · rintro ⟨d, same, _, close⟩
    cases same
    rwa [size] at close
  · exact fun short => ⟨r, rfl, h, size ▸ short⟩

end Casts

namespace Duration

variable {d : Duration} {k : ℚ}

/-- The product by its parts: the nanoseconds that make seconds, and the others. -/
theorem multiply_eq (sec : 0 ≤ d.tvSec) (h : Normalised d.ts) (hk : 0 ≤ k) :
    d.multiply k =
      if k < 2 ^ 63 ∧ (d.tvSec * ⌊k⌋ + d.tvNsec * k / 1000000000 : ℚ) < 2 ^ 63 then
        some ⟨d.tvSec * ⌊k⌋ + ⌊d.tvNsec * k / 1000000000⌋,
          ⌊d.tvNsec * k - (⌊d.tvNsec * k / 1000000000⌋ : ℚ) * 1000000000⌋⟩
      else none := by
  have nsec : (0 : ℚ) ≤ d.tvNsec := by exact_mod_cast h.low
  have part : (0 : ℚ) ≤ d.tvNsec * k / 1000000000 := by positivity
  have scaled : 0 ≤ d.tvSec * ⌊k⌋ := Int.mul_nonneg sec (Int.floor_nonneg.mpr hk)
  have below := Int.floor_le (d.tvNsec * k / 1000000000 : ℚ)
  have above := Int.lt_floor_add_one (d.tvNsec * k / 1000000000 : ℚ)
  have rest := (toInt64_small (q := d.tvNsec * k - (⌊d.tvNsec * k / 1000000000⌋ : ℚ) * 1000000000)
    (by linarith) (by linarith)).1
  have floor : ⌊(d.tvSec * ⌊k⌋ + d.tvNsec * k / 1000000000 : ℚ)⌋ =
      d.tvSec * ⌊k⌋ + ⌊d.tvNsec * k / 1000000000⌋ := by
    exact_mod_cast Int.floor_intCast_add (d.tvSec * ⌊k⌋) (d.tvNsec * k / 1000000000 : ℚ)
  have total : (d.tvSec * ⌊k⌋ + d.tvNsec * k / 1000000000 : ℚ) < 2 ^ 63 ↔
      d.tvSec * ⌊k⌋ + ⌊d.tvNsec * k / 1000000000⌋ < 2 ^ 63 := by
    rw [← floor, Int.floor_lt]
    norm_num
  unfold multiply timespecMultiply
  simp only [ts, toInt64_nonneg hk, rest, Option.bind_eq_bind, Option.bind_some]
  by_cases factor : k < 2 ^ 63
  · rw [if_pos factor, Option.bind_some, int64_sum scaled (Int.floor_nonneg.mpr part)]
    by_cases fits : (d.tvSec * ⌊k⌋ + d.tvNsec * k / 1000000000 : ℚ) < 2 ^ 63
    · rw [if_pos (total.mp fits), if_pos ⟨factor, fits⟩]
      rfl
    · rw [if_neg fun inside => fits (total.mpr inside), if_neg fun h => fits h.2]
      rfl
  · rw [if_neg factor, if_neg fun h => factor h.1]
    rfl

theorem multiply_iff (sec : 0 ≤ d.tvSec) (h : Normalised d.ts) (hk : 0 ≤ k) :
    Near (d.multiply k) (d.nanoseconds * k) ↔ d.MultipliesExactly k := by
  rw [multiply_eq sec h hk]
  by_cases fits : k < 2 ^ 63 ∧ (d.tvSec * ⌊k⌋ + d.tvNsec * k / 1000000000 : ℚ) < 2 ^ 63
  · have below := Int.floor_le (d.tvNsec * k / 1000000000 : ℚ)
    have above := Int.lt_floor_add_one (d.tvNsec * k / 1000000000 : ℚ)
    have rest := (toInt64_small (q := d.tvNsec * k - (⌊d.tvNsec * k / 1000000000⌋ : ℚ) * 1000000000)
      (by linarith) (by linarith)).2
    have sec' : (0 : ℚ) ≤ d.tvSec := by exact_mod_cast sec
    have difference : (d.nanoseconds * k : ℚ) -
        (Duration.mk (d.tvSec * ⌊k⌋ + ⌊d.tvNsec * k / 1000000000⌋)
          ⌊d.tvNsec * k - (⌊d.tvNsec * k / 1000000000⌋ : ℚ) * 1000000000⌋).nanoseconds =
        d.tvSec * Int.fract k * 1000000000 + Int.fract (d.tvNsec * k) := by
      have floor : ⌊d.tvNsec * k - (⌊d.tvNsec * k / 1000000000⌋ : ℚ) * 1000000000⌋ =
          ⌊d.tvNsec * k⌋ - ⌊d.tvNsec * k / 1000000000⌋ * 1000000000 := by
        exact_mod_cast Int.floor_sub_intCast (d.tvNsec * k : ℚ)
          (⌊d.tvNsec * k / 1000000000⌋ * 1000000000)
      simp only [nanoseconds, floor, Int.fract]
      push_cast
      ring
    have least : 0 ≤ d.tvSec * Int.fract k * 1000000000 + Int.fract (d.tvNsec * k : ℚ) := by
      have := Int.fract_nonneg k
      have := Int.fract_nonneg (d.tvNsec * k : ℚ)
      positivity
    rw [if_pos fits, near_iff difference least ⟨rest.1, rest.2⟩]
    exact ⟨fun lost => ⟨fits.1, fits.2, lost⟩, fun exact_ => exact_.lost⟩
  · rw [if_neg fits]
    refine iff_of_false ?_ fun exact_ => fits ⟨exact_.factor, exact_.seconds⟩
    rintro ⟨r, same, _⟩
    cases same

theorem divide_eq (sec : 0 ≤ d.tvSec ∧ d.tvSec < 2 ^ 63) (h : Normalised d.ts) (hk : 0 < k) :
    d.divide k =
      if (d.tvSec / k : ℚ) < 2 ^ 63 then
        some ⟨⌊d.tvSec / k⌋, ⌊(d.tvSec / k - ⌊d.tvSec / k⌋) * 1000000000⌋⟩
      else none := by
  have sec' : (0 : ℚ) ≤ d.tvSec := by exact_mod_cast sec.1
  have quotient : (0 : ℚ) ≤ d.tvSec / k := by positivity
  have none_ : d.tvNsec.tdiv 1000000000 = 0 := Int.tdiv_eq_zero_of_lt h.low h.high
  have total : int64 d.tvSec = some d.tvSec := int64_iff.mpr ⟨⟨by omega, sec.2⟩, rfl⟩
  have below := Int.floor_le (d.tvSec / k : ℚ)
  have above := Int.lt_floor_add_one (d.tvSec / k : ℚ)
  have rest := (toInt64_small (q := (d.tvSec / k - ⌊d.tvSec / k⌋) * 1000000000)
    (by linarith) (by linarith)).1
  unfold divide timespecDivide
  simp only [ts, if_neg hk.ne', none_, Int.add_zero, total, Option.bind_eq_bind, Option.bind_some,
    toInt64_nonneg quotient]
  by_cases fits : (d.tvSec / k : ℚ) < 2 ^ 63
  · rw [if_pos fits, if_pos fits, Option.bind_some, rest]
    rfl
  · rw [if_neg fits, if_neg fits]
    rfl

theorem divide_iff (sec : 0 ≤ d.tvSec ∧ d.tvSec < 2 ^ 63) (h : Normalised d.ts) (hk : 0 < k) :
    Near (d.divide k) (d.nanoseconds / k) ↔ d.DividesExactly k := by
  rw [divide_eq sec h hk]
  by_cases fits : (d.tvSec / k : ℚ) < 2 ^ 63
  · have below := Int.floor_le (d.tvSec / k : ℚ)
    have above := Int.lt_floor_add_one (d.tvSec / k : ℚ)
    have rest := (toInt64_small (q := (d.tvSec / k - ⌊d.tvSec / k⌋) * 1000000000)
      (by linarith) (by linarith)).2
    have nsec : (0 : ℚ) ≤ d.tvNsec := by exact_mod_cast h.low
    have difference : (d.nanoseconds / k : ℚ) -
        (Duration.mk ⌊d.tvSec / k⌋ ⌊(d.tvSec / k - ⌊d.tvSec / k⌋) * 1000000000⌋).nanoseconds =
        Int.fract (d.tvSec * 1000000000 / k) + d.tvNsec / k := by
      have floor : ⌊(d.tvSec / k - ⌊d.tvSec / k⌋) * 1000000000⌋ =
          ⌊d.tvSec * 1000000000 / k⌋ - ⌊d.tvSec / k⌋ * 1000000000 := by
        have moved : (d.tvSec / k - ⌊d.tvSec / k⌋) * 1000000000 =
            d.tvSec * 1000000000 / k - ((⌊d.tvSec / k⌋ * 1000000000 : ℤ) : ℚ) := by
          push_cast
          ring
        rw [moved, Int.floor_sub_intCast]
      simp only [nanoseconds, floor, Int.fract]
      push_cast
      ring
    have least : 0 ≤ Int.fract (d.tvSec * 1000000000 / k) + d.tvNsec / k := by
      have := Int.fract_nonneg (d.tvSec * 1000000000 / k)
      positivity
    rw [if_pos fits, near_iff difference least ⟨rest.1, rest.2⟩]
    exact ⟨fun lost => ⟨fits, lost⟩, fun exact_ => exact_.lost⟩
  · rw [if_neg fits]
    refine iff_of_false ?_ fun exact_ => fits exact_.seconds
    rintro ⟨r, same, _⟩
    cases same

/-- When scaling a duration scales its length. -/
theorem scales_iff (d : Duration) (k : ℚ) (sec : 0 ≤ d.tvSec ∧ d.tvSec < 2 ^ 63) (h : Normalised d.ts) :
    d.Scales k ↔ (0 ≤ k → d.MultipliesExactly k) ∧ (0 < k → d.DividesExactly k) := by
  constructor
  · exact fun scales => ⟨fun hk => (multiply_iff sec.1 h hk).mp (scales.multiply hk),
      fun hk => (divide_iff sec h hk).mp (scales.divide hk)⟩
  · exact fun exact_ => ⟨fun hk => (multiply_iff sec.1 h hk).mpr (exact_.1 hk),
      fun hk => (divide_iff sec h hk).mpr (exact_.2 hk)⟩

theorem scales_iff_sample : Scales ⟨3, 5⟩ 2 ↔
    ((0 : ℚ) ≤ 2 → MultipliesExactly ⟨3, 5⟩ 2) ∧ ((0 : ℚ) < 2 → DividesExactly ⟨3, 5⟩ 2) :=
  scales_iff ⟨3, 5⟩ 2 (by decide) (by decide)

/-- Half of two seconds is nothing, and so is half of half a second. -/
theorem halves_lost : ¬Scales ⟨2, 0⟩ (1 / 2) ∧ ¬Scales ⟨0, 500000000⟩ 2 := by
  have half : multiply ⟨2, 0⟩ (1 / 2) = some ⟨0, 0⟩ := by decide +kernel
  have quarter : divide ⟨0, 500000000⟩ 2 = some ⟨0, 0⟩ := by decide +kernel
  constructor
  · intro scales
    obtain ⟨r, same, _, close⟩ := scales.multiply (by norm_num)
    rw [half] at same
    cases same
    norm_num [nanoseconds] at close
  · intro scales
    obtain ⟨r, same, _, close⟩ := scales.divide (by norm_num)
    rw [quarter] at same
    cases same
    norm_num [nanoseconds] at close

end Duration

end Hlib
