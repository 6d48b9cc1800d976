import Hlib.DurationArithmetic
import Hlib.RatioConversion

namespace Hlib

namespace Duration

/-- `Duration(RatioValue<R, std::int64_t>)`. -/
def ofRatioValue (R : Ratio) (ticks : Int) : Option Duration := do
  let scaled ← int64 (ticks * R.num)
  let factor := (1000000000 * R.num).tdiv R.den
  let product ← int64 (ticks * factor)
  -- The modulus is unsigned, which makes the product unsigned too.
  some ⟨scaled.tdiv R.den, product % 2 ^ 64 % 1000000000⟩

def nano : Ratio := ⟨1 / 1000000000⟩

/-- `to<RatioValue<R, std::int64_t>>()`. -/
def toTicks (d : Duration) (R : Ratio) : Option Int := do
  let nsec ← d.toNSec
  ratioTo (nano.divide R).num (nano.divide R).den nsec

/-- The ratios of `Sec`, `MSec`, `USec` and `NSec`. -/
inductive TickUnit
  | one
  | milli
  | micro
  | nano
  deriving DecidableEq

namespace TickUnit

def ratio : TickUnit → Ratio
  | one => ⟨1⟩
  | milli => ⟨1 / 1000⟩
  | micro => ⟨1 / 1000000⟩
  | nano => ⟨1 / 1000000000⟩

/-- The ticks of a second. -/
def perSecond : TickUnit → Int
  | one => 1
  | milli => 1000
  | micro => 1000000
  | nano => 1000000000

/-- The nanoseconds of a tick. -/
def perTick : TickUnit → Int
  | one => 1000000000
  | milli => 1000000
  | micro => 1000
  | nano => 1

theorem ratio_parts (unit : TickUnit) : unit.ratio.num = 1 ∧ unit.ratio.den = unit.perSecond := by
  cases unit with
  | one => decide +kernel
  | milli => decide +kernel
  | micro => decide +kernel
  | nano => decide +kernel

theorem factor_parts (unit : TickUnit) : (Duration.nano.divide unit.ratio).num = 1 ∧
    (Duration.nano.divide unit.ratio).den = unit.perTick := by
  cases unit with
  | one => decide +kernel
  | milli => decide +kernel
  | micro => decide +kernel
  | nano => decide +kernel

/-- The length of a count of ticks is exact, and gives the count back. -/
structure Exact (unit : TickUnit) (ticks : Int) : Prop where
  length : (-2 ^ 63 ≤ ticks / unit.perSecond ∧ ticks / unit.perSecond < 2 ^ 63) →
    Exactly ((ofRatioValue unit.ratio ticks).map ts) (ticks * unit.perTick)
  back : (-2 ^ 63 ≤ ticks * unit.perTick ∧ ticks * unit.perTick < 2 ^ 63) →
    ∀ d ∈ ofRatioValue unit.ratio ticks, d.toTicks unit.ratio = some ticks

variable {unit : TickUnit} {ticks : Int}

theorem ofRatioValue_eq (inside : -2 ^ 63 ≤ ticks ∧ ticks < 2 ^ 63) :
    ofRatioValue unit.ratio ticks = (int64 (ticks * unit.perTick)).map fun product =>
      ⟨ticks.tdiv unit.perSecond, product % 2 ^ 64 % 1000000000⟩ := by
  obtain ⟨num, den⟩ := unit.ratio_parts
  have factor : (1000000000 * (1 : Int)).tdiv unit.perSecond = unit.perTick := by
    cases unit with
    | one => rfl
    | milli => rfl
    | micro => rfl
    | nano => rfl
  have scaled : int64 ticks = some ticks := int64_iff.mpr ⟨inside, rfl⟩
  unfold ofRatioValue
  simp only [num, den, Int.mul_one, scaled, Option.bind_eq_bind, Option.bind_some]
  rw [Int.mul_one] at factor
  rw [factor]
  cases int64 (ticks * unit.perTick) with
  | none => rfl
  | some product => rfl

theorem ofRatioValue_fits (inside : -2 ^ 63 ≤ ticks ∧ ticks < 2 ^ 63)
    (fits : -2 ^ 63 ≤ ticks * unit.perTick ∧ ticks * unit.perTick < 2 ^ 63) :
    ofRatioValue unit.ratio ticks =
      some ⟨ticks.tdiv unit.perSecond, ticks * unit.perTick % 2 ^ 64 % 1000000000⟩ := by
  rw [ofRatioValue_eq inside, int64_iff.mpr ⟨fits, rfl⟩, Option.map_some]

theorem perSecond_mul_perTick (unit : TickUnit) : unit.perSecond * unit.perTick = 1000000000 := by
  cases unit with
  | one => rfl
  | milli => rfl
  | micro => rfl
  | nano => rfl

theorem perTick_pos (unit : TickUnit) : 0 < unit.perTick := by
  cases unit with
  | one => decide
  | milli => decide
  | micro => decide
  | nano => decide

/-- The seconds are those of the nanoseconds. -/
theorem seconds_eq (unit : TickUnit) (ticks : Int) :
    ticks.tdiv unit.perSecond = (ticks * unit.perTick).tdiv 1000000000 := by
  rw [← unit.perSecond_mul_perTick, Int.mul_tdiv_mul_of_pos_left _ _ unit.perTick_pos]

theorem separated {product : Int} (nonneg : 0 ≤ product) (fits : product < 2 ^ 63) :
    product.tdiv 1000000000 * 1000000000 + product % 2 ^ 64 % 1000000000 = product := by
  rw [Int.tdiv_eq_ediv_of_nonneg nonneg, Int.emod_eq_of_lt nonneg (by omega)]
  omega

/-- The quotient is rounded up, and the remainder is that of a number `2 ^ 64` too large. -/
theorem negative_separated {product : Int} (negative : product < 0) (fits : -2 ^ 63 ≤ product) :
    product.tdiv 1000000000 * 1000000000 + product % 2 ^ 64 % 1000000000 ≠ product := by
  have quotient : product.tdiv 1000000000 = -(-product / 1000000000) := by
    rw [← Int.tdiv_eq_ediv_of_nonneg (by omega), Int.neg_tdiv, Int.neg_neg]
  have large : product % 2 ^ 64 = 2 ^ 64 + product := by
    rw [← Int.add_emod_left, Int.emod_eq_of_lt (by omega) (by omega)]
  rw [quotient, large]
  omega

theorem toTicks_eq {d : Duration} (sec : 0 ≤ d.tvSec) (nsec : 0 ≤ d.tvNsec)
    (fits : d.nanoseconds < 2 ^ 63) : d.toTicks unit.ratio = some (d.nanoseconds.tdiv unit.perTick) := by
  obtain ⟨num, den⟩ := unit.factor_parts
  have value : d.nanoseconds = d.tvSec * 1000000000 + d.tvNsec := rfl
  have whole : int64 (d.tvSec * 1000000000) = some (d.tvSec * 1000000000) :=
    int64_iff.mpr ⟨⟨by omega, by omega⟩, rfl⟩
  have counted : int64 d.nanoseconds = some d.nanoseconds := int64_iff.mpr ⟨⟨by omega, fits⟩, rfl⟩
  have total : d.toNSec = some d.nanoseconds := by
    rw [toNSec, whole]
    exact counted
  unfold toTicks
  rw [total, num, den]
  show ratioTo 1 unit.perTick d.nanoseconds = _
  rw [ratioTo, Int.mul_one, counted, Option.map_some]

/-- Counts of ticks are converted exactly if they are not negative and their nanoseconds do not
overflow. -/
theorem exact_iff (unit : TickUnit) (ticks : Int) (inside : -2 ^ 63 ≤ ticks ∧ ticks < 2 ^ 63) :
    unit.Exact ticks ↔ 0 ≤ ticks ∧ ticks * unit.perTick < 2 ^ 63 := by
  have seconds : -2 ^ 63 ≤ ticks / unit.perSecond ∧ ticks / unit.perSecond < 2 ^ 63 := by
    cases unit with
    | one => show _ ≤ ticks / 1 ∧ ticks / 1 < _; omega
    | milli => show _ ≤ ticks / 1000 ∧ ticks / 1000 < _; omega
    | micro => show _ ≤ ticks / 1000000 ∧ ticks / 1000000 < _; omega
    | nano => show _ ≤ ticks / 1000000000 ∧ ticks / 1000000000 < _; omega
  constructor
  · intro h
    obtain ⟨pair, result, _, value⟩ := h.length seconds
    obtain ⟨d, made, rfl⟩ := Option.map_eq_some_iff.mp result
    have fits : -2 ^ 63 ≤ ticks * unit.perTick ∧ ticks * unit.perTick < 2 ^ 63 := by
      by_contra overflows
      have none_ : int64 (ticks * unit.perTick) = none := if_neg overflows
      rw [ofRatioValue_eq inside, none_] at made
      cases made
    rw [ofRatioValue_fits inside fits] at made
    cases made
    change ticks.tdiv unit.perSecond * 1000000000 + _ = _ at value
    rw [seconds_eq] at value
    refine ⟨?_, fits.2⟩
    by_contra negative
    have below : ticks * unit.perTick < 0 := Int.mul_neg_of_neg_of_pos (by omega) unit.perTick_pos
    exact negative_separated below fits.1 value
  · rintro ⟨nonneg, fits⟩
    have product : 0 ≤ ticks * unit.perTick := Int.mul_nonneg nonneg unit.perTick_pos.le
    have made := ofRatioValue_fits inside ⟨by omega, fits⟩
    have value := separated product fits
    rw [← seconds_eq] at value
    constructor
    · intro _
      rw [made]
      refine ⟨_, rfl, ⟨?_, ?_⟩, value⟩
      · exact Int.emod_nonneg _ (by omega)
      · exact Int.emod_lt_of_pos _ (by omega)
    · intro _ d result
      rw [made] at result
      cases result
      have sec : 0 ≤ ticks.tdiv unit.perSecond := by
        rw [Int.tdiv_eq_ediv_of_nonneg nonneg]
        exact Int.ediv_nonneg nonneg (by cases unit <;> decide)
      rw [toTicks_eq sec (Int.emod_nonneg _ (by omega)) (by rw [nanoseconds, value]; exact fits),
        nanoseconds, value, Int.mul_tdiv_cancel _ unit.perTick_pos.ne']

theorem exact_iff_sample : TickUnit.milli.Exact 1234 ↔ (0 : Int) ≤ 1234 ∧ 1234 * TickUnit.milli.perTick < 2 ^ 63 :=
  exact_iff .milli 1234 (by decide)

/-- A millisecond before zero gets more than seven hundred milliseconds. -/
theorem negative_millisecond : ¬TickUnit.milli.Exact (-1) := by
  intro h
  obtain ⟨pair, result, _, value⟩ := h.length (by decide)
  have made : (ofRatioValue TickUnit.milli.ratio (-1)).map ts = some (0, 708551616) := by decide +kernel
  rw [made] at result
  cases result
  exact absurd value (by decide)

end TickUnit

end Duration

end Hlib
