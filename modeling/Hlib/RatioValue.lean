import Hlib.Duration
import Hlib.Truncation

namespace Hlib

open Truncation

/-- The integral types: `bool`, and the signed and the unsigned ones by their width. -/
inductive IntegralType
  | bool
  | signed (width : Nat) (wide : 8 ≤ width)
  | unsigned (width : Nat) (wide : 8 ≤ width)
  deriving DecidableEq

namespace IntegralType

def low : IntegralType → Int
  | bool => 0
  | signed width _ => -2 ^ (width - 1)
  | unsigned _ _ => 0

/-- The first number above the values of a type. -/
def high : IntegralType → Int
  | bool => 2
  | signed width _ => 2 ^ (width - 1)
  | unsigned width _ => 2 ^ width

def Holds (type : IntegralType) (n : Int) : Prop := type.low ≤ n ∧ n < type.high

instance (type : IntegralType) (n : Int) : Decidable (type.Holds n) := inferInstanceAs (Decidable (_ ∧ _))

/-- The number among those of an interval that differs from `n` by a multiple of its length. -/
def residue (low high n : Int) : Int := low + (n - low) % (high - low)

/-- `static_cast`. -/
def cast (type : IntegralType) (n : Int) : Int :=
  match type with
  | bool => if n = 0 then 0 else 1
  | signed width wide => residue (signed width wide).low (signed width wide).high n
  | unsigned width wide => residue (unsigned width wide).low (unsigned width wide).high n

def int : IntegralType := signed 32 (by decide)

/-- The type that the values of a type are computed with. -/
def promoted : IntegralType → IntegralType
  | bool => int
  | signed width wide => if width < 32 then int else signed width wide
  | unsigned width wide => if width < 32 then int else unsigned width wide

/-- The value of an expression; there is none where a signed one overflows. -/
def evaluated (type : IntegralType) (n : Int) : Option Int :=
  match type with
  | unsigned width wide => some ((unsigned width wide).cast n)
  | type => if type.Holds n then some n else none

def multiply (type : IntegralType) (x y : Int) : Option Int := type.evaluated (x * y)

def divide (type : IntegralType) (x y : Int) : Option Int :=
  if y = 0 then none else type.evaluated (x.tdiv y)

theorem low_nonpos (type : IntegralType) : type.low ≤ 0 := by
  cases type with
  | bool => exact Int.le_refl 0
  | signed width wide =>
    have : (0 : Int) < 2 ^ (width - 1) := by positivity
    show -2 ^ (width - 1) ≤ 0
    omega
  | unsigned width wide => exact Int.le_refl 0

theorem high_pos (type : IntegralType) : 0 < type.high := by
  cases type with
  | bool => decide
  | signed width wide =>
    show (0 : Int) < 2 ^ (width - 1)
    positivity
  | unsigned width wide =>
    show (0 : Int) < 2 ^ width
    positivity

theorem residue_between {low high : Int} (h : low < high) (n : Int) :
    low ≤ residue low high n ∧ residue low high n < high := by
  have least := Int.emod_nonneg (n - low) (by omega : high - low ≠ 0)
  have most := Int.emod_lt_of_pos (n - low) (by omega : 0 < high - low)
  unfold residue
  omega

theorem residue_eq {low high n : Int} (h : low ≤ n ∧ n < high) : residue low high n = n := by
  rw [residue, Int.emod_eq_of_lt (by omega) (by omega)]
  omega

/-- A number is its residue and a multiple of the length. -/
theorem residue_split (low high n : Int) : ∃ k, n = residue low high n + (high - low) * k := by
  have whole := Int.emod_add_mul_ediv (n - low) (high - low)
  refine ⟨(n - low) / (high - low), ?_⟩
  unfold residue
  omega

theorem holds_cast (type : IntegralType) (n : Int) : type.Holds (type.cast n) := by
  have between := type.low_nonpos.trans_lt type.high_pos
  cases type with
  | bool =>
    show bool.Holds (if n = 0 then 0 else 1)
    by_cases zero : n = 0
    · rw [if_pos zero]
      decide
    · rw [if_neg zero]
      decide
  | signed width wide => exact residue_between between n
  | unsigned width wide => exact residue_between between n

theorem cast_eq {type : IntegralType} {n : Int} (h : type.Holds n) : type.cast n = n := by
  cases type with
  | bool =>
    obtain ⟨low, high⟩ : 0 ≤ n ∧ n < 2 := h
    show (if n = 0 then 0 else 1) = n
    by_cases zero : n = 0
    · rw [if_pos zero, zero]
    · rw [if_neg zero]
      omega
  | signed width wide => exact residue_eq h
  | unsigned width wide => exact residue_eq h

theorem evaluated_eq {type : IntegralType} {n : Int} (h : type.Holds n) : type.evaluated n = some n := by
  cases type with
  | bool => exact if_pos h
  | signed width wide => exact if_pos h
  | unsigned width wide => exact congrArg some (cast_eq h)

end IntegralType

/-- A `std::ratio`. -/
structure Ratio where
  value : ℚ

namespace Ratio

/-- `std::ratio_divide`, in lowest terms. -/
def divide (r q : Ratio) : Ratio := ⟨r.value / q.value⟩

def num (r : Ratio) : Int := r.value.num

def den (r : Ratio) : Int := r.value.den

theorem den_pos (r : Ratio) : 0 < r.den := Int.natCast_pos.mpr r.value.den_pos

theorem value_eq (r : Ratio) : r.value = r.num / r.den := (Rat.num_div_den r.value).symm

end Ratio

/-- The ratio of a unit. -/
structure PositiveRatio extends Ratio where
  positive : 0 < value

instance : Coe PositiveRatio Ratio := ⟨PositiveRatio.toRatio⟩

theorem PositiveRatio.divide_num_pos (r q : PositiveRatio) : 0 < (r.divide q).num :=
  Rat.num_pos.mpr (div_pos r.positive q.positive)

/-- `RatioValue<R, T>`. -/
structure RatioValue (R : Ratio) (T : IntegralType) where
  value : Int
  inside : T.Holds value

namespace RatioValue

variable {R : Ratio} {T : IntegralType}

/-- `to<Q, U>()`. -/
def toRatioValue (v : RatioValue R T) (Q : Ratio) (U : IntegralType) : Option (RatioValue Q U) := do
  let factor := R.divide Q
  let scaled ← U.promoted.multiply (U.cast v.value) (U.cast factor.num)
  let quotient ← U.promoted.divide scaled (U.cast factor.den)
  some ⟨U.cast quotient, U.holds_cast quotient⟩

/-- The value in another unit, cut off to a whole number. -/
def exactValue (v : RatioValue R T) (Q : Ratio) : Int := truncate (v.value * R.value / Q.value)

/-- The conversion gives the exact value if the type can represent it. -/
def Converts (v : RatioValue R T) (Q : Ratio) (U : IntegralType) : Prop :=
  U.Holds (v.exactValue Q) → (v.toRatioValue Q U).map (·.value) = some (v.exactValue Q)

theorem exactValue_eq (v : RatioValue R T) (Q : Ratio) :
    v.exactValue Q = (v.value * (R.divide Q).num).tdiv (R.divide Q).den := by
  have whole : (v.value : ℚ) * R.value / Q.value =
      ((v.value * (R.divide Q).num : ℤ) : ℚ) / ((R.divide Q).den : ℤ) := by
    rw [mul_div_assoc, show R.value / Q.value = _ from (R.divide Q).value_eq, Int.cast_mul, mul_div_assoc]
  rw [exactValue, whole, truncate_div _ (R.divide Q).den_pos]

theorem toRatioValue_value (v : RatioValue R T) (Q : Ratio) (U : IntegralType) :
    (v.toRatioValue Q U).map (·.value) =
      ((U.promoted.multiply (U.cast v.value) (U.cast (R.divide Q).num)).bind fun scaled =>
        U.promoted.divide scaled (U.cast (R.divide Q).den)).map U.cast := by
  simp only [toRatioValue, Option.bind_eq_bind, Option.map_eq_bind, Function.comp_def, Option.bind_assoc,
    Option.bind_some]

end RatioValue

end Hlib
