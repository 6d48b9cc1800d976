import Hlib.RatioValue

namespace Hlib

open Truncation

namespace IntegralType

/-- The value that is computed from `v`, `n` and `d`, all of them cast to the type. -/
def converted (type : IntegralType) (v n d : Int) : Option Int :=
  ((type.promoted.multiply (type.cast v) (type.cast n)).bind fun scaled =>
    type.promoted.divide scaled (type.cast d)).map type.cast

section Converted

variable {type : IntegralType} {v n d : Int}

/-- A type whose expressions are undefined where they overflow. -/
def Checked (type : IntegralType) : Prop := ∀ n, type.evaluated n = if type.Holds n then some n else none

theorem checked_int : int.Checked := fun _ => rfl

/-- The values of a type are computed with one that is checked, or with the type itself. -/
theorem promoted_cases (type : IntegralType) :
    type.promoted.Checked ∨ ∃ width wide, type = unsigned width wide ∧ type.promoted = type := by
  cases type with
  | bool => exact .inl checked_int
  | signed width wide =>
    left
    show (if width < 32 then int else signed width wide).Checked
    split
    next => exact checked_int
    next => exact fun _ => rfl
  | unsigned width wide =>
    by_cases narrow : width < 32
    · left
      show (if width < 32 then int else unsigned width wide).Checked
      rw [if_pos narrow]
      exact checked_int
    · exact .inr ⟨width, wide, rfl, if_neg narrow⟩

theorem holds_zero (type : IntegralType) : type.Holds 0 := ⟨type.low_nonpos, type.high_pos⟩

/-- Zero is converted to zero, unless the divisor is cut off to zero. -/
theorem converted_zero (type : IntegralType) (n d : Int) :
    type.converted 0 n d = if type.cast d = 0 then none else some 0 := by
  unfold converted multiply divide
  rw [cast_eq type.holds_zero, Int.zero_mul, evaluated_eq type.promoted.holds_zero, Option.bind_some]
  split
  next => rfl
  next =>
    rw [Int.zero_tdiv, evaluated_eq type.promoted.holds_zero, Option.map_some, cast_eq type.holds_zero]

theorem holds_tdiv (h : type.Holds n) (hd : 0 < d) : type.Holds (n.tdiv d) := by
  have between := mul_tdiv_between type.low_nonpos type.high_pos h Int.one_nonneg hd hd
  rwa [Int.mul_one] at between

theorem converted_checked (checked : type.promoted.Checked) (hn : type.Holds n) (hd : type.Holds d)
    (positive : 0 < d) :
    type.converted v n d =
      if type.promoted.Holds (type.cast v * n) then some (type.cast ((type.cast v * n).tdiv d))
      else none := by
  unfold converted multiply
  rw [cast_eq hn, cast_eq hd, checked]
  split
  next fits =>
    rw [Option.bind_some, divide, if_neg positive.ne', checked, if_pos (holds_tdiv fits positive)]
    rfl
  next => rfl

/-- A value that the type holds is converted just when the product does not overflow. -/
theorem converted_inside (checked : type.promoted.Checked) (hv : type.Holds v) (hn : type.Holds n)
    (hd : type.Holds d) (positive : 0 < d) (ht : type.Holds ((v * n).tdiv d)) :
    type.converted v n d = some ((v * n).tdiv d) ↔ type.promoted.Holds (v * n) := by
  rw [converted_checked checked hn hd positive, cast_eq hv, cast_eq ht]
  split
  next fits => exact iff_of_true rfl fits
  next overflows => exact iff_of_false nofun overflows

/-- What a value that the type does not hold is converted to. -/
theorem converted_outside (checked : type.promoted.Checked) (hv : ¬type.Holds v) (hn : type.Holds n)
    (hd : type.Holds d) (hn' : 0 < n) (positive : 0 < d) (ht : type.Holds ((v * n).tdiv d)) :
    n < d ∧ (type.converted v n d = some ((v * n).tdiv d) ↔
      type.promoted.Holds (type.cast v * n) ∧ (type.cast v * n).tdiv d = (v * n).tdiv d) := by
  have small : n < d := by
    by_contra large
    exact hv (of_mul_tdiv_between type.low_nonpos type.high_pos positive (by omega) ht)
  have nearer : type.Holds ((type.cast v * n).tdiv d) :=
    mul_tdiv_between type.low_nonpos type.high_pos (type.holds_cast v) hn'.le positive small.le
  refine ⟨small, ?_⟩
  rw [converted_checked checked hn hd positive, cast_eq nearer]
  split
  next fits =>
    rw [Option.some.injEq]
    exact ⟨fun same => ⟨fits, same⟩, fun h => h.2⟩
  next overflows => exact iff_of_false nofun fun h => overflows h.1

/-- A multiple of a length that is not zero is at least that length away. -/
theorem multiple_apart {span k : Int} (given : k ≠ 0) (hs : 0 ≤ span) (hn : 0 < n) :
    span ≤ span * k * n ∨ span * k * n ≤ -span := by
  rcases Int.lt_or_gt_of_ne given with below | above
  · right
    have least : 1 ≤ -k * n := by nlinarith
    nlinarith
  · left
    have least : 1 ≤ k * n := by nlinarith
    nlinarith

theorem emod_add_le {m span : Int} (hs : 0 < span) (beyond : span ≤ m) : m % span + span ≤ m := by
  have whole := Int.emod_add_mul_ediv m span
  have times : 1 ≤ m / span := Int.le_ediv_of_mul_le hs (by omega)
  nlinarith

theorem promoted_signed {width : Nat} (wide : 8 ≤ width) : (signed width wide).promoted.Checked := by
  rcases (signed width wide).promoted_cases with checked | ⟨_, _, same, _⟩
  · exact checked
  · cases same

theorem promoted_narrow {width : Nat} (wide : 8 ≤ width) (narrow : width < 32) :
    (unsigned width wide).promoted = int := if_pos narrow

theorem promoted_wide {width : Nat} (wide : 8 ≤ width) (large : ¬width < 32) :
    (unsigned width wide).promoted = unsigned width wide := if_neg large

theorem converted_signed {width : Nat} {wide : 8 ≤ width} (hn : (signed width wide).Holds n)
    (hd : (signed width wide).Holds d) (hn' : 0 < n) (positive : 0 < d)
    (ht : (signed width wide).Holds ((v * n).tdiv d)) :
    (signed width wide).converted v n d = some ((v * n).tdiv d) ↔
      (signed width wide).Holds v ∧ (signed width wide).promoted.Holds (v * n) := by
  have checked := promoted_signed wide
  by_cases hv : (signed width wide).Holds v
  · rw [converted_inside checked hv hn hd positive ht]
    exact ⟨fun fits => ⟨hv, fits⟩, fun h => h.2⟩
  · rw [(converted_outside checked hv hn hd hn' positive ht).2]
    refine iff_of_false ?_ fun h => hv h.1
    rintro ⟨_, same⟩
    -- The residue is a multiple of the whole length away, and `d` is less than half of it.
    obtain ⟨k, split⟩ := residue_split (signed width wide).low (signed width wide).high v
    change v = (signed width wide).cast v + _ at split
    have moved : k ≠ 0 := by
      rintro rfl
      rw [Int.mul_zero, Int.add_zero] at split
      exact hv (split ▸ holds_cast _ v)
    have half : d < 2 ^ (width - 1) := hd.2
    have span : (signed width wide).high - (signed width wide).low = 2 * 2 ^ (width - 1) := by
      show (2 : Int) ^ (width - 1) - -2 ^ (width - 1) = _
      omega
    have apart := multiple_apart moved (by omega : 0 ≤ 2 * (2 : Int) ^ (width - 1)) hn'
    have near := tdiv_apart positive same
    have product : v * n = (signed width wide).cast v * n + 2 * 2 ^ (width - 1) * k * n := by
      conv_lhs => rw [split, span]
      ring
    omega

/-- The residue of a value that an unsigned type does not hold. -/
theorem unsigned_residue {width : Nat} {wide : 8 ≤ width} (v : Int) :
    (unsigned width wide).cast v = v % 2 ^ width := by
  show 0 + (v - 0) % (2 ^ width - 0) = _
  rw [Int.zero_add, Int.sub_zero, Int.sub_zero]

/-- How far the residue of a negative value that rounds to zero must reach to round to zero too. -/
def wrapped (width : Nat) (n : Int) : Int := if width < 32 then 2 ^ width * n else 2 ^ width

/-- A negative value that rounds to zero, and its residue. -/
theorem negative_residue {width : Nat} (hn : 0 < n) (positive : 0 < d) (top : d < 2 ^ width) (negative : v < 0)
    (ht : 0 ≤ (v * n).tdiv d) :
    (v * n).tdiv d = 0 ∧ v % 2 ^ width * n = 2 ^ width * n + v * n ∧
      v * n % 2 ^ width = 2 ^ width + v * n ∧ -2 ^ width < v * n ∧ v * n ≤ v := by
  have below : v * n < 0 := Int.mul_neg_of_neg_of_pos negative hn
  obtain ⟨zero, close⟩ := tdiv_zero_of_neg positive below ht
  have larger : v * n ≤ v := by nlinarith
  have residue {m : Int} (low : -2 ^ width < m) (high : m < 0) : m % 2 ^ width = 2 ^ width + m := by
    rw [← Int.add_emod_left, Int.emod_eq_of_lt (by omega) (by omega)]
  refine ⟨zero, ?_, residue (by omega) below, by omega, larger⟩
  rw [residue (by omega) negative]
  ring

theorem converted_narrow {width : Nat} {wide : 8 ≤ width} (narrow : width < 32)
    (hn : (unsigned width wide).Holds n) (hd : (unsigned width wide).Holds d) (hn' : 0 < n)
    (positive : 0 < d) (ht : (unsigned width wide).Holds ((v * n).tdiv d)) :
    (unsigned width wide).converted v n d = some ((v * n).tdiv d) ↔
      (unsigned width wide).Holds v ∧ (unsigned width wide).promoted.Holds (v * n) ∨
        v < 0 ∧ wrapped width n + v * n < d := by
  have checked : (unsigned width wide).promoted.Checked := promoted_narrow wide narrow ▸ checked_int
  have top : d < 2 ^ width := hd.2
  by_cases hv : (unsigned width wide).Holds v
  · rw [converted_inside checked hv hn hd positive ht]
    have nonneg : 0 ≤ v := hv.1
    constructor
    · exact fun fits => .inl ⟨hv, fits⟩
    · rintro (⟨_, fits⟩ | ⟨negative, _⟩)
      · exact fits
      · omega
  · rw [(converted_outside checked hv hn hd hn' positive ht).2, unsigned_residue, wrapped, if_pos narrow]
    rcases Int.lt_or_le v 0 with negative | nonneg
    · obtain ⟨zero, scaled, _, close, larger⟩ := negative_residue hn' positive top negative ht.1
      have least : 0 ≤ 2 ^ width * n + v * n := by nlinarith
      rw [scaled, zero, tdiv_zero_iff positive least, promoted_narrow wide narrow]
      constructor
      · exact fun h => .inr ⟨negative, h.2⟩
      · rintro (⟨inside, _⟩ | ⟨_, short⟩)
        · exact absurd inside hv
        · have bound : (2 : Int) ^ width ≤ 2 ^ 31 := pow_le_pow_right₀ (by omega) (by omega)
          exact ⟨⟨by show -2 ^ 31 ≤ _; omega, by show _ < 2 ^ 31; omega⟩, short⟩
    · have beyond : (2 : Int) ^ width ≤ v := by
        by_contra inside
        exact hv ⟨nonneg, by show v < 2 ^ width; omega⟩
      refine iff_of_false ?_ ?_
      · rintro ⟨_, same⟩
        have least : 0 ≤ v % 2 ^ width := Int.emod_nonneg _ (by omega)
        have apart := emod_add_le (by omega) beyond
        exact tdiv_ne positive (Int.mul_nonneg least hn'.le) (by nlinarith) top.le same
      · rintro (⟨inside, _⟩ | ⟨negative, _⟩)
        · exact hv inside
        · omega

/-- An unsigned type that is not promoted reduces the product. -/
theorem converted_reduced {width : Nat} {wide : 8 ≤ width} (large : ¬width < 32)
    (hn : (unsigned width wide).Holds n) (hd : (unsigned width wide).Holds d) (positive : 0 < d) :
    (unsigned width wide).converted v n d = some ((v * n % 2 ^ width).tdiv d) := by
  have evaluated (m : Int) : (unsigned width wide).evaluated m = some (m % 2 ^ width) :=
    congrArg some (unsigned_residue m)
  have reduced : v % 2 ^ width * n % 2 ^ width = v * n % 2 ^ width := by
    rw [Int.mul_emod, Int.emod_emod, ← Int.mul_emod]
  have inside : (unsigned width wide).Holds ((v * n % 2 ^ width).tdiv d) := by
    have product := holds_cast (unsigned width wide) (v * n)
    rw [unsigned_residue] at product
    exact holds_tdiv product positive
  unfold converted multiply
  rw [cast_eq hn, cast_eq hd, promoted_wide wide large, evaluated, Option.bind_some, divide,
    if_neg positive.ne', unsigned_residue, reduced, evaluated_eq inside, Option.map_some, cast_eq inside]

theorem converted_wide {width : Nat} {wide : 8 ≤ width} (large : ¬width < 32)
    (hn : (unsigned width wide).Holds n) (hd : (unsigned width wide).Holds d) (hn' : 0 < n)
    (positive : 0 < d) (ht : (unsigned width wide).Holds ((v * n).tdiv d)) :
    (unsigned width wide).converted v n d = some ((v * n).tdiv d) ↔
      (unsigned width wide).Holds v ∧ (unsigned width wide).promoted.Holds (v * n) ∨
        v < 0 ∧ wrapped width n + v * n < d := by
  have top : d < 2 ^ width := hd.2
  rw [converted_reduced large hn hd positive, Option.some.injEq, promoted_wide wide large, wrapped,
    if_neg large]
  rcases Int.lt_or_le v 0 with negative | nonneg
  · obtain ⟨zero, _, scaled, close, _⟩ := negative_residue hn' positive top negative ht.1
    rw [scaled, zero, tdiv_zero_iff positive (by omega)]
    constructor
    · exact fun short => .inr ⟨negative, short⟩
    · rintro (⟨inside, _⟩ | ⟨_, short⟩)
      · exact absurd inside.1 (by show ¬0 ≤ v; omega)
      · exact short
  · have larger : v ≤ v * n := by nlinarith
    rcases Int.lt_or_le (v * n) (2 ^ width) with inside | beyond
    · rw [Int.emod_eq_of_lt (by omega) inside]
      refine iff_of_true rfl (.inl ⟨⟨nonneg, ?_⟩, ?_, inside⟩)
      · show v < 2 ^ width
        omega
      · show 0 ≤ v * n
        omega
    · refine iff_of_false ?_ ?_
      · have least : 0 ≤ v * n % 2 ^ width := Int.emod_nonneg _ (by omega)
        exact tdiv_ne positive least (emod_add_le (by omega) beyond) top.le
      · rintro (⟨_, inside⟩ | ⟨negative, _⟩)
        · exact absurd inside.2 (by show ¬v * n < 2 ^ width; omega)
        · omega

def int64 : IntegralType := signed 64 (by decide)

/-- The conversion between durations is that of this type. -/
theorem converted_int64 (hv : int64.Holds v) (hn : int64.Holds n) (hd : int64.Holds d) (positive : 0 < d) :
    int64.converted v n d = ratioTo n d v := by
  have checked : int64.promoted.Checked := fun _ => rfl
  rw [converted_checked checked hn hd positive, cast_eq hv, ratioTo, Hlib.int64]
  have bounds : int64.promoted.Holds (v * n) ↔ -2 ^ 63 ≤ v * n ∧ v * n < 2 ^ 63 := Iff.rfl
  by_cases fits : int64.promoted.Holds (v * n)
  · have inside : int64.Holds ((v * n).tdiv d) := holds_tdiv fits positive
    rw [if_pos fits, if_pos (bounds.mp fits), cast_eq inside]
    rfl
  · rw [if_neg fits, if_neg fun within => fits (bounds.mpr within)]
    rfl

end Converted

end IntegralType

namespace RatioValue

open IntegralType

variable {R : Ratio} {T : IntegralType} (v : RatioValue R T) (Q : Ratio) (U : IntegralType)

/-- The type represents both parts of the quotient of the ratios. -/
structure FactorHolds (R Q : Ratio) (U : IntegralType) : Prop where
  num : U.Holds (R.divide Q).num
  den : U.Holds (R.divide Q).den

/-- Nothing is cut off and nothing overflows: the value, the parts of the factor and the product. -/
structure Fits : Prop where
  value : U.Holds v.value
  factor : FactorHolds R Q U
  product : U.promoted.Holds (v.value * (R.divide Q).num)

/-- A negative value becomes zero, and the number that an unsigned type makes of it does so too. -/
def RoundsToZero : Prop :=
  match U with
  | unsigned width _ => FactorHolds R Q U ∧ v.value < 0 ∧
      wrapped width (R.divide Q).num + v.value * (R.divide Q).num < (R.divide Q).den
  | _ => False

/-- Zero, with a divisor that is not cut off to zero. -/
structure Nothing : Prop where
  value : v.value = 0
  divisor : U.cast (R.divide Q).den ≠ 0

/-- If the type can represent the result, then nothing is cut off, or both values round to zero. -/
def Unharmed : Prop := U.Holds (v.exactValue Q) → v.Fits Q U ∨ v.RoundsToZero Q U ∨ v.Nothing Q U

theorem computed_value : (v.toRatioValue Q U).map (·.value) =
    U.converted v.value (R.divide Q).num (R.divide Q).den := toRatioValue_value v Q U

theorem converts_iff_factor {R : PositiveRatio} (v : RatioValue R T) (Q : PositiveRatio)
    (given : FactorHolds R Q U) (ht : U.Holds (v.exactValue Q)) :
    U.converted v.value (R.divide Q).num (R.divide Q).den = some (v.exactValue Q) ↔
      v.Fits Q U ∨ v.RoundsToZero Q U := by
  obtain ⟨hn, hd⟩ := given
  have num := R.divide_num_pos Q
  have den := (R.divide Q).den_pos
  have fits : v.Fits Q U ↔ U.Holds v.value ∧ U.promoted.Holds (v.value * (R.divide Q).num) :=
    ⟨fun h => ⟨h.value, h.product⟩, fun h => ⟨h.1, ⟨hn, hd⟩, h.2⟩⟩
  rw [fits]
  rw [exactValue_eq] at ht ⊢
  cases U with
  | bool =>
    -- The only positive value of a `bool` is one.
    have one : (R.divide Q).num = 1 := by
      have : (R.divide Q).num < 2 := hn.2
      omega
    have one' : (R.divide Q).den = 1 := by
      have : (R.divide Q).den < 2 := hd.2
      omega
    have hv : bool.Holds v.value := by
      rwa [one', Int.tdiv_one, one, Int.mul_one] at ht
    have checked : bool.promoted.Checked := checked_int
    rw [converted_inside checked hv hn hd den ht]
    exact ⟨fun product => .inl ⟨hv, product⟩, fun h => (h.resolve_right id).2⟩
  | signed width wide =>
    rw [converted_signed hn hd num den ht]
    exact ⟨.inl, fun h => h.resolve_right id⟩
  | unsigned width wide =>
    have both : (unsigned width wide).converted v.value (R.divide Q).num (R.divide Q).den =
        some ((v.value * (R.divide Q).num).tdiv (R.divide Q).den) ↔
        (unsigned width wide).Holds v.value ∧
            (unsigned width wide).promoted.Holds (v.value * (R.divide Q).num) ∨
          v.value < 0 ∧
            wrapped width (R.divide Q).num + v.value * (R.divide Q).num < (R.divide Q).den := by
      by_cases narrow : width < 32
      · exact converted_narrow narrow hn hd num den ht
      · exact converted_wide narrow hn hd num den ht
    rw [both]
    exact or_congr_right ⟨fun h => ⟨⟨hn, hd⟩, h⟩, fun h => h.2⟩

theorem converts_zero (zero : v.value = 0) : v.Converts Q U ↔ U.cast (R.divide Q).den ≠ 0 := by
  have exact_zero : v.exactValue Q = 0 := by rw [exactValue_eq, zero, Int.zero_mul, Int.zero_tdiv]
  unfold Converts
  rw [computed_value, exact_zero, zero, converted_zero]
  by_cases divisor : U.cast (R.divide Q).den = 0
  · rw [if_pos divisor]
    exact iff_of_false (fun h => absurd (h U.holds_zero) nofun) fun h => h divisor
  · rw [if_neg divisor]
    exact iff_of_true (fun _ => rfl) divisor

theorem RoundsToZero.factor {v : RatioValue R T} {Q : Ratio} {U : IntegralType} (h : v.RoundsToZero Q U) :
    FactorHolds R Q U := by
  cases U with
  | bool => exact h.elim
  | signed width wide => exact h.elim
  | unsigned width wide => exact h.1

/-- A conversion is exact if the cuts do no harm, and where the type represents the factor, or the value is
zero, in no other case. -/
theorem converts_iff {R : PositiveRatio} (v : RatioValue R T) (Q : PositiveRatio) :
    (v.Unharmed Q U → v.Converts Q U) ∧
      (FactorHolds R Q U ∨ v.value = 0 → v.Converts Q U → v.Unharmed Q U) := by
  constructor
  · intro unharmed ht
    rcases unharmed ht with fits | rounds | nothing_left
    · rw [computed_value]
      exact (converts_iff_factor U v Q fits.factor ht).mpr (.inl fits)
    · rw [computed_value]
      exact (converts_iff_factor U v Q rounds.factor ht).mpr (.inr rounds)
    · exact (v.converts_zero Q U nothing_left.value).mpr nothing_left.divisor ht
  · rintro (given | zero) converts ht
    · have same := converts ht
      rw [computed_value] at same
      rcases (converts_iff_factor U v Q given ht).mp same with fits | rounds
      · exact .inl fits
      · exact .inr (.inl rounds)
    · exact .inr (.inr ⟨zero, (v.converts_zero Q U zero).mp converts⟩)

/-- Five million seconds, in milliseconds: more than 32 bits hold. -/
def milliseconds : RatioValue ⟨1 / 1000⟩ (signed 64 (by decide)) :=
  ⟨5000000000, by decide⟩

theorem seconds_cut : ¬milliseconds.Converts ⟨1⟩ (signed 32 (by decide)) := by
  have seconds : milliseconds.exactValue ⟨1⟩ = 5000000 := by decide +kernel
  have computed : (milliseconds.toRatioValue ⟨1⟩ (signed 32 (by decide))).map (·.value) =
      some 705032 := by decide +kernel
  intro h
  unfold Converts at h
  rw [seconds, computed] at h
  exact absurd (h (by decide)) (by decide)

end RatioValue

end Hlib
