import Mathlib.Data.Rat.Floor

namespace Truncation

/-- The whole part of a number, towards zero. -/
def truncate (q : ℚ) : ℤ := q.num.tdiv q.den

theorem truncate_div (a : ℤ) {b : ℤ} (hb : 0 < b) : truncate (a / b) = a.tdiv b := by
  obtain ⟨c, num, den⟩ := Rat.exists_eq_mul_div_num_and_eq_mul_div_den a hb.ne'
  have positive : 0 < c := by
    rw [den] at hb
    exact pos_of_mul_pos_left hb (Int.natCast_nonneg _)
  calc
    truncate (a / b) = (c * (a / b : ℚ).num).tdiv (c * (a / b : ℚ).den) :=
      (Int.mul_tdiv_mul_of_pos _ _ positive).symm
    _ = a.tdiv b := by rw [← num, ← den]

theorem truncate_of_nonneg {q : ℚ} (h : 0 ≤ q) : truncate q = ⌊q⌋ := by
  rw [truncate, Rat.floor_def', Int.tdiv_eq_ediv_of_nonneg (Rat.num_nonneg.mpr h)]

theorem truncate_neg (q : ℚ) : truncate (-q) = -truncate q := by
  rw [truncate, truncate, Rat.num_neg_eq_neg_num, Rat.den_neg_eq_den, Int.neg_tdiv]

theorem truncate_of_nonpos {q : ℚ} (h : q ≤ 0) : truncate q = -⌊-q⌋ := by
  rw [← truncate_of_nonneg (neg_nonneg.mpr h), truncate_neg, neg_neg]

theorem truncate_nonneg {q : ℚ} (h : 0 ≤ q) : 0 ≤ truncate q := by
  rw [truncate_of_nonneg h]
  exact Int.floor_nonneg.mpr h

theorem truncate_nonpos {q : ℚ} (h : q ≤ 0) : truncate q ≤ 0 := by
  rw [truncate_of_nonpos h]
  exact neg_nonpos.mpr (Int.floor_nonneg.mpr (neg_nonneg.mpr h))

section Quotients

variable {x y n d : ℤ}

theorem tdiv_apart (hd : 0 < d) (same : x.tdiv d = y.tdiv d) : x < y + 2 * d ∧ y < x + 2 * d := by
  have hx := Int.mul_tdiv_add_tmod x d
  have hy := Int.mul_tdiv_add_tmod y d
  have above (z : ℤ) : z.tmod d < d := Int.tmod_lt_of_pos z hd
  have below (z : ℤ) : -d < z.tmod d := by
    have := Int.tmod_lt_of_pos (-z) hd
    rw [Int.neg_tmod] at this
    omega
  have := above x
  have := above y
  have := below x
  have := below y
  rw [same] at hx
  omega

theorem tdiv_apart_nonneg (hd : 0 < d) (hx : 0 ≤ x) (hy : 0 ≤ y) (same : x.tdiv d = y.tdiv d) :
    x < y + d ∧ y < x + d := by
  have wholeX := Int.mul_tdiv_add_tmod x d
  have wholeY := Int.mul_tdiv_add_tmod y d
  have := Int.tmod_lt_of_pos x hd
  have := Int.tmod_lt_of_pos y hd
  have := Int.tmod_nonneg d hx
  have := Int.tmod_nonneg d hy
  rw [same] at wholeX
  omega

theorem tdiv_ne {span : ℤ} (hd : 0 < d) (hx : 0 ≤ x) (apart : x + span ≤ y) (small : d ≤ span) :
    x.tdiv d ≠ y.tdiv d := by
  intro same
  have near := tdiv_apart_nonneg hd hx (by omega) same
  omega

theorem tdiv_zero_iff (hd : 0 < d) (hx : 0 ≤ x) : x.tdiv d = 0 ↔ x < d := by
  constructor
  · intro zero
    have near := tdiv_apart_nonneg hd hx (Int.le_refl 0) (zero.trans (Int.zero_tdiv d).symm)
    omega
  · exact fun short => Int.tdiv_eq_zero_of_lt hx short

/-- A negative number is rounded up to zero if it is rounded to one that is not negative. -/
theorem tdiv_zero_of_neg (hd : 0 < d) (hx : x < 0) (h : 0 ≤ x.tdiv d) : x.tdiv d = 0 ∧ -d < x := by
  have most : x.tdiv d ≤ (0 : ℤ).tdiv d := Int.tdiv_le_tdiv hd hx.le
  have whole := Int.mul_tdiv_add_tmod x d
  have rest := Int.tmod_lt_of_pos (-x) hd
  rw [Int.zero_tdiv] at most
  have zero : x.tdiv d = 0 := Int.le_antisymm most h
  rw [Int.neg_tmod] at rest
  rw [zero, Int.mul_zero] at whole
  omega

/-- A factor of at most one brings a number nearer to zero. -/
theorem mul_tdiv_between {low high : ℤ} (hlow : low ≤ 0) (hhigh : 0 < high) (hx : low ≤ x ∧ x < high)
    (hn : 0 ≤ n) (hd : 0 < d) (small : n ≤ d) : low ≤ (x * n).tdiv d ∧ (x * n).tdiv d < high := by
  have whole : (x * d).tdiv d = x := Int.mul_tdiv_cancel x hd.ne'
  rcases Int.le_total 0 x with up | down
  · have most : (x * n).tdiv d ≤ (x * d).tdiv d :=
      Int.tdiv_le_tdiv hd (Int.mul_le_mul_of_nonneg_left small up)
    have least : 0 ≤ (x * n).tdiv d := Int.tdiv_nonneg (Int.mul_nonneg up hn) hd.le
    omega
  · have least : (x * d).tdiv d ≤ (x * n).tdiv d :=
      Int.tdiv_le_tdiv hd (Int.mul_le_mul_of_nonpos_left down small)
    have most : (x * n).tdiv d ≤ (0 : ℤ).tdiv d :=
      Int.tdiv_le_tdiv hd (Int.mul_nonpos_of_nonpos_of_nonneg down hn)
    rw [Int.zero_tdiv] at most
    omega

/-- A factor of at least one does not bring a number into an interval around zero. -/
theorem of_mul_tdiv_between {low high : ℤ} (hlow : low ≤ 0) (hhigh : 0 < high) (hd : 0 < d)
    (large : d ≤ n) (h : low ≤ (x * n).tdiv d ∧ (x * n).tdiv d < high) : low ≤ x ∧ x < high := by
  have whole : (x * d).tdiv d = x := Int.mul_tdiv_cancel x hd.ne'
  rcases Int.le_total 0 x with up | down
  · have least : (x * d).tdiv d ≤ (x * n).tdiv d :=
      Int.tdiv_le_tdiv hd (Int.mul_le_mul_of_nonneg_left large up)
    omega
  · have most : (x * n).tdiv d ≤ (x * d).tdiv d :=
      Int.tdiv_le_tdiv hd (Int.mul_le_mul_of_nonpos_left down large)
    omega

end Quotients

end Truncation
