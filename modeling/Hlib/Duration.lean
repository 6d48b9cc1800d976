import Hlib.Clock

namespace Hlib

/-- `time::Duration`. -/
structure Duration where
  tvSec : Int
  tvNsec : Int
  deriving DecidableEq, Repr

/-- The value of a signed expression of 64 bits; there is none where it overflows. -/
def int64 (n : Int) : Option Int := if -2 ^ 63 ≤ n ∧ n < 2 ^ 63 then some n else none

/-- `timespec_add(lhs, that)`. -/
def timespecAdd (lhs that : Int × Int) : Option (Int × Int) := do
  let sec ← int64 (lhs.1 + that.1)
  let nsec ← int64 (lhs.2 + that.2)
  if nsec ≥ 1000000000 then do
    let sec ← int64 (sec + 1)
    some (sec, nsec - 1000000000)
  else some (sec, nsec)

/-- `timespec_subtract(lhs, that)`. -/
def timespecSubtract (lhs that : Int × Int) : Option (Int × Int) := do
  let sec ← int64 (lhs.1 - that.1)
  let nsec ← int64 (lhs.2 - that.2)
  if nsec < 0 then do
    let sec ← int64 (sec - 1)
    some (sec, nsec + 1000000000)
  else some (sec, nsec)

/-- `RatioValue::to`, where `num` and `den` make up the quotient of the ratios. -/
def ratioTo (num den value : Int) : Option Int := (int64 (value * num)).map (·.tdiv den)

namespace Duration

def nanoseconds (d : Duration) : Int := d.tvSec * 1000000000 + d.tvNsec

/-- The count of nanoseconds in `to<T>()`. -/
def toNSec (d : Duration) : Option Int := do
  let whole ← int64 (d.tvSec * 1000000000)
  int64 (whole + d.tvNsec)

/-- `to<time::MSec>()`. -/
def toMSec (d : Duration) : Option Int := do
  let nsec ← d.toNSec
  ratioTo 1 1000000 nsec

end Duration

namespace Clock

def nanoseconds (c : Clock) : Int := c.tvSec * 1000000000 + c.tvNsec

/-- `operator +`. -/
def add (c : Clock) (d : Duration) : Option Clock :=
  (timespecAdd (c.tvSec, c.tvNsec) (d.tvSec, d.tvNsec)).map fun ts => ⟨ts.1, ts.2⟩

/-- `operator -`. -/
def subtract (c that : Clock) : Option Duration :=
  (timespecSubtract (c.tvSec, c.tvNsec) (that.tvSec, that.tvNsec)).map fun ts => ⟨ts.1, ts.2⟩

/-- `operator <`. -/
def Before (c that : Clock) : Prop :=
  c.tvSec < that.tvSec ∨ c.tvSec = that.tvSec ∧ c.tvNsec < that.tvNsec

instance (c that : Clock) : Decidable (c.Before that) := inferInstanceAs (Decidable (_ ∨ _))

end Clock

theorem int64_iff {n m : Int} : int64 n = some m ↔ (-2 ^ 63 ≤ n ∧ n < 2 ^ 63) ∧ m = n := by
  unfold int64
  split
  next fits => exact ⟨fun h => ⟨fits, (Option.some.inj h).symm⟩, fun h => congrArg some h.2.symm⟩
  next fits => exact iff_of_false nofun fun h => fits h.1

theorem Clock.add_nanoseconds {c expire : Clock} {d : Duration} (h : c.add d = some expire) :
    expire.nanoseconds = c.nanoseconds + d.nanoseconds := by
  obtain ⟨ts, ha, rfl⟩ := Option.map_eq_some_iff.mp h
  obtain ⟨sec, hs, ha⟩ := Option.bind_eq_some_iff.mp ha
  obtain ⟨nsec, hn, ha⟩ := Option.bind_eq_some_iff.mp ha
  obtain ⟨_, rfl⟩ := int64_iff.mp hs
  obtain ⟨_, rfl⟩ := int64_iff.mp hn
  dsimp only at ha
  split at ha
  next =>
    obtain ⟨sec, hs, ha⟩ := Option.bind_eq_some_iff.mp ha
    obtain ⟨_, rfl⟩ := int64_iff.mp hs
    cases ha
    simp only [nanoseconds, Duration.nanoseconds]
    omega
  next =>
    cases ha
    simp only [nanoseconds, Duration.nanoseconds]
    omega

theorem Clock.subtract_nanoseconds {c that : Clock} {d : Duration} (h : c.subtract that = some d) :
    d.nanoseconds = c.nanoseconds - that.nanoseconds := by
  obtain ⟨ts, hd, rfl⟩ := Option.map_eq_some_iff.mp h
  obtain ⟨sec, hs, hd⟩ := Option.bind_eq_some_iff.mp hd
  obtain ⟨nsec, hn, hd⟩ := Option.bind_eq_some_iff.mp hd
  obtain ⟨_, rfl⟩ := int64_iff.mp hs
  obtain ⟨_, rfl⟩ := int64_iff.mp hn
  dsimp only at hd
  split at hd
  next =>
    obtain ⟨sec, hs, hd⟩ := Option.bind_eq_some_iff.mp hd
    obtain ⟨_, rfl⟩ := int64_iff.mp hs
    cases hd
    simp only [nanoseconds, Duration.nanoseconds]
    omega
  next =>
    cases hd
    simp only [nanoseconds, Duration.nanoseconds]
    omega

theorem Duration.toNSec_value {d : Duration} {nsec : Int} (h : d.toNSec = some nsec) :
    nsec = d.nanoseconds ∧ -2 ^ 63 ≤ nsec ∧ nsec < 2 ^ 63 := by
  obtain ⟨whole, hw, h⟩ := Option.bind_eq_some_iff.mp h
  obtain ⟨_, rfl⟩ := int64_iff.mp hw
  obtain ⟨fits, rfl⟩ := int64_iff.mp h
  exact ⟨rfl, fits⟩

/-- The count of milliseconds is cut off, and does not overflow where that of nanoseconds does not. -/
theorem Duration.toMSec_eq (d : Duration) : d.toMSec = d.toNSec.map (·.tdiv 1000000) := by
  unfold toMSec
  cases counted : d.toNSec with
  | none => rfl
  | some nsec =>
    obtain ⟨_, fits⟩ := toNSec_value counted
    show ratioTo 1 1000000 nsec = some (nsec.tdiv 1000000)
    rw [ratioTo, Int.mul_one, int64_iff.mpr ⟨fits, rfl⟩]
    rfl

end Hlib
