import Hlib.Duration

namespace Hlib

/-- The nanoseconds of a `timespec`. -/
def nanosecondsOf (ts : Int × Int) : Int := ts.1 * 1000000000 + ts.2

structure Normalised (ts : Int × Int) : Prop where
  low : 0 ≤ ts.2
  high : ts.2 < 1000000000

instance (ts : Int × Int) : Decidable (Normalised ts) :=
  decidable_of_iff (0 ≤ ts.2 ∧ ts.2 < 1000000000) ⟨fun h => ⟨h.1, h.2⟩, fun h => ⟨h.low, h.high⟩⟩

/-- The sum of the seconds does not overflow, with the carry if there is one. -/
structure SumFits (lhs that : Int × Int) : Prop where
  low : -2 ^ 63 ≤ lhs.1 + that.1
  high : lhs.1 + that.1 < 2 ^ 63
  carry : 1000000000 ≤ lhs.2 + that.2 → lhs.1 + that.1 + 1 < 2 ^ 63

/-- The difference of the seconds does not overflow, with the borrow if there is one. -/
structure DifferenceFits (lhs that : Int × Int) : Prop where
  low : -2 ^ 63 ≤ lhs.1 - that.1
  high : lhs.1 - that.1 < 2 ^ 63
  borrow : lhs.2 < that.2 → -2 ^ 63 ≤ lhs.1 - that.1 - 1

/-- A normalised value with that many nanoseconds. -/
def Exactly (result : Option (Int × Int)) (nanoseconds : Int) : Prop :=
  ∃ ts, result = some ts ∧ Normalised ts ∧ nanosecondsOf ts = nanoseconds

def timespecEqual (lhs that : Int × Int) : Bool := lhs.1 = that.1 ∧ lhs.2 = that.2

def timespecLess (lhs that : Int × Int) : Bool :=
  lhs.1 < that.1 ∨ (lhs.1 = that.1 ∧ lhs.2 < that.2)

def timespecGreater (lhs that : Int × Int) : Bool :=
  lhs.1 > that.1 ∨ (lhs.1 = that.1 ∧ lhs.2 > that.2)

namespace Duration

def ts (d : Duration) : Int × Int := (d.tvSec, d.tvNsec)

def ofTs (ts : Int × Int) : Duration := ⟨ts.1, ts.2⟩

/-- `operator +`. -/
def add (d that : Duration) : Option Duration := (timespecAdd d.ts that.ts).map ofTs

/-- `operator -`. -/
def subtract (d that : Duration) : Option Duration := (timespecSubtract d.ts that.ts).map ofTs

/-- `operator +=`. -/
def addAssign (d that : Duration) : Option Duration := (timespecAdd d.ts that.ts).map ofTs

/-- `operator -=`. -/
def subtractAssign (d that : Duration) : Option Duration := (timespecSubtract d.ts that.ts).map ofTs

/-- `operator ==`. -/
def eq (d that : Duration) : Bool := timespecEqual d.ts that.ts

/-- `operator !=`. -/
def ne (d that : Duration) : Bool := !d.eq that

/-- `operator <`. -/
def lt (d that : Duration) : Bool := timespecLess d.ts that.ts

/-- `operator >`. -/
def gt (d that : Duration) : Bool := timespecGreater d.ts that.ts

/-- `operator <=`. -/
def le (d that : Duration) : Bool := !d.gt that

/-- `operator >=`. -/
def ge (d that : Duration) : Bool := !d.lt that

end Duration

namespace Clock

def ts (c : Clock) : Int × Int := (c.tvSec, c.tvNsec)

def ofTs (ts : Int × Int) : Clock := ⟨ts.1, ts.2⟩

/-- `operator -`, of a duration. -/
def subtractDuration (c : Clock) (that : Duration) : Option Clock :=
  (timespecSubtract c.ts that.ts).map ofTs

/-- `operator +=`. -/
def addAssign (c : Clock) (that : Duration) : Option Clock :=
  (timespecAdd c.ts that.ts).map fun result => { c with tvSec := result.1, tvNsec := result.2 }

/-- `operator -=`. -/
def subtractAssign (c : Clock) (that : Duration) : Option Clock :=
  (timespecSubtract c.ts that.ts).map fun result => { c with tvSec := result.1, tvNsec := result.2 }

/-- `operator ==`; a clock is compared with any `timespec`. -/
def eq (c : Clock) (that : Int × Int) : Bool := timespecEqual c.ts that

/-- `operator !=`. -/
def ne (c : Clock) (that : Int × Int) : Bool := !c.eq that

/-- `operator <`. -/
def lt (c : Clock) (that : Int × Int) : Bool := timespecLess c.ts that

/-- `operator >`. -/
def gt (c : Clock) (that : Int × Int) : Bool := timespecGreater c.ts that

/-- `operator <=`. -/
def le (c : Clock) (that : Int × Int) : Bool := !c.gt that

/-- `operator >=`. -/
def ge (c : Clock) (that : Int × Int) : Bool := !c.lt that

/-- The operator that `wait` compares by is this one. -/
theorem lt_iff (c that : Clock) : c.lt that.ts = true ↔ c.Before that := by
  unfold lt timespecLess
  exact decide_eq_true_iff

end Clock

section Timespec

variable {lhs that : Int × Int}

theorem Normalised.ext {ts ts' : Int × Int} (h : Normalised ts) (h' : Normalised ts')
    (same : nanosecondsOf ts = nanosecondsOf ts') : ts = ts' := by
  obtain ⟨low, high⟩ := h
  obtain ⟨low', high'⟩ := h'
  unfold nanosecondsOf at same
  refine Prod.ext ?_ ?_
  · omega
  · omega

theorem timespecAdd_exactly (h : Normalised lhs) (h' : Normalised that) (fits : SumFits lhs that) :
    Exactly (timespecAdd lhs that) (nanosecondsOf lhs + nanosecondsOf that) := by
  obtain ⟨low, high⟩ := h
  obtain ⟨low', high'⟩ := h'
  obtain ⟨above, below, carried⟩ := fits
  have sec : int64 (lhs.1 + that.1) = some (lhs.1 + that.1) := int64_iff.mpr ⟨⟨above, below⟩, rfl⟩
  have nsec : int64 (lhs.2 + that.2) = some (lhs.2 + that.2) :=
    int64_iff.mpr ⟨⟨by omega, by omega⟩, rfl⟩
  unfold timespecAdd Exactly nanosecondsOf
  rw [sec, nsec]
  simp only [Option.bind_eq_bind, Option.bind_some]
  by_cases carry : 1000000000 ≤ lhs.2 + that.2
  · have more : int64 (lhs.1 + that.1 + 1) = some (lhs.1 + that.1 + 1) :=
      int64_iff.mpr ⟨⟨by omega, carried carry⟩, rfl⟩
    rw [if_pos carry, more]
    refine ⟨_, rfl, ⟨?_, ?_⟩, ?_⟩
    · show 0 ≤ lhs.2 + that.2 - 1000000000
      omega
    · show lhs.2 + that.2 - 1000000000 < 1000000000
      omega
    · show (lhs.1 + that.1 + 1) * 1000000000 + (lhs.2 + that.2 - 1000000000) = _
      omega
  · rw [if_neg carry]
    refine ⟨_, rfl, ⟨?_, ?_⟩, ?_⟩
    · show 0 ≤ lhs.2 + that.2
      omega
    · show lhs.2 + that.2 < 1000000000
      omega
    · show (lhs.1 + that.1) * 1000000000 + (lhs.2 + that.2) = _
      omega

theorem timespecSubtract_exactly (h : Normalised lhs) (h' : Normalised that)
    (fits : DifferenceFits lhs that) :
    Exactly (timespecSubtract lhs that) (nanosecondsOf lhs - nanosecondsOf that) := by
  obtain ⟨low, high⟩ := h
  obtain ⟨low', high'⟩ := h'
  obtain ⟨above, below, borrowed⟩ := fits
  have sec : int64 (lhs.1 - that.1) = some (lhs.1 - that.1) := int64_iff.mpr ⟨⟨above, below⟩, rfl⟩
  have nsec : int64 (lhs.2 - that.2) = some (lhs.2 - that.2) :=
    int64_iff.mpr ⟨⟨by omega, by omega⟩, rfl⟩
  unfold timespecSubtract Exactly nanosecondsOf
  rw [sec, nsec]
  simp only [Option.bind_eq_bind, Option.bind_some]
  by_cases borrow : lhs.2 - that.2 < 0
  · have less : int64 (lhs.1 - that.1 - 1) = some (lhs.1 - that.1 - 1) :=
      int64_iff.mpr ⟨⟨borrowed (by omega), by omega⟩, rfl⟩
    rw [if_pos borrow, less]
    refine ⟨_, rfl, ⟨?_, ?_⟩, ?_⟩
    · show 0 ≤ lhs.2 - that.2 + 1000000000
      omega
    · show lhs.2 - that.2 + 1000000000 < 1000000000
      omega
    · show (lhs.1 - that.1 - 1) * 1000000000 + (lhs.2 - that.2 + 1000000000) = _
      omega
  · rw [if_neg borrow]
    refine ⟨_, rfl, ⟨?_, ?_⟩, ?_⟩
    · show 0 ≤ lhs.2 - that.2
      omega
    · show lhs.2 - that.2 < 1000000000
      omega
    · show (lhs.1 - that.1) * 1000000000 + (lhs.2 - that.2) = _
      omega

theorem timespecEqual_iff (h : Normalised lhs) (h' : Normalised that) :
    timespecEqual lhs that = true ↔ nanosecondsOf lhs = nanosecondsOf that := by
  obtain ⟨low, high⟩ := h
  obtain ⟨low', high'⟩ := h'
  unfold timespecEqual nanosecondsOf
  rw [decide_eq_true_iff]
  omega

theorem timespecLess_iff (h : Normalised lhs) (h' : Normalised that) :
    timespecLess lhs that = true ↔ nanosecondsOf lhs < nanosecondsOf that := by
  obtain ⟨low, high⟩ := h
  obtain ⟨low', high'⟩ := h'
  unfold timespecLess nanosecondsOf
  rw [decide_eq_true_iff]
  omega

theorem timespecGreater_iff (h : Normalised lhs) (h' : Normalised that) :
    timespecGreater lhs that = true ↔ nanosecondsOf that < nanosecondsOf lhs := by
  obtain ⟨low, high⟩ := h
  obtain ⟨low', high'⟩ := h'
  unfold timespecGreater nanosecondsOf
  rw [decide_eq_true_iff]
  omega

/-- The six comparisons are those of two numbers. -/
structure Compares (n m : Int) (eq ne lt gt le ge : Bool) : Prop where
  eq : eq = true ↔ n = m
  ne : ne = true ↔ n ≠ m
  lt : lt = true ↔ n < m
  gt : gt = true ↔ n > m
  le : le = true ↔ n ≤ m
  ge : ge = true ↔ n ≥ m

theorem timespec_compares (h : Normalised lhs) (h' : Normalised that) :
    Compares (nanosecondsOf lhs) (nanosecondsOf that) (timespecEqual lhs that)
      (!timespecEqual lhs that) (timespecLess lhs that) (timespecGreater lhs that)
      (!timespecGreater lhs that) (!timespecLess lhs that) := by
  have eq := timespecEqual_iff h h'
  have lt := timespecLess_iff h h'
  have gt := timespecGreater_iff h h'
  refine ⟨eq, ?_, lt, gt, ?_, ?_⟩
  · rw [Bool.not_eq_true', ← Bool.not_eq_true, eq]
  · rw [Bool.not_eq_true', ← Bool.not_eq_true, gt, Int.not_lt]
  · rw [Bool.not_eq_true', ← Bool.not_eq_true, lt, Int.not_lt]

end Timespec

section Operators

theorem Exactly.map {α : Type} {result : Option (Int × Int)} {nanoseconds : Int}
    (h : Exactly result nanoseconds) {make : Int × Int → α} {ts : α → Int × Int}
    (kept : ∀ pair, ts (make pair) = pair) : Exactly ((result.map make).map ts) nanoseconds := by
  obtain ⟨pair, rfl, h⟩ := h
  exact ⟨pair, congrArg some (kept pair), h⟩

/-- What is taken off again leaves what was there before. -/
theorem subtract_sum {lhs that sum : Int × Int} (h : Normalised lhs) (h' : Normalised that)
    (fits : SumFits lhs that) (added : timespecAdd lhs that = some sum)
    (back : DifferenceFits sum that) : timespecSubtract sum that = some lhs := by
  obtain ⟨sum', added', normalised, total⟩ := timespecAdd_exactly h h' fits
  rw [added] at added'
  cases added'
  obtain ⟨rest, taken, restNormalised, remains⟩ := timespecSubtract_exactly normalised h' back
  have same : rest = lhs := by
    apply restNormalised.ext h
    rw [remains, total]
    omega
  rw [taken, same]

theorem negative_difference {lhs that rest : Int × Int} (h : Normalised lhs) (h' : Normalised that)
    (fits : DifferenceFits lhs that) (taken : timespecSubtract lhs that = some rest) :
    timespecLess lhs that = true ↔ nanosecondsOf rest < 0 := by
  obtain ⟨rest', taken', _, value⟩ := timespecSubtract_exactly h h' fits
  rw [taken] at taken'
  cases taken'
  rw [timespecLess_iff h h', value]
  omega

structure DurationArithmetic (a b : Duration) : Prop where
  add : SumFits a.ts b.ts →
    Exactly ((a.add b).map Duration.ts) (a.nanoseconds + b.nanoseconds)
  addAssign : SumFits a.ts b.ts →
    Exactly ((a.addAssign b).map Duration.ts) (a.nanoseconds + b.nanoseconds)
  subtract : DifferenceFits a.ts b.ts →
    Exactly ((a.subtract b).map Duration.ts) (a.nanoseconds - b.nanoseconds)
  subtractAssign : DifferenceFits a.ts b.ts →
    Exactly ((a.subtractAssign b).map Duration.ts) (a.nanoseconds - b.nanoseconds)
  compares : Compares a.nanoseconds b.nanoseconds (a.eq b) (a.ne b) (a.lt b) (a.gt b) (a.le b) (a.ge b)
  back : SumFits a.ts b.ts → ∀ sum ∈ a.add b, DifferenceFits sum.ts b.ts → sum.subtract b = some a
  negative : DifferenceFits a.ts b.ts → ∀ rest ∈ a.subtract b, (a.lt b = true ↔ rest.nanoseconds < 0)

structure ClockArithmetic (c c' : Clock) (d : Duration) : Prop where
  add : SumFits c.ts d.ts → Exactly ((c.add d).map Clock.ts) (c.nanoseconds + d.nanoseconds)
  addAssign : SumFits c.ts d.ts →
    Exactly ((c.addAssign d).map Clock.ts) (c.nanoseconds + d.nanoseconds)
  subtractDuration : DifferenceFits c.ts d.ts →
    Exactly ((c.subtractDuration d).map Clock.ts) (c.nanoseconds - d.nanoseconds)
  subtractAssign : DifferenceFits c.ts d.ts →
    Exactly ((c.subtractAssign d).map Clock.ts) (c.nanoseconds - d.nanoseconds)
  subtract : DifferenceFits c.ts c'.ts →
    Exactly ((c.subtract c').map Duration.ts) (c.nanoseconds - c'.nanoseconds)
  compares : Compares c.nanoseconds c'.nanoseconds (c.eq c'.ts) (c.ne c'.ts) (c.lt c'.ts) (c.gt c'.ts)
    (c.le c'.ts) (c.ge c'.ts)
  comparesDuration : Compares c.nanoseconds d.nanoseconds (c.eq d.ts) (c.ne d.ts) (c.lt d.ts) (c.gt d.ts)
    (c.le d.ts) (c.ge d.ts)
  back : SumFits c.ts d.ts → ∀ sum ∈ c.add d, DifferenceFits sum.ts d.ts →
    sum.subtractDuration d = some c
  negative : DifferenceFits c.ts c'.ts → ∀ rest ∈ c.subtract c',
    (c.lt c'.ts = true ↔ rest.nanoseconds < 0)

theorem duration_arithmetic {a b : Duration} (ha : Normalised a.ts) (hb : Normalised b.ts) :
    DurationArithmetic a b := by
  have kept (pair : Int × Int) : (Duration.ofTs pair).ts = pair := rfl
  have sum (fits : SumFits a.ts b.ts) := (timespecAdd_exactly ha hb fits).map kept
  have difference (fits : DifferenceFits a.ts b.ts) := (timespecSubtract_exactly ha hb fits).map kept
  refine ⟨sum, sum, difference, difference, timespec_compares ha hb, ?_, ?_⟩
  · intro fits sum result back
    obtain ⟨pair, added, rfl⟩ := Option.map_eq_some_iff.mp result
    exact congrArg (Option.map Duration.ofTs) (subtract_sum ha hb fits added back)
  · intro fits rest result
    obtain ⟨pair, taken, rfl⟩ := Option.map_eq_some_iff.mp result
    exact negative_difference ha hb fits taken

theorem clock_arithmetic {c c' : Clock} {d : Duration} (hc : Normalised c.ts) (hc' : Normalised c'.ts)
    (hd : Normalised d.ts) : ClockArithmetic c c' d := by
  have kept (pair : Int × Int) : (Clock.ofTs pair).ts = pair := rfl
  have keptDuration (pair : Int × Int) : (Duration.ofTs pair).ts = pair := rfl
  have sum (fits : SumFits c.ts d.ts) := (timespecAdd_exactly hc hd fits).map kept
  have difference (fits : DifferenceFits c.ts d.ts) := (timespecSubtract_exactly hc hd fits).map kept
  have between (fits : DifferenceFits c.ts c'.ts) :=
    (timespecSubtract_exactly hc hc' fits).map keptDuration
  refine ⟨sum, sum, difference, difference, between, timespec_compares hc hc', timespec_compares hc hd,
    ?_, ?_⟩
  · intro fits sum result back
    obtain ⟨pair, added, rfl⟩ := Option.map_eq_some_iff.mp result
    exact congrArg (Option.map Clock.ofTs) (subtract_sum hc hd fits added back)
  · intro fits rest result
    obtain ⟨pair, taken, rfl⟩ := Option.map_eq_some_iff.mp result
    exact negative_difference hc hc' fits taken

/-- Durations and clocks compute as their nanoseconds do. -/
theorem nanosecond_arithmetic (a b : Duration) (c c' : Clock) (ha : Normalised a.ts)
    (hb : Normalised b.ts) (hc : Normalised c.ts) (hc' : Normalised c'.ts) :
    DurationArithmetic a b ∧ ClockArithmetic c c' a :=
  ⟨duration_arithmetic ha hb, clock_arithmetic hc hc' ha⟩

theorem nanosecond_arithmetic_sample :
    DurationArithmetic ⟨-1, 999999999⟩ ⟨0, 1⟩ ∧ ClockArithmetic ⟨5, 0⟩ ⟨4, 999999999⟩ ⟨-1, 999999999⟩ :=
  nanosecond_arithmetic ⟨-1, 999999999⟩ ⟨0, 1⟩ ⟨5, 0⟩ ⟨4, 999999999⟩ (by decide) (by decide) (by decide)
    (by decide)

end Operators

end Hlib
