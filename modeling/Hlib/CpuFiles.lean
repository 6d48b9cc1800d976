import Hlib.CpuMonitor

namespace Hlib.CpuMonitor

open StringTo

variable {ε : Type} {content text : List Byte}

section Texts

theorem trim_subset (string : List Byte) : TestSuite.trim string ⊆ string := by
  have right : TestSuite.trim string ⊆ TestSuite.trimLeft string := (List.rdropWhile_prefix _ _).subset
  exact List.Subset.trans right (List.dropWhile_suffix _).subset

theorem denotes_ne_nil {value : Int} (h : Denotes text value) : text ≠ [] := by
  cases h with
  | plain digits => exact digits.1
  | plus | minus => exact List.cons_ne_nil _ _

/-- A number for `std::size_t` is converted if its digits are in range; a negative one is negated modulo 2 ^ 64. -/
theorem unsigned_some_iff (inside : 0 ∉ text) {size : Nat} :
    (unsignedOrThrow Libc.strtoul Libc.strtoull .eight text 10 0).1 = .ok size ↔
      ∃ value, Denotes text value ∧ value.natAbs < 2 ^ 64 ∧ size = (value % 2 ^ 64).toNat := by
  rw [(unsigned_agrees Libc.strtoul Libc.strtoull .eight text 10 0).value size]
  by_cases denotes : ∃ value, Denotes text value
  · obtain ⟨value, h⟩ := denotes
    have wraps : value % 2 ^ 64 < 2 ^ Width.eight.bits := Int.emod_lt_of_pos value (by decide)
    rw [unsigned_denotes h]
    constructor
    · intro converted
      split at converted
      next range =>
        cases converted
        exact ⟨value, h, range.1, rfl⟩
      next => cases converted
    · rintro ⟨value', h', range, rfl⟩
      rw [h.unique h'] at wraps ⊢
      rw [if_pos ⟨range, wraps⟩]
  · rw [unsigned_other denotes inside]
    refine iff_of_false (fun none => by cases none) ?_
    rintro ⟨value, h, _⟩
    exact denotes ⟨value, h⟩

end Texts

/-- A file without zeros gives a frequency just when a number of an `int` is all that stands in it between blanks;
any other content ends the program. -/
theorem cpuGetFrequency_iff (inside : 0 ∉ content) {frequency : Int} :
    cpuGetFrequency (.ok content : Except ε (List Byte)) = .ok (.ok frequency) ↔
      Denotes (TestSuite.trim content) frequency ∧ SignedRange .four frequency := by
  have unbroken : 0 ∉ TestSuite.trim content := fun member => inside (trim_subset content member)
  rw [← signed_some_iff unbroken .four 0 frequency,
    ← (signed_agrees Libc.strtol Libc.strtoll .four (TestSuite.trim content) 10 0).value frequency]
  unfold cpuGetFrequency
  constructor
  · intro h
    dsimp only at h
    split at h
    next => cases h
    next converted =>
      cases h
      exact converted
  · intro converted
    dsimp only
    rw [converted]

/-- What the last character of a cache size stands for. -/
def unitFactor (suffix : Option Byte) : Option Nat :=
  if suffix = some (ascii 'K') then some 1024
  else if suffix = some (ascii 'M') then some (1024 * 1024)
  else none

theorem scaled_unit (suffix : Option Byte) (size : Nat) :
    (if suffix = some (ascii 'K') then .ok (.ok (sizeT (size * 1024)))
      else if suffix = some (ascii 'M') then .ok (.ok (sizeT (size * (1024 * 1024))))
      else .error .uninitialised : Checked (Except ε Nat)) =
      (unitFactor suffix).elim (.error .uninitialised) fun factor => .ok (.ok (sizeT (size * factor))) := by
  unfold unitFactor
  split
  next => rfl
  next =>
    split
    next => rfl
    next => rfl

theorem sizeT_scaled (value : Int) (factor : Nat) :
    sizeT ((value % 2 ^ 64).toNat * factor) = (value * factor % 2 ^ 64).toNat := by
  have positive : 0 ≤ value % 2 ^ 64 := Int.emod_nonneg value (by decide)
  have reduced : value % 2 ^ 64 * factor % 2 ^ 64 = value * factor % 2 ^ 64 := by
    rw [Int.mul_emod, Int.emod_emod, ← Int.mul_emod]
  apply Int.ofNat_inj.mp
  rw [sizeT, Int.natCast_mod, Int.natCast_mul, Int.toNat_of_nonneg positive,
    Int.toNat_of_nonneg (Int.emod_nonneg _ (by decide))]
  exact reduced

/-- A file without zeros gives a size just when a number stands in it between blanks, its digits those of a
`std::size_t`, with at least one of the letters K and M behind it. The last letter counts, and the product is taken
modulo 2 ^ 64. -/
theorem cpuGetCacheSize_iff (inside : 0 ∉ content) {size : Nat} :
    cpuGetCacheSize (.ok content : Except ε (List Byte)) = .ok (.ok size) ↔
      ∃ value factor, Denotes ((TestSuite.trim content).rdropWhile [ascii 'K', ascii 'M'].contains) value ∧
        value.natAbs < 2 ^ 64 ∧ unitFactor (TestSuite.trim content).getLast? = some factor ∧
        size = (value * factor % 2 ^ 64).toNat := by
  have unbroken : 0 ∉ (TestSuite.trim content).rdropWhile [ascii 'K', ascii 'M'].contains := fun member =>
    inside (trim_subset content ((List.rdropWhile_prefix _ _).subset member))
  unfold cpuGetCacheSize
  dsimp only
  simp only [scaled_unit]
  constructor
  · intro h
    obtain ⟨_, given, h⟩ := bind_ok h
    split at h
    next => cases h
    next number converted =>
      obtain ⟨value, denotes, range, rfl⟩ := (unsigned_some_iff unbroken).mp converted
      cases unit : unitFactor (TestSuite.trim content).getLast? with
      | none =>
        rw [unit] at h
        cases h
      | some factor =>
        rw [unit] at h
        cases h
        exact ⟨value, factor, denotes, range, rfl, sizeT_scaled value factor⟩
  · rintro ⟨value, factor, denotes, range, unit, rfl⟩
    have given : TestSuite.trim content ≠ [] := by
      intro empty
      rw [empty] at denotes
      exact denotes_ne_nil denotes rfl
    rw [require, if_pos given, ok_bind, (unsigned_some_iff unbroken).mpr ⟨value, denotes, range, rfl⟩]
    dsimp only
    rw [unit, ← sizeT_scaled]
    rfl

example : cpuGetCacheSize (.ok (literal "32K\n") : Except Unit (List Byte)) = .ok (.ok 32768) := by decide

end Hlib.CpuMonitor
