import Hlib.ClockText

namespace Hlib

open Calendar Overwrite

namespace Clock

theorem contains_iff {text : List Byte} {c : Char} : contains text c = true ↔ ascii c ∈ text := by
  rw [contains, decide_eq_true_iff]

theorem contains_eq_false {text : List Byte} {c : Char} (h : ascii c ∉ text) : contains text c = false := by
  rw [contains, decide_eq_false_iff_not]
  exact h

theorem strptime_utc (tm : Tm) : strptime [ascii 'Z', 0] ['%', 'z'] tm = some ([0], { tm with gmtoff := 0 }) := by
  rfl

/-- The branch without a fraction of a second. -/
theorem toClock_whole {text r : List Byte} {tm : Tm} (letter : ascii 'T' ∈ text) (dot : ascii '.' ∉ text)
    (read : strptime (text ++ [0]) (stampFormat ++ ['%', 'z']) {} = some (r, tm))
    (finish : r.head? = some 0) : toClock text = .ok (some ⟨timegm tm, 0⟩) := by
  have parsed : parse (text ++ [0]) "%Y-%m-%dT%H:%M:%S%z".toList = some tm := by
    show (strptime (text ++ [0]) (stampFormat ++ ['%', 'z']) {} >>= _) = _
    rw [read]
    exact if_pos finish
  simp only [toClock, contains_iff.mpr letter, contains_eq_false dot, parsed, Bool.true_eq_false, if_true,
    if_false]
  rfl

section Fraction

variable {text r r' : List Byte} {tm tm' : Tm} {milliseconds : Int}

/-- The branch with a fraction of a second, from the point on. -/
theorem toClock_scanned (letter : ascii 'T' ∈ text) (dot : ascii '.' ∈ text)
    (read : strptime (text ++ [0]) stampFormat {} = some (ascii '.' :: r, tm))
    (scanned : sscanfMilliseconds (ascii '.' :: r) = some milliseconds) :
    toClock text = (require (3 < r.length) .outOfBounds >>= fun _ =>
      match strptime (r.drop 3) ['%', 'z'] tm with
      | none => .ok none
      | some (r, tm) =>
        if r.head? ≠ some 0 then .ok none else .ok (some ⟨timegm tm, milliseconds * 1000000⟩)) := by
  have stamped : strptime (text ++ [0]) "%Y-%m-%dT%H:%M:%S".toList {} = some (ascii '.' :: r, tm) := read
  have room : 4 < (ascii '.' :: r).length ↔ 3 < r.length := by
    rw [List.length_cons]
    omega
  simp only [toClock, contains_iff.mpr letter, contains_iff.mpr dot, stamped, scanned, Bool.true_eq_false,
    if_false, List.head?_cons, ne_eq, not_true, room]
  rfl

/-- Nothing is read beyond the end, and the string is rejected. -/
theorem toClock_rejected (letter : ascii 'T' ∈ text) (dot : ascii '.' ∈ text)
    (h : ∀ r tm, strptime (text ++ [0]) stampFormat {} = some (ascii '.' :: r, tm) →
      sscanfMilliseconds (ascii '.' :: r) = none) : toClock text = .ok none := by
  have stamp : strptime (text ++ [0]) "%Y-%m-%dT%H:%M:%S".toList {} =
      strptime (text ++ [0]) stampFormat {} := rfl
  simp only [toClock, contains_iff.mpr letter, contains_iff.mpr dot, stamp, Bool.true_eq_false, if_false]
  cases read : strptime (text ++ [0]) stampFormat {} with
  | none => rfl
  | some result =>
    obtain ⟨r, tm⟩ := result
    cases r with
    | nil => rfl
    | cons c r =>
      by_cases point : c = ascii '.'
      · subst point
        simp only [List.head?_cons, ne_eq, not_true, if_false, h r tm read]
      · have other : (c :: r).head? ≠ some (ascii '.') := fun same => point (Option.some.inj same)
        exact if_pos other

/-- A string with a point in it is rejected in front of the zone, or a number is scanned. -/
theorem toClock_scans (letter : ascii 'T' ∈ text) (dot : ascii '.' ∈ text) :
    (∃ r tm milliseconds, strptime (text ++ [0]) stampFormat {} = some (ascii '.' :: r, tm) ∧
        sscanfMilliseconds (ascii '.' :: r) = some milliseconds) ∨ toClock text = .ok none := by
  by_cases scans : ∃ r tm milliseconds, strptime (text ++ [0]) stampFormat {} = some (ascii '.' :: r, tm) ∧
      sscanfMilliseconds (ascii '.' :: r) = some milliseconds
  · exact .inl scans
  · right
    apply toClock_rejected letter dot
    intro r tm read
    by_contra given
    obtain ⟨milliseconds, scanned⟩ := Option.ne_none_iff_exists'.mp given
    exact scans ⟨r, tm, milliseconds, read, scanned⟩

/-- The branch with a fraction of a second, if it is read to its end. -/
theorem toClock_fraction (letter : ascii 'T' ∈ text) (dot : ascii '.' ∈ text)
    (read : strptime (text ++ [0]) stampFormat {} = some (ascii '.' :: r, tm))
    (scanned : sscanfMilliseconds (ascii '.' :: r) = some milliseconds) (room : 3 < r.length)
    (zoned : strptime (r.drop 3) ['%', 'z'] tm = some (r', tm')) (finish : r'.head? = some 0) :
    toClock text = .ok (some ⟨timegm tm', milliseconds * 1000000⟩) := by
  rw [toClock_scanned letter dot read scanned, require_of room, ok_bind, zoned]
  exact if_neg fun other => other finish

end Fraction

theorem millisecondsText_eq {clock : Clock} (nsec : 0 ≤ clock.tvNsec ∧ clock.tvNsec < 10 ^ 9) :
    clock.millisecondsText = zeroPadded 3 ((clock.tvNsec / 1000000).toNat : Nat) := by
  have small : 0 ≤ clock.tvNsec / 1000000 ∧ clock.tvNsec / 1000000 < 1000 := by omega
  have value : (clock.tvNsec.tdiv 1000000).tmod 1000 = ((clock.tvNsec / 1000000).toNat : Nat) := by
    rw [Int.tdiv_eq_ediv_of_nonneg nsec.1, Int.tmod_eq_emod_of_nonneg small.1]
    omega
  rw [millisecondsText, value]

/-- What the two formatters write of a time in the years that have four digits. -/
theorem toStringUtc_text {clock : Clock} {year month day hour minute second : Nat}
    (long : 1000 ≤ year) (short : year ≤ 9999) (valid : InRange month day hour minute second)
    (fields : gmtime clock.tvSec = some ⟨year - 1900, month - 1, day, hour, minute, second, 0⟩) :
    toStringUtcDateAndTime clock = .ok (stampOf year month day hour minute second ++ [ascii 'Z']) ∧
      toStringUtc clock false = .ok (stampOf year month day hour minute second ++ [ascii 'Z']) := by
  have length := stampOf_length long short valid
  have zero : 0 ∉ stampOf year month day hour minute second ++ [ascii 'Z'] := by
    rw [List.mem_append]
    rintro (stamp | letter)
    · exact not_mem_stampOf (by decide) (by decide) year month day hour minute second stamp
    · exact absurd letter (by decide)
  have text := expand_utc year month day hour minute second
  have fits : (stampOf year month day hour minute second ++ [ascii 'Z']).length = 20 := by
    rw [List.length_append, length]
    rfl
  constructor
  · rw [toStringUtcDateAndTime, fields, strftime_fits text (by omega), ok_bind, toStdString_terminated zero]
  · rw [toStringUtc, fields, strftime_fits text (by omega), ok_bind, if_neg (by decide),
      toStdString_terminated zero]

theorem toStringUtc_milliseconds {clock : Clock} {year month day hour minute second : Nat}
    (long : 1000 ≤ year) (short : year ≤ 9999) (valid : InRange month day hour minute second)
    (nsec : 0 ≤ clock.tvNsec ∧ clock.tvNsec < 10 ^ 9)
    (fields : gmtime clock.tvSec = some ⟨year - 1900, month - 1, day, hour, minute, second, 0⟩) :
    toStringUtc clock true = .ok (stampOf year month day hour minute second ++
      ascii '.' :: (zeroPadded 3 ((clock.tvNsec / 1000000).toNat : Nat) ++ [ascii 'Z'])) := by
  have length := stampOf_length long short valid
  have text := expand_utc year month day hour minute second
  have fits : (stampOf year month day hour minute second ++ [ascii 'Z']).length = 20 := by
    rw [List.length_append, length]
    rfl
  have three : (zeroPadded 3 ((clock.tvNsec / 1000000).toNat : Nat)).length = 3 :=
    zeroPadded_length (by omega) (by omega)
  have patch : (ascii '.' :: (zeroPadded 3 ((clock.tvNsec / 1000000).toNat : Nat) ++ [ascii 'Z'])).length < 6 := by
    rw [List.length_cons, List.length_append, three]
    decide
  have zero : 0 ∉ stampOf year month day hour minute second ++
      ascii '.' :: (zeroPadded 3 ((clock.tvNsec / 1000000).toNat : Nat) ++ [ascii 'Z']) := by
    simp only [List.mem_append, List.mem_cons]
    rintro (stamp | point | number | letter | nothing)
    · exact not_mem_stampOf (by decide) (by decide) year month day hour minute second stamp
    · exact absurd point (by decide)
    · exact absurd (zeroPadded_digits number) (by decide)
    · exact absurd letter (by decide)
    · cases nothing
  have room : ([ascii 'Z'].map some ++ some 0 :: List.replicate (25 - (20 + 1)) (none : Cell)).length =
      25 - 19 := rfl
  rw [toStringUtc, fields, strftime_fits text (by omega), ok_bind, if_pos rfl, millisecondsText_eq nsec,
    List.map_append, List.append_assoc, fits, snprintf_last length room patch, toStdString_terminated zero]

/-- The formatters and the parser agree, up to what the texts leave out. -/
theorem toClock_toStringUtc (clock : Clock) (since : 0 ≤ clock.tvSec)
    (year : (civilFromDays (clock.tvSec / 86400)).year ≤ 9999)
    (nsec : 0 ≤ clock.tvNsec ∧ clock.tvNsec < 10 ^ 9) :
    (toStringUtc clock true >>= toClock) =
        .ok (some ⟨clock.tvSec, clock.tvNsec / 1000000 * 1000000⟩) ∧
      (toStringUtc clock false >>= toClock) = .ok (some ⟨clock.tvSec, 0⟩) ∧
      (toStringUtcDateAndTime clock >>= toClock) = .ok (some ⟨clock.tvSec, 0⟩) := by
  have late : 1970 ≤ (civilFromDays (clock.tvSec / 86400)).year := civilFromDays_year (by omega)
  obtain ⟨year', month, day, hour, minute, second, same, valid, fields⟩ :=
    gmtime_stamp (by omega) year
  have long : 1000 ≤ year' := by omega
  have short : year' ≤ 9999 := by omega
  obtain ⟨dateAndTime, whole⟩ := toStringUtc_text long short valid fields
  have fraction := toStringUtc_milliseconds long short valid nsec fields
  have seconds : timegm ⟨year' - 1900, month - 1, day, hour, minute, second, 0⟩ = clock.tvSec :=
    timegm_gmtime fields
  have letter := letter_mem_stampOf year' month day hour minute second
  have parsed : toClock (stampOf year' month day hour minute second ++ [ascii 'Z']) =
      .ok (some ⟨clock.tvSec, 0⟩) := by
    have dot : ascii '.' ∉ stampOf year' month day hour minute second ++ [ascii 'Z'] := by
      rw [List.mem_append]
      rintro (stamp | last)
      · exact not_mem_stampOf (by decide) (by decide) year' month day hour minute second stamp
      · exact absurd last (by decide)
    have read := strptime_stampOf short valid [ascii 'Z', 0] ['%', 'z'] {}
    rw [strptime_utc] at read
    have whole := toClock_whole (List.mem_append_left _ letter) dot
      (by rw [List.append_assoc]; exact read) rfl
    rw [whole, ← seconds]
  refine ⟨?_, ?_, ?_⟩
  · rw [fraction, ok_bind]
    have milliseconds : (((clock.tvNsec / 1000000).toNat : Nat) : Int) = clock.tvNsec / 1000000 := by
      omega
    have three : (zeroPadded 3 ((clock.tvNsec / 1000000).toNat : Nat)).length = 3 :=
      zeroPadded_length (by omega) (by omega)
    have read := strptime_stampOf short valid
      (ascii '.' :: (zeroPadded 3 ((clock.tvNsec / 1000000).toNat : Nat) ++ [ascii 'Z', 0])) [] {}
    rw [← seconds, ← milliseconds]
    apply toClock_fraction (List.mem_append_left _ letter)
      (List.mem_append_right _ List.mem_cons_self) (r := zeroPadded 3 _ ++ [ascii 'Z', 0])
    · rw [List.append_assoc, List.cons_append, List.append_assoc]
      exact read
    · exact sscanfMilliseconds_padded (by omega) _
    · rw [List.length_append, three]
      decide
    · rw [List.drop_left' three]
      exact strptime_utc _
    · rfl
  · rw [whole, ok_bind]
    exact parsed
  · rw [dateAndTime, ok_bind]
    exact parsed

theorem toClock_toStringUtc_sample :
    (toStringUtc ⟨1709201472, 123456789⟩ true >>= toClock) = .ok (some ⟨1709201472, 123000000⟩) :=
  (toClock_toStringUtc ⟨1709201472, 123456789⟩ (by decide) (by decide) (by decide)).1

end Clock

end Hlib
