import Hlib.ClockRoundTrip

namespace Hlib

open Calendar

theorem gmtime_midnight {time : Int} {tm : Tm} (h : gmtime time = some tm) :
    gmtime (time - time % 86400) = some { tm with hour := 0, min := 0, sec := 0 } := by
  have day : (time - time % 86400) / 86400 = time / 86400 := by omega
  have rem : (time - time % 86400) % 86400 = 0 := by omega
  unfold gmtime at h ⊢
  simp only [day, rem] at h ⊢
  split at h
  next given =>
    cases h
    rw [if_pos given]
    rfl
  next => cases h

namespace Clock

def toStringUtcDate (clock : Clock) : Checked (List Byte) := do
  let string ← strftime (List.replicate 12 none) "%Y-%m-%dZ".toList (gmtime clock.tvSec)
  toStdString string

/-- The date, read back, is the beginning of the day. -/
def DateReadBack (clock : Clock) : Prop :=
  (toStringUtcDate clock >>= toClock) = .ok (some ⟨clock.tvSec - clock.tvSec % 86400, 0⟩)

def dateFormat : List Char := "%Y-%m-%d".toList

def dateText (year month day : Nat) : List Byte :=
  decimal year ++ ascii '-' :: (zeroPadded 2 month ++ ascii '-' :: zeroPadded 2 day)

theorem dateFormat_toList (more : List Char) : dateFormat ++ more =
    '%' :: 'Y' :: '-' :: '%' :: 'm' :: '-' :: '%' :: 'd' :: more := rfl

theorem expand_date (year month day hour minute second : Nat) (gmtoff : Int) (more : List Char) :
    expand (dateFormat ++ more) ⟨year - 1900, month - 1, day, hour, minute, second, gmtoff⟩ =
      dateText year month day ++
        expand more ⟨year - 1900, month - 1, day, hour, minute, second, gmtoff⟩ := by
  have dash : '-' ≠ '%' := by decide
  have month_ : printed 'm' ⟨year - 1900, month - 1, day, hour, minute, second, gmtoff⟩ =
      zeroPadded 2 month := by
    show zeroPadded 2 ((month : Int) - 1 + 1) = _
    rw [Int.sub_add_cancel]
  have day_ : printed 'd' ⟨year - 1900, month - 1, day, hour, minute, second, gmtoff⟩ =
      zeroPadded 2 day := rfl
  rw [dateFormat_toList, expand_conversion, expand_literal dash, expand_conversion, expand_literal dash,
    expand_conversion, printed_year, month_, day_, dateText]
  simp only [List.append_assoc, List.cons_append]

theorem mem_dateText {year month day : Nat} {c : Byte} (h : c ∈ dateText year month day) :
    isDigit c = true ∨ c = ascii '-' := by
  simp only [dateText, List.mem_append, List.mem_cons] at h
  rcases h with h | h | h | h | h
  · exact .inl (isDigit_decimal h)
  · exact .inr h
  · exact .inl (zeroPadded_digits h)
  · exact .inr h
  · exact .inl (zeroPadded_digits h)

theorem not_mem_dateText {c : Byte} (digit : isDigit c = false) (dash : c ≠ ascii '-')
    (year month day : Nat) : c ∉ dateText year month day := by
  intro h
  rcases mem_dateText h with number | same
  · rw [digit] at number
    cases number
  · exact dash same

theorem dateText_length_le {year month day : Nat} (hy : year ≤ 9999) (hm : month < 100)
    (hd : day < 100) : (dateText year month day).length ≤ 10 := by
  have four : (decimal year).length ≤ 4 := decimal_length_le (by omega) (by omega)
  have two {n : Nat} (h : n < 10 ^ 2) : (zeroPadded 2 n).length = 2 := zeroPadded_length (by omega) h
  simp only [dateText, List.length_append, List.length_cons]
  rw [two (by omega), two (by omega)]
  omega

/-- A date is read to its end, whatever follows it. -/
theorem strptime_date {year month day : Nat} (hy : year ≤ 9999) (hm : 1 ≤ month ∧ month ≤ 12)
    (hd : 1 ≤ day ∧ day ≤ 31) (rest : List Byte) :
    strptime (dateText year month day ++ rest) dateFormat {} =
      some (rest, ⟨year - 1900, month - 1, day, 0, 0, 0, 0⟩) := by
  have dash : '-' ≠ '%' := by decide
  have year_ (rest : List Byte) : convert 'Y' (decimal year ++ ascii '-' :: rest) {} =
      some (ascii '-' :: rest, { year := (year : Int) - 1900 }) := by
    show (getNumber 0 9999 4 _).map _ = _
    rw [getNumber_year hy]
    rfl
  rw [← List.append_nil dateFormat, dateFormat_toList, dateText, List.append_assoc, List.cons_append,
    List.append_assoc, List.cons_append, strptime_conversion (year_ _), strptime_literal dash,
    strptime_two readsMonth (by omega) (by omega) (by omega), strptime_literal dash,
    strptime_two readsDay (by omega) (by omega) (by omega)]
  rfl

theorem toStringUtcDate_text {clock : Clock} {year month day hour minute second : Nat} (hy : year ≤ 9999)
    (valid : InRange month day hour minute second)
    (fields : gmtime clock.tvSec = some ⟨year - 1900, month - 1, day, hour, minute, second, 0⟩) :
    toStringUtcDate clock = .ok (dateText year month day ++ [ascii 'Z']) := by
  obtain ⟨hmonth, hday, _⟩ := valid
  have length := @dateText_length_le year month day hy (by omega) (by omega)
  have text : expand "%Y-%m-%dZ".toList ⟨year - 1900, month - 1, day, hour, minute, second, 0⟩ =
      dateText year month day ++ [ascii 'Z'] :=
    expand_date year month day hour minute second 0 ['Z']
  have zero : 0 ∉ dateText year month day ++ [ascii 'Z'] := by
    rw [List.mem_append]
    rintro (date | last)
    · exact not_mem_dateText (by decide) (by decide) year month day date
    · exact absurd last (by decide)
  have fits : (dateText year month day ++ [ascii 'Z']).length < 12 := by
    rw [List.length_append, List.length_singleton]
    omega
  rw [toStringUtcDate, fields, strftime_fits text fits, ok_bind, toStdString_terminated zero]

/-- A text with a date in front and no time is accepted if nothing stands behind the date. -/
theorem toClock_date {year month day : Nat} (hy : year ≤ 9999) (hm : 1 ≤ month ∧ month ≤ 12)
    (hd : 1 ≤ day ∧ day ≤ 31) {more : List Byte} (letter : ascii 'T' ∉ more) :
    toClock (dateText year month day ++ more) =
      .ok (if (more ++ [0]).head? = some 0 then
        some ⟨timegm ⟨year - 1900, month - 1, day, 0, 0, 0, 0⟩, 0⟩ else none) := by
  have dated : ascii 'T' ∉ dateText year month day ++ more := by
    rw [List.mem_append, not_or]
    exact ⟨not_mem_dateText (by decide) (by decide) year month day, letter⟩
  have read := strptime_date hy hm hd (more ++ [0])
  rw [← List.append_assoc] at read
  have parsed : parse (dateText year month day ++ more ++ [0]) dateFormat =
      if (more ++ [0]).head? = some 0 then some ⟨year - 1900, month - 1, day, 0, 0, 0, 0⟩ else none := by
    rw [parse, read]
    rfl
  unfold toClock
  simp only
  rw [contains_eq_false dated, if_pos rfl]
  show Except.ok ((parse _ dateFormat).map _) = _
  rw [parsed]
  split
  next => rfl
  next => rfl

/-- The date alone is the beginning of the day. -/
theorem toClock_dateText {clock : Clock} (since : 0 ≤ clock.tvSec)
    (year : (civilFromDays (clock.tvSec / 86400)).year ≤ 9999) :
    ∃ text, toStringUtcDate clock = .ok (text ++ [ascii 'Z']) ∧
      toClock (text ++ [ascii 'Z']) = .ok none ∧
      toClock text = .ok (some ⟨clock.tvSec - clock.tvSec % 86400, 0⟩) := by
  have late : 1970 ≤ (civilFromDays (clock.tvSec / 86400)).year := civilFromDays_year (by omega)
  obtain ⟨year', month, day, hour, minute, second, same, valid, fields⟩ := gmtime_stamp (by omega) year
  have short : year' ≤ 9999 := by omega
  have written := toStringUtcDate_text short valid fields
  obtain ⟨hmonth, hday, _⟩ := valid
  refine ⟨_, written, ?_, ?_⟩
  · rw [toClock_date short hmonth hday (by decide), if_neg (by decide)]
  · have read := @toClock_date year' month day short hmonth hday [] List.not_mem_nil
    rw [List.append_nil] at read
    have midnight := timegm_gmtime (gmtime_midnight fields)
    rw [read, ← midnight]
    rfl

/-- The parser does not know the `Z` that the formatter puts behind the date. -/
theorem date_unreadable (clock : Clock) (since : 0 ≤ clock.tvSec)
    (year : (civilFromDays (clock.tvSec / 86400)).year ≤ 9999) :
    ¬DateReadBack clock ∧ (toStringUtcDate clock >>= toClock) = .ok none := by
  obtain ⟨text, written, refused, _⟩ := toClock_dateText since year
  have thrown : (toStringUtcDate clock >>= toClock) = .ok none := by
    rw [written, ok_bind]
    exact refused
  refine ⟨?_, thrown⟩
  intro back
  rw [DateReadBack, thrown] at back
  cases back

theorem date_unreadable_sample : (toStringUtcDate ⟨1709201472, 0⟩ >>= toClock) = .ok none :=
  (date_unreadable ⟨1709201472, 0⟩ (by decide) (by decide)).2

theorem epoch_unreadable :
    toStringUtcDate ⟨0, 0⟩ = .ok (literal "1970-01-01Z") ∧ toClock (literal "1970-01-01Z") = .ok none ∧
      ¬DateReadBack ⟨0, 0⟩ := by
  have written : toStringUtcDate ⟨0, 0⟩ = .ok (literal "1970-01-01Z") := by decide +kernel
  have refused : toClock (literal "1970-01-01Z") = .ok none := by decide +kernel
  refine ⟨written, refused, ?_⟩
  unfold DateReadBack
  rw [written, ok_bind, refused]
  exact nofun

end Clock

end Hlib
