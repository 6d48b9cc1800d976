import Hlib.Clock
import Hlib.TimeText

namespace Hlib

open Calendar Overwrite

theorem timegm_gmtime {time : Int} {tm : Tm} (h : gmtime time = some tm) : timegm tm = time := by
  have month := civilFromDays_month (time / 86400)
  simp only [gmtime] at h
  split at h
  next =>
    cases Option.some.inj h
    have year : 1900 + ((civilFromDays (time / 86400)).year - 1900) +
        ((civilFromDays (time / 86400)).month - 1) / 12 = (civilFromDays (time / 86400)).year := by omega
    have mon : ((civilFromDays (time / 86400)).month - 1) % 12 + 1 =
        (civilFromDays (time / 86400)).month := by omega
    show 86400 * daysFromCivil ⟨_, _, _⟩ + 3600 * (time % 86400 / 3600) +
      60 * (time % 86400 / 60 % 60) + time % 86400 % 60 = time
    rw [year, mon, daysFromCivil_civilFromDays]
    omega
  next => cases h

/-- The years of an `int`. -/
theorem gmtime_given {time : Int} (low : -2 ^ 31 ≤ (civilFromDays (time / 86400)).year - 1900)
    (high : (civilFromDays (time / 86400)).year - 1900 < 2 ^ 31) : ∃ tm, gmtime time = some tm := by
  unfold gmtime
  rw [if_pos ⟨low, high⟩]
  exact ⟨_, rfl⟩

/-- The fields of a time in any year. -/
theorem gmtime_fields {time : Int} {tm : Tm} (h : gmtime time = some tm) :
    ∃ month day hour minute second : Nat, InRange month day hour minute second ∧
      tm = ⟨(civilFromDays (time / 86400)).year - 1900, month - 1, day, hour, minute, second, 0⟩ := by
  have month := civilFromDays_month (time / 86400)
  have day := civilFromDays_day (time / 86400)
  simp only [gmtime] at h
  split at h
  next =>
    cases h
    refine ⟨(civilFromDays (time / 86400)).month.toNat, (civilFromDays (time / 86400)).day.toNat,
      (time % 86400 / 3600).toNat, (time % 86400 / 60 % 60).toNat, (time % 86400 % 60).toNat, ?_, ?_⟩
    · constructor
      · omega
      · omega
      · omega
      · omega
      · omega
    · simp only [Tm.mk.injEq, true_and, and_true]
      omega
  next => cases h

/-- What `gmtime` gives in a year that `strptime` reads back. -/
theorem gmtime_stamp {time : Int} (low : 0 ≤ (civilFromDays (time / 86400)).year)
    (high : (civilFromDays (time / 86400)).year ≤ 9999) :
    ∃ year month day hour minute second : Nat, (year : Int) = (civilFromDays (time / 86400)).year ∧
      InRange month day hour minute second ∧
      gmtime time = some ⟨year - 1900, month - 1, day, hour, minute, second, 0⟩ := by
  obtain ⟨tm, fields⟩ := @gmtime_given time (by omega) (by omega)
  obtain ⟨month, day, hour, minute, second, valid, rfl⟩ := gmtime_fields fields
  have year : ((civilFromDays (time / 86400)).year.toNat : Int) = (civilFromDays (time / 86400)).year := by
    omega
  exact ⟨_, month, day, hour, minute, second, year, valid, year.symm ▸ fields⟩

section Arrays

theorem toStdString_terminated {text : List Byte} (inside : 0 ∉ text) (rest : List Cell) :
    toStdString (text.map some ++ some 0 :: rest) = .ok text := by
  induction text with
  | nil => rfl
  | cons c text ih =>
    have given : c ≠ 0 := fun zero => inside (by rw [zero]; exact List.mem_cons_self)
    have later : 0 ∉ text := fun zero => inside (List.mem_cons_of_mem _ zero)
    rw [List.map_cons, List.cons_append, toStdString, if_neg given, ih later]
    rfl

theorem strftime_fits {n : Nat} {text : List Byte} {format : List Char} {tm : Tm}
    (h : expand format tm = text) (fits : text.length < n) :
    strftime (List.replicate n none) format (some tm) =
      .ok (text.map some ++ some 0 :: List.replicate (n - (text.length + 1)) none) := by
  have stored : overwrite (List.replicate n (none : Cell)) 0 ((text ++ [0]).map some) =
      text.map some ++ some 0 :: List.replicate (n - (text.length + 1)) none := by
    rw [overwrite, List.drop_replicate, List.length_map, List.length_append]
    simp
  unfold strftime
  simp only [h, List.length_replicate]
  rw [if_pos fits, stored]

theorem strftime_overflows {n : Nat} {text : List Byte} {format : List Char} {tm : Tm}
    (h : expand format tm = text) (long : n ≤ text.length) :
    strftime (List.replicate n none) format (some tm) = .ok (List.replicate n none) := by
  unfold strftime
  simp only [h, List.length_replicate, List.map_replicate]
  exact if_neg (by omega)

theorem snprintf_last {text formatted : List Byte} {rest : List Cell} {offset size : Nat}
    (ht : text.length = offset) (hr : rest.length = size) (fits : formatted.length < size) :
    snprintf (text.map some ++ rest) offset size formatted =
      (text ++ formatted).map some ++ some 0 :: rest.drop (formatted.length + 1) := by
  have length : (text.map (some : Byte → Cell)).length = offset := by rw [List.length_map, ht]
  have front : (text.map some ++ rest).take offset = text.map some := List.take_left' length
  have behind : (text.map some ++ rest).drop (offset + (formatted.length + 1)) =
      rest.drop (formatted.length + 1) := by
    rw [← List.drop_drop, List.drop_left' length]
  rw [snprintf, if_neg (by omega), List.take_of_length_le (by omega), overwrite, front,
    List.length_map, List.length_append, List.length_singleton, behind]
  simp

end Arrays

section Stamped

theorem printed_year (year : Nat) (mon mday hour min sec gmtoff : Int) :
    printed 'Y' ⟨year - 1900, mon, mday, hour, min, sec, gmtoff⟩ = decimal year := by
  show signedDecimal (1900 + ((year : Int) - 1900)) = decimal year
  have value : 1900 + ((year : Int) - 1900) = year := by omega
  rw [value, signedDecimal, if_neg (by omega), Int.natAbs_natCast]

/-- The stamp of a `tm` whose fields are in range. -/
def stampOf (year month day hour minute second : Nat) : List Byte :=
  stampText (decimal year) (zeroPadded 2 month) (zeroPadded 2 day) (zeroPadded 2 hour)
    (zeroPadded 2 minute) (zeroPadded 2 second)

theorem expand_stampOf (year month day hour minute second : Nat) (gmtoff : Int) (more : List Char) :
    expand (stampFormat ++ more) ⟨year - 1900, month - 1, day, hour, minute, second, gmtoff⟩ =
      stampOf year month day hour minute second ++
        expand more ⟨year - 1900, month - 1, day, hour, minute, second, gmtoff⟩ := by
  have month_ : printed 'm' ⟨year - 1900, month - 1, day, hour, minute, second, gmtoff⟩ =
      zeroPadded 2 month := by
    show zeroPadded 2 ((month : Int) - 1 + 1) = _
    rw [Int.sub_add_cancel]
  rw [expand_stamp, printed_year, month_]
  rfl

theorem expand_utc (year month day hour minute second : Nat) :
    expand "%Y-%m-%dT%H:%M:%SZ".toList ⟨year - 1900, month - 1, day, hour, minute, second, 0⟩ =
      stampOf year month day hour minute second ++ [ascii 'Z'] :=
  expand_stampOf year month day hour minute second 0 ['Z']

theorem mem_stampOf {year month day hour minute second : Nat} {c : Byte}
    (h : c ∈ stampOf year month day hour minute second) :
    isDigit c = true ∨ c = ascii '-' ∨ c = ascii 'T' ∨ c = ascii ':' :=
  mem_stampText (fun _ hc => isDigit_decimal hc) (fun _ hc => zeroPadded_digits hc)
    (fun _ hc => zeroPadded_digits hc) (fun _ hc => zeroPadded_digits hc)
    (fun _ hc => zeroPadded_digits hc) (fun _ hc => zeroPadded_digits hc) h

theorem letter_mem_stampOf (year month day hour minute second : Nat) :
    ascii 'T' ∈ stampOf year month day hour minute second := by
  simp [stampOf, stampText]

theorem not_mem_stampOf {c : Byte} (digit : isDigit c = false)
    (others : c ≠ ascii '-' ∧ c ≠ ascii 'T' ∧ c ≠ ascii ':') (year month day hour minute second : Nat) :
    c ∉ stampOf year month day hour minute second := by
  intro h
  rcases mem_stampOf h with number | dash | letter | colon
  · rw [digit] at number
    cases number
  · exact others.1 dash
  · exact others.2.1 letter
  · exact others.2.2 colon

theorem stampOf_length {year month day hour minute second : Nat} (long : 1000 ≤ year)
    (short : year ≤ 9999) (valid : InRange month day hour minute second) :
    (stampOf year month day hour minute second).length = 19 := by
  obtain ⟨hmonth, hday, hhour, hminute, hsecond⟩ := valid
  have four : (decimal year).length ≤ 4 := decimal_length_le (by omega) (by omega)
  have more : ¬(decimal year).length ≤ 3 := by
    rw [decimal_length_le_iff (by omega)]
    omega
  have two {n : Nat} (h : n < 10 ^ 2) : (zeroPadded 2 n).length = 2 := zeroPadded_length (by omega) h
  simp only [stampOf, stampText, List.length_append, List.length_cons]
  rw [two (by omega), two (by omega), two (by omega), two (by omega), two (by omega)]
  omega

theorem getNumber_year {year : Nat} (h : year ≤ 9999) (rest : List Byte) :
    getNumber 0 9999 4 (decimal year ++ ascii '-' :: rest) = some ((year : Int), ascii '-' :: rest) := by
  have number := numberFrom_decimal year
  have stop : StopsNumber (ascii '-' :: rest) := by
    intro c hc
    cases hc
    decide
  have above : 0 ≤ numberFrom 0 (decimal year) := by omega
  have below : numberFrom 0 (decimal year) ≤ 9999 := by omega
  rw [getNumber_text (fun c hc => isDigit_decimal hc) (decimal_ne_nil year)
    (decimal_length_le (by omega) (by omega)) (.inr stop) above below, number]

theorem strptime_stampOf {year month day hour minute second : Nat} (hy : year ≤ 9999)
    (valid : InRange month day hour minute second) (rest : List Byte) (more : List Char) (tm : Tm) :
    strptime (stampOf year month day hour minute second ++ rest) (stampFormat ++ more) tm =
      strptime rest more ⟨year - 1900, month - 1, day, hour, minute, second, tm.gmtoff⟩ :=
  strptime_stamp (getNumber_year hy) valid rest more tm

end Stamped

end Hlib
