import Hlib.ClockOffset
import Hlib.Delimiter

namespace Hlib

open Calendar Overwrite

namespace Clock

def toStringLocalTime (zone : Int → Int) (clock : Clock) : Checked (List Byte) := do
  let string ← strftime (List.replicate 9 none) "%H:%M:%S".toList (localtime zone clock.tvSec)
  let string ← toStdString string
  let offset ← localtimeOffsetString zone clock
  .ok (string ++ offset)

def toStringLocalTimeMilliseconds (zone : Int → Int) (clock : Clock) : Checked (List Byte) := do
  let string ← strftime (List.replicate 14 none) "%H:%M:%S".toList (gmtime clock.tvSec)
  let string ← toStdString (snprintf string 8 (14 - 8) (ascii '.' :: clock.millisecondsText))
  let offset ← localtimeOffsetString zone clock
  .ok (string ++ offset)

def toStringLocal (zone : Int → Int) (clock : Clock) (milliseconds : Bool) : Checked (List Byte) := do
  let string ← strftime (List.replicate 24 none) "%Y-%m-%dT%H:%M:%S".toList (gmtime clock.tvSec)
  let string ← toStdString (if milliseconds then
    snprintf string 19 (24 - 19) (ascii '.' :: clock.millisecondsText) else string)
  let offset ← localtimeOffsetString zone clock
  .ok (string ++ offset)

/-- The time behind the `T`, up to the milliseconds or the zone. -/
def timePart (text : List Byte) : List Byte :=
  ((text.dropWhile fun c => c ≠ ascii 'T').drop 1).takeWhile fun c => isDigit c ∨ c = ascii ':'

/-- The text without its `.mmm`. -/
def withoutMilliseconds (text : List Byte) : List Byte :=
  text.takeWhile (fun c => c ≠ ascii '.') ++ (text.dropWhile fun c => c ≠ ascii '.').drop 4

/-- The formatters of local time say the same. -/
structure LocalAgree (zone : Int → Int) (clock : Clock) : Prop where
  whole : ∃ text, toStringLocal zone clock false = .ok text ∧
    toStringLocalDateAndTime zone clock = .ok text
  time : ∃ text text', toStringLocal zone clock true = .ok text ∧
    toStringLocalDateAndTime zone clock = .ok text' ∧ timePart text = timePart text'
  milliseconds : ∃ text text', toStringLocalTimeMilliseconds zone clock = .ok text ∧
    toStringLocalTime zone clock = .ok text' ∧ withoutMilliseconds text = text'

/-- The local time is UTC, its year has at most four characters, and the milliseconds have three. -/
structure Agreeable (zone : Int → Int) (clock : Clock) : Prop where
  utc : zone clock.tvSec = 0
  low : -999 ≤ (civilFromDays (clock.tvSec / 86400)).year
  high : (civilFromDays (clock.tvSec / 86400)).year ≤ 9999
  milliseconds : -100 < (clock.tvNsec.tdiv 1000000).tmod 1000

section Texts

/-- The stamp of a time in any year. -/
def wideStamp (year : Int) (month day hour minute second : Nat) : List Byte :=
  stampText (signedDecimal year) (zeroPadded 2 month) (zeroPadded 2 day) (zeroPadded 2 hour)
    (zeroPadded 2 minute) (zeroPadded 2 second)

/-- The time of a stamp. -/
def timeText (hour minute second : Nat) : List Byte :=
  zeroPadded 2 hour ++ ascii ':' :: (zeroPadded 2 minute ++ ascii ':' :: zeroPadded 2 second)

theorem expand_wideStamp (year : Int) (month day hour minute second : Nat) (gmtoff : Int) :
    expand "%Y-%m-%dT%H:%M:%S".toList ⟨year - 1900, month - 1, day, hour, minute, second, gmtoff⟩ =
      wideStamp year month day hour minute second := by
  have year_ : printed 'Y' ⟨year - 1900, month - 1, day, hour, minute, second, gmtoff⟩ =
      signedDecimal year := by
    have value : 1900 + (year - 1900) = year := by omega
    show signedDecimal (1900 + (year - 1900)) = _
    rw [value]
  have month_ : printed 'm' ⟨year - 1900, month - 1, day, hour, minute, second, gmtoff⟩ =
      zeroPadded 2 month := by
    show zeroPadded 2 ((month : Int) - 1 + 1) = _
    rw [Int.sub_add_cancel]
  rw [expand_local, year_, month_]
  rfl

theorem expand_timeText (year mon mday : Int) (hour minute second : Nat) (gmtoff : Int) :
    expand "%H:%M:%S".toList ⟨year, mon, mday, hour, minute, second, gmtoff⟩ =
      timeText hour minute second := by
  have colon : ':' ≠ '%' := by decide
  show expand ('%' :: 'H' :: ':' :: '%' :: 'M' :: ':' :: '%' :: 'S' :: []) _ = _
  rw [expand_conversion, expand_literal colon, expand_conversion, expand_literal colon,
    expand_conversion]
  show zeroPadded 2 hour ++ ascii ':' :: (zeroPadded 2 minute ++ ascii ':' :: (zeroPadded 2 second ++ [])) = _
  rw [List.append_nil]
  rfl

theorem zeroPadded_injective {width n n' : Nat} (h : zeroPadded width n = zeroPadded width n') : n = n' := by
  have value := numberFrom_zeroPadded width n
  rw [h, numberFrom_zeroPadded] at value
  omega

theorem decimal_injective {n n' : Nat} (h : decimal n = decimal n') : n = n' := by
  have value := numberFrom_decimal n
  rw [h, numberFrom_decimal] at value
  omega

theorem minus_not_decimal (n n' : Nat) : ascii '-' :: decimal n ≠ decimal n' := by
  intro same
  have digit : isDigit (ascii '-') = true := isDigit_decimal (same ▸ List.mem_cons_self)
  exact absurd digit (by decide)

theorem signedDecimal_injective {n n' : Int} (h : signedDecimal n = signedDecimal n') : n = n' := by
  unfold signedDecimal at h
  split at h
  next negative =>
    split at h
    next =>
      have := decimal_injective (List.cons.inj h).2
      omega
    next => exact absurd h (minus_not_decimal _ _)
  next nonneg =>
    split at h
    next => exact absurd h.symm (minus_not_decimal _ _)
    next =>
      have := decimal_injective h
      omega

/-- Two fields of two digits, and what follows them. -/
theorem field_injective {n n' : Nat} (hn : n < 100) (hn' : n' < 100) {rest rest' : List Byte}
    (h : zeroPadded 2 n ++ rest = zeroPadded 2 n' ++ rest') : n = n' ∧ rest = rest' := by
  have two : (zeroPadded 2 n).length = 2 := zeroPadded_length (by omega) hn
  have two' : (zeroPadded 2 n').length = 2 := zeroPadded_length (by omega) hn'
  obtain ⟨number, behind⟩ := List.append_inj h (two.trans two'.symm)
  exact ⟨zeroPadded_injective number, behind⟩

theorem wideStamp_injective {year year' : Int}
    {month day hour minute second month' day' hour' minute' second' : Nat}
    (valid : InRange month day hour minute second) (valid' : InRange month' day' hour' minute' second')
    (h : wideStamp year month day hour minute second = wideStamp year' month' day' hour' minute' second') :
    year = year' ∧ month = month' ∧ day = day' ∧ hour = hour' ∧ minute = minute' ∧ second = second' := by
  obtain ⟨hmonth, hday, hhour, hminute, hsecond⟩ := valid
  obtain ⟨hmonth', hday', hhour', hminute', hsecond'⟩ := valid'
  have two {n : Nat} (h : n < 10 ^ 2) : (zeroPadded 2 n).length = 2 := zeroPadded_length (by omega) h
  unfold wideStamp stampText at h
  obtain ⟨years, h⟩ := List.append_inj' h (by
    simp only [List.length_cons, List.length_append]
    rw [two (by omega), two (by omega), two (by omega), two (by omega), two (by omega), two (by omega),
      two (by omega), two (by omega), two (by omega), two (by omega)])
  obtain ⟨months, h⟩ := field_injective (by omega) (by omega) (List.cons.inj h).2
  obtain ⟨days, h⟩ := field_injective (by omega) (by omega) (List.cons.inj h).2
  obtain ⟨hours, h⟩ := field_injective (by omega) (by omega) (List.cons.inj h).2
  obtain ⟨minutes, h⟩ := field_injective (by omega) (by omega) (List.cons.inj h).2
  exact ⟨signedDecimal_injective years, months, days, hours, minutes, zeroPadded_injective (List.cons.inj h).2⟩

theorem wideStamp_length (year : Int) {month day hour minute second : Nat}
    (valid : InRange month day hour minute second) :
    (wideStamp year month day hour minute second).length = (signedDecimal year).length + 15 := by
  obtain ⟨hmonth, hday, hhour, hminute, hsecond⟩ := valid
  have two {n : Nat} (h : n < 10 ^ 2) : (zeroPadded 2 n).length = 2 := zeroPadded_length (by omega) h
  simp only [wideStamp, stampText, List.length_append, List.length_cons]
  rw [two (by omega), two (by omega), two (by omega), two (by omega), two (by omega)]

theorem timeText_length {hour minute second : Nat} (hh : hour < 100) (hm : minute < 100)
    (hs : second < 100) : (timeText hour minute second).length = 8 := by
  have two {n : Nat} (h : n < 10 ^ 2) : (zeroPadded 2 n).length = 2 := zeroPadded_length (by omega) h
  simp only [timeText, List.length_append, List.length_cons]
  rw [two (by omega), two (by omega), two (by omega)]

/-- The years of at most four characters. -/
theorem signedDecimal_length_le {n : Int} : (signedDecimal n).length ≤ 4 ↔ -999 ≤ n ∧ n ≤ 9999 := by
  unfold signedDecimal
  split
  next negative =>
    have three := @decimal_length_le_iff n.natAbs 3 (by omega)
    rw [List.length_cons]
    omega
  next nonneg =>
    have four := @decimal_length_le_iff n.natAbs 4 (by omega)
    omega

/-- A digit or a separator, which ends neither a string nor the seconds. -/
theorem mem_timeText {hour minute second : Nat} {c : Byte} (h : c ∈ timeText hour minute second) :
    isDigit c = true ∨ c = ascii ':' := by
  simp only [timeText, List.mem_append, List.mem_cons] at h
  rcases h with h | h | h | h | h
  · exact .inl (zeroPadded_digits h)
  · exact .inr h
  · exact .inl (zeroPadded_digits h)
  · exact .inr h
  · exact .inl (zeroPadded_digits h)

theorem not_mem_timeText {c : Byte} (digit : isDigit c = false) (colon : c ≠ ascii ':')
    (hour minute second : Nat) : c ∉ timeText hour minute second := by
  intro h
  rcases mem_timeText h with number | same
  · rw [digit] at number
    cases number
  · exact colon same

/-- A stamp, as the date and the time. -/
theorem wideStamp_eq (year : Int) (month day hour minute second : Nat) :
    wideStamp year month day hour minute second =
      (signedDecimal year ++ ascii '-' :: (zeroPadded 2 month ++ ascii '-' :: zeroPadded 2 day)) ++
        ascii 'T' :: timeText hour minute second := by
  simp only [wideStamp, stampText, timeText, List.append_assoc, List.cons_append]

theorem mem_date {year : Int} {month day : Nat} {c : Byte}
    (h : c ∈ signedDecimal year ++ ascii '-' :: (zeroPadded 2 month ++ ascii '-' :: zeroPadded 2 day)) :
    isDigit c = true ∨ c = ascii '-' := by
  have years {c : Byte} (h : c ∈ signedDecimal year) : isDigit c = true ∨ c = ascii '-' := by
    unfold signedDecimal at h
    split at h
    next =>
      rcases List.mem_cons.mp h with same | h
      · exact .inr same
      · exact .inl (isDigit_decimal h)
    next => exact .inl (isDigit_decimal h)
  simp only [List.mem_append, List.mem_cons] at h
  rcases h with h | h | h | h | h
  · exact years h
  · exact .inr h
  · exact .inl (zeroPadded_digits h)
  · exact .inr h
  · exact .inl (zeroPadded_digits h)

theorem zero_not_mem_wideStamp (year : Int) (month day hour minute second : Nat) :
    0 ∉ wideStamp year month day hour minute second := by
  rw [wideStamp_eq, List.mem_append, List.mem_cons]
  rintro (date | letter | time)
  · rcases mem_date date with digit | dash
    · exact absurd digit (by decide)
    · exact absurd dash (by decide)
  · exact absurd letter (by decide)
  · exact not_mem_timeText (by decide) (by decide) hour minute second time

/-- The time is what stands behind the letter, whatever follows it. -/
theorem timePart_wideStamp (year : Int) (month day hour minute second : Nat) {rest : List Byte}
    (stop : ∀ c ∈ rest.head?, isDigit c = false ∧ c ≠ ascii ':') :
    timePart (wideStamp year month day hour minute second ++ rest) = timeText hour minute second := by
  have date : ∀ c ∈ signedDecimal year ++ ascii '-' :: (zeroPadded 2 month ++ ascii '-' :: zeroPadded 2 day),
      decide (c ≠ ascii 'T') = true := by
    intro c hc
    rw [decide_eq_true_eq]
    rintro rfl
    rcases mem_date hc with digit | dash
    · exact absurd digit (by decide)
    · exact absurd dash (by decide)
  have time : ∀ c ∈ timeText hour minute second, decide (isDigit c = true ∨ c = ascii ':') = true :=
    fun c hc => decide_eq_true (mem_timeText hc)
  have ended : ∀ c ∈ rest.head?, decide (isDigit c = true ∨ c = ascii ':') = false := by
    intro c hc
    obtain ⟨digit, colon⟩ := stop c hc
    rw [decide_eq_false_iff_not, digit]
    rintro (true_ | same)
    · cases true_
    · exact colon same
  have letter : ∀ c ∈ (ascii 'T' :: (timeText hour minute second ++ rest)).head?,
      decide (c ≠ ascii 'T') = false := by
    rintro c ⟨⟩
    decide
  have behind := (@Delimiter.run_append _ (fun c => decide (c ≠ ascii 'T')) _ _ date letter).2
  unfold timePart
  rw [wideStamp_eq, List.append_assoc, List.cons_append, behind, List.drop_one, List.tail_cons]
  exact (Delimiter.run_append time ended).1

end Texts

section Outputs

variable {zone : Int → Int} {clock : Clock}

/-- A text that is formatted and used, if it fits. -/
theorem strftime_text {n : Nat} (given : 0 < n) {format : List Char} {tm : Tm} (inside : 0 ∉ expand format tm)
    (use : List Byte → Checked (List Byte)) :
    (strftime (List.replicate n none) format (some tm) >>= fun string => toStdString string >>= use) =
      if (expand format tm).length < n then use (expand format tm) else .error .uninitialised := by
  by_cases fits : (expand format tm).length < n
  · rw [strftime_fits rfl fits, if_pos fits, ok_bind, toStdString_terminated inside, ok_bind]
  · rw [strftime_overflows rfl (Nat.le_of_not_lt fits), if_neg fits, ok_bind]
    obtain ⟨m, rfl⟩ := Nat.exists_eq_add_of_lt given
    rw [Nat.zero_add]
    rfl

/-- A local time has an offset, if it exists. -/
theorem localtimeOffsetString_ok {tm : Tm} (h : localtime zone clock.tvSec = some tm) :
    ∃ offset, localtimeOffsetString zone clock = .ok offset := by
  unfold localtimeOffsetString
  rw [h]
  exact ⟨_, rfl⟩

theorem toStringLocal_eq {tm : Tm} (h : gmtime clock.tvSec = some tm)
    (inside : 0 ∉ expand "%Y-%m-%dT%H:%M:%S".toList tm) :
    toStringLocal zone clock false =
      if (expand "%Y-%m-%dT%H:%M:%S".toList tm).length < 24 then
        localtimeOffsetString zone clock >>= fun offset =>
          .ok (expand "%Y-%m-%dT%H:%M:%S".toList tm ++ offset)
      else .error .uninitialised := by
  rw [toStringLocal, h]
  exact strftime_text (by omega) inside fun string =>
    localtimeOffsetString zone clock >>= fun offset => .ok (string ++ offset)

theorem toStringLocalDateAndTime_eq {tm : Tm} (h : localtime zone clock.tvSec = some tm)
    (inside : 0 ∉ expand "%Y-%m-%dT%H:%M:%S".toList tm) :
    toStringLocalDateAndTime zone clock =
      if (expand "%Y-%m-%dT%H:%M:%S".toList tm).length < 20 then
        localtimeOffsetString zone clock >>= fun offset =>
          .ok (expand "%Y-%m-%dT%H:%M:%S".toList tm ++ offset)
      else .error .uninitialised := by
  rw [toStringLocalDateAndTime, h]
  exact strftime_text (by omega) inside fun string =>
    localtimeOffsetString zone clock >>= fun offset => .ok (string ++ offset)

theorem toStringLocalTime_eq {tm : Tm} (h : localtime zone clock.tvSec = some tm)
    (inside : 0 ∉ expand "%H:%M:%S".toList tm) (fits : (expand "%H:%M:%S".toList tm).length < 9) :
    toStringLocalTime zone clock =
      (localtimeOffsetString zone clock >>= fun offset => .ok (expand "%H:%M:%S".toList tm ++ offset)) := by
  have stored := strftime_text (n := 9) (by omega) inside fun string =>
    localtimeOffsetString zone clock >>= fun offset => .ok (string ++ offset)
  rw [if_pos fits] at stored
  rw [toStringLocalTime, h]
  exact stored

theorem mem_zeroPadded {width : Nat} {n : Int} {c : Byte} (h : c ∈ zeroPadded width n) :
    isDigit c = true ∨ c = ascii '-' := by
  have zeros {m : Nat} (h : c ∈ List.replicate m (digit 0)) : isDigit c = true := by
    rw [List.eq_of_mem_replicate h]
    exact isDigit_zero
  unfold zeroPadded at h
  split at h
  next =>
    rcases List.mem_cons.mp h with same | h
    · exact .inr same
    rcases List.mem_append.mp h with pad | number
    · exact .inl (zeros pad)
    · exact .inl (isDigit_decimal number)
  next =>
    rcases List.mem_append.mp h with pad | number
    · exact .inl (zeros pad)
    · exact .inl (isDigit_decimal number)

/-- The milliseconds have three characters, or a sign and three digits. -/
theorem millisecondsText_length (clock : Clock) :
    clock.millisecondsText.length ≤ 4 ∧ 3 ≤ clock.millisecondsText.length ∧
      (clock.millisecondsText.length = 3 ↔ -100 < (clock.tvNsec.tdiv 1000000).tmod 1000) := by
  have above := Int.tmod_lt_of_pos (clock.tvNsec.tdiv 1000000) (by omega : (0 : Int) < 1000)
  have below := Int.tmod_lt_of_pos (-clock.tvNsec.tdiv 1000000) (by omega : (0 : Int) < 1000)
  rw [Int.neg_tmod] at below
  unfold millisecondsText
  generalize (clock.tvNsec.tdiv 1000000).tmod 1000 = r at above below ⊢
  have two := @decimal_length_le_iff r.natAbs 2 (by omega)
  have three := @decimal_length_le_iff r.natAbs 3 (by omega)
  unfold zeroPadded
  split
  next =>
    simp only [List.length_cons, List.length_append, List.length_replicate]
    omega
  next =>
    simp only [List.length_append, List.length_replicate]
    omega

theorem zero_not_mem_milliseconds (clock : Clock) : 0 ∉ ascii '.' :: clock.millisecondsText := by
  intro h
  rcases List.mem_cons.mp h with point | h
  · exact absurd point (by decide)
  rcases mem_zeroPadded h with number | minus
  · exact absurd number (by decide)
  · exact absurd minus (by decide)

/-- The milliseconds stand behind a stamp of full length, and behind the end of a shorter one. -/
theorem toStringLocal_milliseconds {tm : Tm} (h : gmtime clock.tvSec = some tm) {stamp offset : List Byte}
    (printed_ : expand "%Y-%m-%dT%H:%M:%S".toList tm = stamp) (inside : 0 ∉ stamp)
    (short : stamp.length ≤ 19) (three : clock.millisecondsText.length = 3)
    (zoned : localtimeOffsetString zone clock = .ok offset) :
    ∃ more, toStringLocal zone clock true = .ok (stamp ++ more ++ offset) ∧
      (more = [] ∨ more = ascii '.' :: clock.millisecondsText) := by
  have stored := strftime_fits (n := 24) printed_ (by omega)
  rw [toStringLocal, h, stored, ok_bind, if_pos rfl]
  by_cases full : stamp.length = 19
  · have room : (some 0 :: List.replicate (24 - (stamp.length + 1)) (none : Cell)).length = 24 - 19 := by
      rw [List.length_cons, List.length_replicate, full]
    have patch : (ascii '.' :: clock.millisecondsText).length < 24 - 19 := by
      rw [List.length_cons, three]
      decide
    have zero : 0 ∉ stamp ++ ascii '.' :: clock.millisecondsText := by
      rw [List.mem_append, not_or]
      exact ⟨inside, zero_not_mem_milliseconds clock⟩
    refine ⟨_, ?_, .inr rfl⟩
    rw [snprintf_last full room patch, toStdString_terminated zero, ok_bind, zoned, ok_bind]
  · have front : (stamp.map (some : Byte → Cell)).length < 19 := by
      rw [List.length_map]
      omega
    have before := @overwrite_behind Cell (stamp.map some) (List.replicate (24 - (stamp.length + 1)) none)
      (((ascii '.' :: clock.millisecondsText).take (24 - 19 - 1) ++ [0]).map some) (some 0) 19 front
    refine ⟨[], ?_, .inl rfl⟩
    rw [snprintf, if_neg (by omega), before, toStdString_terminated inside, ok_bind, zoned, ok_bind, List.append_nil]

theorem toStringLocalTimeMilliseconds_eq {tm : Tm} (h : gmtime clock.tvSec = some tm) {time offset : List Byte}
    (printed_ : expand "%H:%M:%S".toList tm = time) (inside : 0 ∉ time) (length : time.length = 8)
    (zoned : localtimeOffsetString zone clock = .ok offset) :
    toStringLocalTimeMilliseconds zone clock =
      .ok (time ++ ascii '.' :: (clock.millisecondsText ++ offset)) := by
  have stored := strftime_fits (n := 14) printed_ (by omega)
  have room : (some 0 :: List.replicate (14 - (time.length + 1)) (none : Cell)).length = 14 - 8 := by
    rw [List.length_cons, List.length_replicate, length]
  have patch : (ascii '.' :: clock.millisecondsText).length < 14 - 8 := by
    have := (millisecondsText_length clock).1
    rw [List.length_cons]
    omega
  have zero : 0 ∉ time ++ ascii '.' :: clock.millisecondsText := by
    rw [List.mem_append, not_or]
    exact ⟨inside, zero_not_mem_milliseconds clock⟩
  rw [toStringLocalTimeMilliseconds, h, stored, ok_bind, snprintf_last length room patch,
    toStdString_terminated zero, ok_bind, zoned, ok_bind, List.append_assoc]
  rfl

/-- Four characters are taken out, which is the point and three more. -/
theorem withoutMilliseconds_iff {time milliseconds offset : List Byte} (plain : ascii '.' ∉ time)
    (least : 3 ≤ milliseconds.length) :
    withoutMilliseconds (time ++ ascii '.' :: (milliseconds ++ offset)) = time ++ offset ↔
      milliseconds.length = 3 := by
  have front : ∀ c ∈ time, decide (c ≠ ascii '.') = true := by
    intro c hc
    rw [decide_eq_true_eq]
    rintro rfl
    exact plain hc
  have point : ∀ c ∈ (ascii '.' :: (milliseconds ++ offset)).head?, decide (c ≠ ascii '.') = false := by
    rintro c ⟨⟩
    decide
  obtain ⟨taken, dropped⟩ :=
    @Delimiter.run_append _ (fun c => decide (c ≠ ascii '.')) _ _ front point
  unfold withoutMilliseconds
  rw [taken, dropped, List.append_cancel_left_eq]
  show (milliseconds ++ offset).drop 3 = offset ↔ _
  constructor
  · intro same
    have lengths := congrArg List.length same
    rw [List.length_drop, List.length_append] at lengths
    omega
  · exact fun three => List.drop_left' three

/-- What is printed of a time in UTC. -/
theorem toStringLocal_ok {text offset : List Byte} (zoned : localtimeOffsetString zone clock = .ok offset)
    (h : toStringLocal zone clock false = .ok text) :
    ∃ month day hour minute second : Nat, InRange month day hour minute second ∧
      gmtime clock.tvSec = some ⟨(civilFromDays (clock.tvSec / 86400)).year - 1900, month - 1, day, hour,
        minute, second, 0⟩ ∧
      text = wideStamp (civilFromDays (clock.tvSec / 86400)).year month day hour minute second ++ offset := by
  cases fields : gmtime clock.tvSec with
  | none =>
    rw [toStringLocal, fields] at h
    cases h
  | some tm =>
    obtain ⟨month, day, hour, minute, second, valid, rfl⟩ := gmtime_fields fields
    have zero := zero_not_mem_wideStamp (civilFromDays (clock.tvSec / 86400)).year month day hour minute second
    rw [← expand_wideStamp _ _ _ _ _ _ 0] at zero
    rw [toStringLocal_eq fields zero, zoned, expand_wideStamp] at h
    split at h
    next =>
      cases h
      exact ⟨month, day, hour, minute, second, valid, rfl, rfl⟩
    next => cases h

/-- What is printed of a local time, in which the year is not too long. -/
theorem toStringLocalDateAndTime_ok {text : List Byte} (h : toStringLocalDateAndTime zone clock = .ok text) :
    ∃ offset, localtimeOffsetString zone clock = .ok offset ∧
      ∃ month day hour minute second : Nat, InRange month day hour minute second ∧
        gmtime (clock.tvSec + zone clock.tvSec) =
          some ⟨(civilFromDays ((clock.tvSec + zone clock.tvSec) / 86400)).year - 1900, month - 1, day, hour,
            minute, second, 0⟩ ∧
        text = wideStamp (civilFromDays ((clock.tvSec + zone clock.tvSec) / 86400)).year
          month day hour minute second ++ offset ∧
        (wideStamp (civilFromDays ((clock.tvSec + zone clock.tvSec) / 86400)).year
          month day hour minute second).length < 20 := by
  cases moved : gmtime (clock.tvSec + zone clock.tvSec) with
  | none =>
    have none_ : localtime zone clock.tvSec = none := by
      rw [localtime, moved]
      rfl
    rw [toStringLocalDateAndTime, none_] at h
    cases h
  | some tm =>
    obtain ⟨month, day, hour, minute, second, valid, rfl⟩ := gmtime_fields moved
    have local_ : localtime zone clock.tvSec = some
        ⟨(civilFromDays ((clock.tvSec + zone clock.tvSec) / 86400)).year - 1900, month - 1, day, hour, minute,
          second, zone clock.tvSec⟩ := by
      rw [localtime, moved]
      rfl
    obtain ⟨offset, zoned⟩ := localtimeOffsetString_ok local_
    have zero := zero_not_mem_wideStamp (civilFromDays ((clock.tvSec + zone clock.tvSec) / 86400)).year
      month day hour minute second
    rw [← expand_wideStamp _ _ _ _ _ _ (zone clock.tvSec)] at zero
    rw [toStringLocalDateAndTime_eq local_ zero, zoned, expand_wideStamp] at h
    split at h
    next short =>
      cases h
      exact ⟨offset, zoned, month, day, hour, minute, second, valid, rfl, rfl, short⟩
    next => cases h

/-- The stamps of UTC and of local time are equal at most where the zone has no offset. -/
theorem agreeable_of_whole {text : List Byte} (utc : toStringLocal zone clock false = .ok text)
    (here : toStringLocalDateAndTime zone clock = .ok text) :
    zone clock.tvSec = 0 ∧ -999 ≤ (civilFromDays (clock.tvSec / 86400)).year ∧
      (civilFromDays (clock.tvSec / 86400)).year ≤ 9999 := by
  obtain ⟨offset, zoned, month', day', hour', minute', second', valid', moved, text', short⟩ :=
    toStringLocalDateAndTime_ok here
  obtain ⟨month, day, hour, minute, second, valid, fields, text_⟩ := toStringLocal_ok zoned utc
  have same := List.append_cancel_right (text_.symm.trans text')
  rw [← same, wideStamp_length _ valid] at short
  have bounds := (@signedDecimal_length_le (civilFromDays (clock.tvSec / 86400)).year).mp (by omega)
  have seconds := timegm_gmtime fields
  have seconds' := timegm_gmtime moved
  obtain ⟨year, rfl, rfl, rfl, rfl, rfl⟩ := wideStamp_injective valid valid' same
  rw [← year, seconds] at seconds'
  exact ⟨by omega, bounds⟩

theorem localtime_utc {time : Int} (unmoved : zone time = 0) : localtime zone time = gmtime time := by
  rw [localtime, unmoved, Int.add_zero]
  cases fields : gmtime time with
  | none => rfl
  | some tm =>
    obtain ⟨month, day, hour, minute, second, _, rfl⟩ := gmtime_fields fields
    rfl

/-- Where the zone has no offset, the times differ by the milliseconds. -/
theorem times_utc (unmoved : zone clock.tvSec = 0) {tm : Tm} (fields : gmtime clock.tvSec = some tm) :
    ∃ time, ascii '.' ∉ time ∧
      toStringLocalTimeMilliseconds zone clock =
        .ok (time ++ ascii '.' :: (clock.millisecondsText ++ literal "+00:00")) ∧
      toStringLocalTime zone clock = .ok (time ++ literal "+00:00") := by
  have local_ := (localtime_utc unmoved).trans fields
  obtain ⟨month, day, hour, minute, second, ⟨_, _, hhour, hminute, hsecond⟩, rfl⟩ := gmtime_fields fields
  have zoned := localtimeOffsetString_zero local_ rfl
  have length := @timeText_length hour minute second (by omega) (by omega) (by omega)
  have zero := not_mem_timeText (c := 0) (by decide) (by decide) hour minute second
  have text := expand_timeText ((civilFromDays (clock.tvSec / 86400)).year - 1900) (month - 1) day
    hour minute second 0
  refine ⟨timeText hour minute second, not_mem_timeText (by decide) (by decide) hour minute second,
    toStringLocalTimeMilliseconds_eq fields text zero length zoned, ?_⟩
  rw [toStringLocalTime_eq local_ (by rw [text]; exact zero) (by rw [text, length]; decide), zoned, text]
  rfl

theorem agreeable_of_localAgree (h : LocalAgree zone clock) : Agreeable zone clock := by
  obtain ⟨text, utc, here⟩ := h.whole
  obtain ⟨unmoved, low, high⟩ := agreeable_of_whole utc here
  refine ⟨unmoved, low, high, ?_⟩
  obtain ⟨tm, fields⟩ := @gmtime_given clock.tvSec (by omega) (by omega)
  obtain ⟨time, point, fraction, plain⟩ := times_utc unmoved fields
  obtain ⟨text, text', printed_, printed', same⟩ := h.milliseconds
  rw [fraction] at printed_
  rw [plain] at printed'
  cases printed_
  cases printed'
  have bounds := millisecondsText_length clock
  exact bounds.2.2.mp ((withoutMilliseconds_iff point bounds.2.1).mp same)

/-- Where the zone has no offset, the stamps are equal, and the milliseconds stand behind the time. -/
theorem stamps_utc (h : Agreeable zone clock) :
    ∃ text more, toStringLocal zone clock false = .ok text ∧
      toStringLocalDateAndTime zone clock = .ok text ∧ toStringLocal zone clock true = .ok more ∧
      timePart more = timePart text := by
  obtain ⟨unmoved, low, high, three⟩ := h
  obtain ⟨tm, fields⟩ := @gmtime_given clock.tvSec (by omega) (by omega)
  have local_ := (localtime_utc unmoved).trans fields
  obtain ⟨month, day, hour, minute, second, valid, rfl⟩ := gmtime_fields fields
  have zoned := localtimeOffsetString_zero local_ rfl
  have length := wideStamp_length (civilFromDays (clock.tvSec / 86400)).year valid
  have years := signedDecimal_length_le.mpr ⟨low, high⟩
  have zero := zero_not_mem_wideStamp (civilFromDays (clock.tvSec / 86400)).year month day hour minute second
  have text := expand_wideStamp (civilFromDays (clock.tvSec / 86400)).year month day hour minute second 0
  have inside := text.symm ▸ zero
  have whole := @toStringLocal_eq zone clock _ fields inside
  have here := toStringLocalDateAndTime_eq local_ inside
  rw [text, zoned, if_pos (by omega)] at whole here
  obtain ⟨more, stamped, end_⟩ := toStringLocal_milliseconds fields text zero (by omega)
    ((millisecondsText_length clock).2.2.mpr three) zoned
  refine ⟨_, _, whole, here, stamped, ?_⟩
  rw [List.append_assoc, timePart_wideStamp, timePart_wideStamp]
  · rintro c ⟨⟩
    decide
  · intro c hc
    rcases end_ with rfl | rfl
    · cases hc
      decide
    · cases hc
      decide

theorem localAgree_of_agreeable (h : Agreeable zone clock) : LocalAgree zone clock := by
  obtain ⟨text, more, whole, here, stamped, same⟩ := stamps_utc h
  have low := h.low
  have high := h.high
  obtain ⟨tm, fields⟩ := @gmtime_given clock.tvSec (by omega) (by omega)
  obtain ⟨time, point, fraction, plain⟩ := times_utc h.utc fields
  have bounds := millisecondsText_length clock
  exact ⟨⟨text, whole, here⟩, ⟨more, text, stamped, here, same⟩, ⟨_, _, fraction, plain,
    (withoutMilliseconds_iff point bounds.2.1).mpr (bounds.2.2.mpr h.milliseconds)⟩⟩

end Outputs

theorem localAgree_iff (zone : Int → Int) (clock : Clock) :
    LocalAgree zone clock ↔ Agreeable zone clock :=
  ⟨agreeable_of_localAgree, localAgree_of_agreeable⟩

/-- An hour ahead of UTC, the stamps are an hour apart. -/
theorem hour_apart : ¬LocalAgree (fun _ => 3600) ⟨0, 0⟩ ∧
    toStringLocal (fun _ => 3600) ⟨0, 0⟩ false = .ok (literal "1970-01-01T00:00:00+01:00") ∧
    toStringLocalDateAndTime (fun _ => 3600) ⟨0, 0⟩ = .ok (literal "1970-01-01T01:00:00+01:00") := by
  have utc : toStringLocal (fun _ => 3600) ⟨0, 0⟩ false =
      .ok (literal "1970-01-01T00:00:00+01:00") := by decide +kernel
  have here : toStringLocalDateAndTime (fun _ => 3600) ⟨0, 0⟩ =
      .ok (literal "1970-01-01T01:00:00+01:00") := by decide +kernel
  refine ⟨?_, utc, here⟩
  intro agree
  obtain ⟨text, printed_, printed'⟩ := agree.whole
  rw [utc] at printed_
  rw [here] at printed'
  exact absurd (printed_.trans printed'.symm) (by decide +kernel)

end Clock

end Hlib
