import Hlib.ClockRoundTrip

namespace Hlib

open Calendar

section Fields

theorem zeroPadded_two {n : Nat} (h : n < 100) : zeroPadded 2 n = [digit (n / 10), digit (n % 10)] := by
  have all : ∀ n : Fin 100, zeroPadded 2 n = [digit (n.val / 10), digit (n.val % 10)] := by decide +kernel
  exact all ⟨n, h⟩

theorem isDigit_digit {n : Nat} (h : n < 10) : isDigit (digit n) = true ∧ digitOf (digit n) = n := by
  have value : (digit n).toNat = 48 + n := by
    rw [digit, BitVec.toNat_ofNat]
    omega
  constructor
  · rw [isDigit, value, decide_eq_true_iff]
    omega
  · rw [digitOf, value]
    omega

/-- A number of two digits is read in full, or given up in front of its second digit. -/
theorem getNumber_two {low high val : Int} {n : Nat} (h : n < 100) {rest rp : List Byte}
    (read : getNumber low high 2 (zeroPadded 2 n ++ rest) = some (val, rp)) :
    (low ≤ n ∧ (n : Int) ≤ high) ∧ val = n ∧ rp = rest ∨ rp = digit (n % 10) :: rest := by
  obtain ⟨first, firstOf⟩ := isDigit_digit (Nat.div_lt_of_lt_mul h : n / 10 < 10)
  obtain ⟨second, secondOf⟩ := isDigit_digit (Nat.mod_lt n (by omega) : n % 10 < 10)
  rw [zeroPadded_two h] at read
  unfold getNumber at read
  rw [List.cons_append, List.cons_append, List.nil_append,
    List.dropWhile_cons_of_neg (isSpace_digit first)] at read
  simp only [first, if_true, moreDigits, second, and_true, firstOf, secondOf] at read
  by_cases more : ((n / 10 : Nat) : Int) * 10 ≤ high
  · rw [if_pos more] at read
    split at read
    next => cases read
    next inside =>
      cases read
      left
      refine ⟨?_, ?_, rfl⟩
      · omega
      · omega
  · rw [if_neg more] at read
    split at read
    next => cases read
    next =>
      cases read
      exact .inr rfl

theorem strptime_two_inv {conversion : Char} {low high : Int} {set : Tm → Int → Tm}
    (reads : ReadsTwo conversion low high set) {n : Nat} (h : n < 100) {rest : List Byte}
    {format : List Char} {tm : Tm} {result : List Byte × Tm}
    (accepted : strptime (zeroPadded 2 n ++ rest) ('%' :: conversion :: format) tm = some result) :
    (low ≤ n ∧ (n : Int) ≤ high) ∧ strptime rest format (set tm n) = some result ∨
      ∃ d rest' tm', isDigit d = true ∧ strptime (d :: rest') format tm' = some result := by
  rw [strptime, reads] at accepted
  cases read : getNumber low high 2 (zeroPadded 2 n ++ rest) with
  | none =>
    rw [read] at accepted
    cases accepted
  | some number =>
    obtain ⟨val, rp⟩ := number
    rw [read] at accepted
    have later : strptime rp format (set tm val) = some result := accepted
    rcases getNumber_two h read with ⟨inside, same, behind⟩ | behind
    · rw [same, behind] at later
      exact .inl ⟨inside, later⟩
    · rw [behind] at later
      have last := (isDigit_digit (Nat.mod_lt n (by omega) : n % 10 < 10)).1
      exact .inr ⟨_, _, _, last, later⟩

/-- A separator does not match a digit. -/
theorem strptime_separator {f : Char} (hf : f ≠ '%') (separator : isDigit (ascii f) = false) {d : Byte}
    (hd : isDigit d = true) (rest : List Byte) (format : List Char) (tm : Tm) :
    strptime (d :: rest) (f :: format) tm = none := by
  have differ : d ≠ ascii f := by
    rintro rfl
    rw [separator] at hd
    cases hd
  rw [strptime, if_neg differ]
  intro _ _ same
  exact absurd same hf

/-- A field and the separator behind it. -/
theorem strptime_field {conversion f : Char} {low high : Int} {set : Tm → Int → Tm}
    (reads : ReadsTwo conversion low high set) (hf : f ≠ '%') (separator : isDigit (ascii f) = false)
    {n : Nat} (h : n < 100) {rest : List Byte} {format : List Char} {tm : Tm} {result : List Byte × Tm}
    (accepted : strptime (zeroPadded 2 n ++ ascii f :: rest) ('%' :: conversion :: f :: format) tm =
      some result) :
    (low ≤ n ∧ (n : Int) ≤ high) ∧ strptime rest format (set tm n) = some result := by
  rcases strptime_two_inv reads h accepted with ⟨inside, later⟩ | ⟨d, rest', tm', hd, later⟩
  · rw [strptime_literal hf] at later
    exact ⟨inside, later⟩
  · rw [strptime_separator hf separator hd] at later
    cases later

theorem strptime_zone_eq (r : List Byte) (tm : Tm) : strptime r ['%', 'z'] tm =
    (getZone r).map fun (gmtoff, rest) => (rest, { tm with gmtoff }) := by
  rw [strptime]
  show ((getZone r).map _).bind _ = _
  cases getZone r with
  | none => rfl
  | some parsed => rfl

theorem strptime_zone {r r' : List Byte} {tm tm' : Tm}
    (h : strptime r ['%', 'z'] tm = some (r', tm')) : timegm tm' = timegm tm := by
  rw [strptime_zone_eq] at h
  cases zone : getZone r with
  | none =>
    rw [zone] at h
    cases h
  | some parsed =>
    rw [zone] at h
    cases h
    rfl

theorem getZone_digit {d : Byte} (hd : isDigit d = true) (rest : List Byte) : getZone (d :: rest) = none := by
  have letter : d ≠ ascii 'Z' := by
    rintro rfl
    exact absurd hd (by decide)
  have sign : ¬(d = ascii '+' ∨ d = ascii '-') := by
    rintro (rfl | rfl)
    · exact absurd hd (by decide)
    · exact absurd hd (by decide)
  unfold getZone
  rw [List.dropWhile_cons_of_neg (isSpace_digit hd)]
  simp only
  rw [if_neg letter, if_neg sign]

theorem strptime_zone_digit {d : Byte} (hd : isDigit d = true) (rest : List Byte) (tm : Tm) :
    strptime (d :: rest) ['%', 'z'] tm = none := by
  rw [strptime_zone_eq, getZone_digit hd]
  rfl

end Fields

namespace Clock

/-- How a string with a fraction of a second is accepted. -/
theorem toClock_ok_fraction {text : List Byte} {clock : Clock} (letter : ascii 'T' ∈ text)
    (dot : ascii '.' ∈ text) (h : toClock text = .ok (some clock)) :
    ∃ r tm milliseconds r' tm', strptime (text ++ [0]) stampFormat {} = some (ascii '.' :: r, tm) ∧
      sscanfMilliseconds (ascii '.' :: r) = some milliseconds ∧
      strptime (r.drop 3) ['%', 'z'] tm = some (r', tm') ∧ r'.head? = some 0 ∧
      clock = ⟨timegm tm', milliseconds * 1000000⟩ := by
  rcases toClock_scans letter dot with ⟨r, tm, milliseconds, read, scanned⟩ | rejected
  · rw [toClock_scanned letter dot read scanned] at h
    obtain ⟨_, _, h⟩ := bind_ok h
    cases zoned : strptime (r.drop 3) ['%', 'z'] tm with
    | none =>
      rw [zoned] at h
      cases h
    | some result =>
      obtain ⟨r', tm'⟩ := result
      rw [zoned] at h
      simp only at h
      split at h
      next => cases h
      next ended =>
        cases h
        exact ⟨r, tm, milliseconds, r', tm', read, scanned, zoned, Decidable.not_not.mp ended, rfl⟩
  · rw [rejected] at h
    cases h

/-- How a string without one is accepted. -/
theorem toClock_ok_whole {text : List Byte} {clock : Clock} (letter : ascii 'T' ∈ text)
    (dot : ascii '.' ∉ text) (h : toClock text = .ok (some clock)) :
    ∃ r tm, strptime (text ++ [0]) (stampFormat ++ ['%', 'z']) {} = some (r, tm) ∧
      r.head? = some 0 ∧ clock = ⟨timegm tm, 0⟩ := by
  unfold toClock at h
  simp only [contains_iff.mpr letter, contains_eq_false dot, Bool.true_eq_false, if_false, if_true] at h
  cases parsed : parse (text ++ [0]) "%Y-%m-%dT%H:%M:%S%z".toList with
  | none =>
    rw [parsed] at h
    cases h
  | some tm =>
    rw [parsed] at h
    cases h
    obtain ⟨⟨r, tm'⟩, accepted, finish⟩ := Option.bind_eq_some_iff.mp parsed
    simp only at finish
    split at finish
    next ended =>
      cases finish
      exact ⟨r, tm, accepted, ended, rfl⟩
    next => cases finish

/-- Whatever the zone is, the seconds are those of the fields in front of it. -/
theorem toClock_seconds {text rest : List Byte} {fields : Tm} {valid : Prop} (letter : ascii 'T' ∈ text)
    (reads : ∀ more result, strptime (text ++ [0]) (stampFormat ++ more) {} = some result →
      valid ∧ strptime rest more fields = some result ∨
        ∃ d rest' tm', isDigit d = true ∧ strptime (d :: rest') more tm' = some result)
    {clock : Clock} (h : toClock text = .ok (some clock)) : valid ∧ clock.tvSec = timegm fields := by
  by_cases dot : ascii '.' ∈ text
  · obtain ⟨r, tm, milliseconds, r', tm', accepted, _, zoned, _, rfl⟩ := toClock_ok_fraction letter dot h
    rw [← List.append_nil stampFormat] at accepted
    rcases reads [] _ accepted with ⟨inRange, same⟩ | ⟨d, rest', tm'', hd, same⟩
    · cases same
      exact ⟨inRange, strptime_zone zoned⟩
    · cases same
      exact absurd hd (by decide)
  · obtain ⟨r, tm, accepted, _, rfl⟩ := toClock_ok_whole letter dot h
    rcases reads ['%', 'z'] _ accepted with ⟨inRange, zoned⟩ | ⟨d, rest', tm', hd, zoned⟩
    · exact ⟨inRange, strptime_zone zoned⟩
    · rw [strptime_zone_digit hd] at zoned
      cases zoned

/-- The offset at the end of a timestamp: `Z`, `+hh:mm` or `-hh:mm`. -/
inductive WrittenZone
  | utc
  | ahead (hours minutes : Fin 100)
  | behind (hours minutes : Fin 100)
  deriving DecidableEq, Repr

namespace WrittenZone

def text : WrittenZone → List Byte
  | utc => [ascii 'Z']
  | ahead hours minutes => ascii '+' :: (zeroPadded 2 hours ++ ascii ':' :: zeroPadded 2 minutes)
  | behind hours minutes => ascii '-' :: (zeroPadded 2 hours ++ ascii ':' :: zeroPadded 2 minutes)

/-- In seconds. -/
def offset : WrittenZone → Int
  | utc => 0
  | ahead hours minutes => 3600 * hours + 60 * minutes
  | behind hours minutes => -(3600 * hours + 60 * minutes)

end WrittenZone

/-- A string `YYYY-MM-DDTHH:MM:SS[.mmm]`, followed by a zone. -/
structure Written where
  year : Fin 10000
  month : Fin 100
  day : Fin 100
  hour : Fin 100
  minute : Fin 100
  second : Fin 100
  fraction : Option (Fin 1000)
  zone : WrittenZone
  deriving DecidableEq, Repr

namespace Written

def stamp (w : Written) : List Byte :=
  stampText (zeroPadded 4 w.year) (zeroPadded 2 w.month) (zeroPadded 2 w.day) (zeroPadded 2 w.hour)
    (zeroPadded 2 w.minute) (zeroPadded 2 w.second)

def fractionText (w : Written) : List Byte :=
  match w.fraction with
  | none => []
  | some milliseconds => ascii '.' :: zeroPadded 3 milliseconds

def text (w : Written) : List Byte := w.stamp ++ (w.fractionText ++ w.zone.text)

/-- The seconds from the epoch to the date and the time, as those of UTC. -/
def seconds (w : Written) : Int :=
  86400 * daysFromCivil ⟨w.year, w.month, w.day⟩ + 3600 * w.hour + 60 * w.minute + w.second

def fields (w : Written) : Tm := ⟨w.year - 1900, w.month - 1, w.day, w.hour, w.minute, w.second, 0⟩

theorem timegm_fields {w : Written} (h : 1 ≤ (w.month.val : Int) ∧ (w.month.val : Int) ≤ 12) :
    timegm w.fields = w.seconds := by
  have year : 1900 + ((w.year.val : Int) - 1900) + ((w.month.val : Int) - 1) / 12 = w.year.val := by omega
  have month : ((w.month.val : Int) - 1) % 12 + 1 = w.month.val := by omega
  show 86400 * daysFromCivil ⟨_, _, _⟩ + _ + _ + _ = _
  rw [show 1900 + w.fields.year + w.fields.mon / 12 = w.year.val from year,
    show w.fields.mon % 12 + 1 = w.month.val from month]
  rfl

/-- A stamp is read field by field, or given up in front of a digit. -/
theorem reads_stamp (w : Written) (rest : List Byte) {more : List Char} {result : List Byte × Tm}
    (accepted : strptime (w.stamp ++ rest) (stampFormat ++ more) {} = some result) :
    (1 ≤ (w.month.val : Int) ∧ (w.month.val : Int) ≤ 12) ∧ strptime rest more w.fields = some result ∨
      ∃ d rest' tm', isDigit d = true ∧ strptime (d :: rest') more tm' = some result := by
  have dash : '-' ≠ '%' := by decide
  have colon : ':' ≠ '%' := by decide
  have letter : 'T' ≠ '%' := by decide
  have year (rest : List Byte) : getNumber 0 9999 4 (zeroPadded 4 w.year ++ rest) =
      some ((w.year.val : Int), rest) :=
    getNumber_zeroPadded (by omega) (by omega) (by omega) (by omega) rest
  rw [stampFormat_toList] at accepted
  simp only [stamp, stampText, List.append_assoc, List.cons_append] at accepted
  rw [strptime_year (year _), strptime_literal dash] at accepted
  obtain ⟨month, accepted⟩ := strptime_field readsMonth dash (by decide) w.month.isLt accepted
  obtain ⟨_, accepted⟩ := strptime_field readsDay letter (by decide) w.day.isLt accepted
  obtain ⟨_, accepted⟩ := strptime_field readsHour colon (by decide) w.hour.isLt accepted
  obtain ⟨_, accepted⟩ := strptime_field readsMinute colon (by decide) w.minute.isLt accepted
  rcases strptime_two_inv readsSecond w.second.isLt accepted with ⟨_, accepted⟩ | early
  · exact .inl ⟨month, accepted⟩
  · exact .inr early

theorem toClock_text {w : Written} {clock : Clock} (h : toClock w.text = .ok (some clock)) :
    clock.tvSec = w.seconds := by
  have letter : ascii 'T' ∈ w.text := by simp [text, stamp, stampText]
  have whole : w.text ++ [0] = w.stamp ++ (w.fractionText ++ w.zone.text ++ [0]) := by
    rw [text, List.append_assoc]
  have reads (more : List Char) (result : List Byte × Tm)
      (accepted : strptime (w.text ++ [0]) (stampFormat ++ more) {} = some result) :=
    w.reads_stamp _ (whole ▸ accepted)
  obtain ⟨month, seconds⟩ := toClock_seconds letter reads h
  rw [seconds, timegm_fields month]

end Written

section Local

theorem stampOf_length_le {year month day hour minute second : Nat} (hy : year ≤ 9999)
    (valid : InRange month day hour minute second) :
    (stampOf year month day hour minute second).length ≤ 19 := by
  obtain ⟨hmonth, hday, hhour, hminute, hsecond⟩ := valid
  have four : (decimal year).length ≤ 4 := decimal_length_le (by omega) (by omega)
  have two {n : Nat} (h : n < 10 ^ 2) : (zeroPadded 2 n).length = 2 := zeroPadded_length (by omega) h
  simp only [stampOf, stampText, List.length_append, List.length_cons]
  rw [two (by omega), two (by omega), two (by omega), two (by omega), two (by omega)]
  omega

theorem toStringLocal_text {zone : Int → Int} {clock : Clock}
    {year month day hour minute second : Nat} (hy : year ≤ 9999)
    (valid : InRange month day hour minute second)
    (fields : gmtime (clock.tvSec + zone clock.tvSec) =
      some ⟨year - 1900, month - 1, day, hour, minute, second, 0⟩) :
    toStringLocalDateAndTime zone clock =
      (localtimeOffsetString zone clock).map (stampOf year month day hour minute second ++ ·) := by
  have length := stampOf_length_le hy valid
  have local_ : localtime zone clock.tvSec =
      some ⟨year - 1900, month - 1, day, hour, minute, second, zone clock.tvSec⟩ := by
    rw [localtime, fields]
    rfl
  have zero := not_mem_stampOf (c := 0) (by decide) (by decide) year month day hour minute second
  have text : expand "%Y-%m-%dT%H:%M:%S".toList
      ⟨year - 1900, month - 1, day, hour, minute, second, zone clock.tvSec⟩ =
      stampOf year month day hour minute second := by
    have written := expand_stampOf year month day hour minute second (zone clock.tvSec) []
    rw [List.append_nil] at written
    show expand stampFormat _ = _
    rw [written]
    exact List.append_nil _
  rw [toStringLocalDateAndTime, local_, strftime_fits text (by omega), ok_bind,
    toStdString_terminated zero, ok_bind]
  rfl

theorem localtimeOffsetString_zero {zone : Int → Int} {clock : Clock} {tm : Tm}
    (h : localtime zone clock.tvSec = some tm) (utc : tm.gmtoff = 0) :
    localtimeOffsetString zone clock = .ok (literal "+00:00") := by
  have offset : toInt32 (Int.tdiv 0 60) = 0 := by decide
  have text : format (ascii '+' :: (zeroPadded 2 (Int.tdiv 0 60) ++
      ascii ':' :: zeroPadded 2 (Int.tmod 0 60))) = literal "+00:00" := by
    rw [format_short (by decide +kernel)]
    decide +kernel
  unfold localtimeOffsetString
  simp only [h, utc, ge_iff_le, Int.le_refl, if_true, offset]
  exact congrArg Except.ok text

/-- The time as UTC, read back. -/
theorem toClock_local_utc {zone : Int → Int} {clock : Clock} (utc : zone clock.tvSec = 0)
    (low : 0 ≤ (civilFromDays (clock.tvSec / 86400)).year)
    (high : (civilFromDays (clock.tvSec / 86400)).year ≤ 9999) :
    (toStringLocalDateAndTime zone clock >>= toClock) = .ok (some ⟨clock.tvSec, 0⟩) := by
  obtain ⟨year, month, day, hour, minute, second, same, valid, fields⟩ := gmtime_stamp low high
  have short : year ≤ 9999 := by omega
  have seconds := timegm_gmtime fields
  have unmoved : clock.tvSec + zone clock.tvSec = clock.tvSec := by omega
  have text := toStringLocal_text short valid (unmoved.symm ▸ fields)
  have local_ : localtime zone clock.tvSec =
      some ⟨year - 1900, month - 1, day, hour, minute, second, zone clock.tvSec⟩ := by
    rw [localtime, unmoved, fields]
    rfl
  have letter := letter_mem_stampOf year month day hour minute second
  have dot : ascii '.' ∉ stampOf year month day hour minute second ++ literal "+00:00" := by
    rw [List.mem_append]
    rintro (stamp | offset)
    · exact not_mem_stampOf (by decide) (by decide) year month day hour minute second stamp
    · exact absurd offset (by decide)
  have zoned (tm : Tm) : strptime (literal "+00:00" ++ [0]) ['%', 'z'] tm =
      some ([0], { tm with gmtoff := 0 }) := rfl
  have read := strptime_stampOf short valid (literal "+00:00" ++ [0]) ['%', 'z'] {}
  rw [zoned] at read
  rw [text, localtimeOffsetString_zero local_ utc]
  show toClock (stampOf year month day hour minute second ++ literal "+00:00") = _
  rw [toClock_whole (List.mem_append_left _ letter) dot (by rw [List.append_assoc]; exact read) rfl,
    ← seconds]

theorem zeroPadded_length_ge (width : Nat) (n : Int) : width ≤ (zeroPadded width n).length := by
  unfold zeroPadded
  split
  · simp only [List.length_cons, List.length_append, List.length_replicate]
    omega
  · simp only [List.length_append, List.length_replicate]
    omega

theorem gmtime_year {time : Int} {tm : Tm} (h : gmtime time = some tm) :
    1900 + tm.year = (civilFromDays (time / 86400)).year := by
  obtain ⟨month, day, hour, minute, second, _, rfl⟩ := gmtime_fields h
  show 1900 + (_ - 1900) = _
  omega

/-- A year of five digits does not fit. -/
theorem toStringLocal_late {zone : Int → Int} {clock : Clock} {tm : Tm}
    (h : localtime zone clock.tvSec = some tm) (late : 9999 < 1900 + tm.year) :
    toStringLocalDateAndTime zone clock = .error .uninitialised := by
  have five : 5 ≤ (printed 'Y' tm).length := by
    have more : ¬(decimal (1900 + tm.year).natAbs).length ≤ 4 := by
      rw [decimal_length_le_iff (by omega)]
      omega
    show 5 ≤ (signedDecimal (1900 + tm.year)).length
    rw [signedDecimal, if_neg (by omega)]
    omega
  have two (n : Int) := zeroPadded_length_ge 2 n
  have long : 20 ≤ (expand "%Y-%m-%dT%H:%M:%S".toList tm).length := by
    rw [expand_local]
    have month : 2 ≤ (printed 'm' tm).length := two (tm.mon + 1)
    have day : 2 ≤ (printed 'd' tm).length := two tm.mday
    have hour : 2 ≤ (printed 'H' tm).length := two tm.hour
    have minute : 2 ≤ (printed 'M' tm).length := two tm.min
    have second : 2 ≤ (printed 'S' tm).length := two tm.sec
    simp only [stampText, List.length_append, List.length_cons]
    omega
  rw [toStringLocalDateAndTime, h, strftime_overflows rfl long]
  rfl

theorem toClock_dash (text : List Byte) : toClock (ascii '-' :: text) = .ok none := by
  have unread (format : List Char) :
      strptime (ascii '-' :: text ++ [0]) ('%' :: 'Y' :: format) {} = none := rfl
  have unparsed (format : List Char) :
      parse (ascii '-' :: text ++ [0]) ('%' :: 'Y' :: format) = none := by
    rw [parse, unread]
    rfl
  unfold toClock
  simp only
  split
  next => exact congrArg (fun tm => Except.ok (Option.map _ tm)) (unparsed _)
  next =>
    split
    next => exact congrArg (fun tm => Except.ok (Option.map _ tm)) (unparsed _)
    next =>
      have unstamped : strptime (ascii '-' :: text ++ [0]) "%Y-%m-%dT%H:%M:%S".toList {} = none :=
        unread _
      rw [unstamped]

theorem toClock_local_early {zone : Int → Int} {clock : Clock} {tm : Tm}
    (h : localtime zone clock.tvSec = some tm) (early : 1900 + tm.year < 0) {result : Clock} :
    (toStringLocalDateAndTime zone clock >>= toClock) ≠ .ok (some result) := by
  intro read
  obtain ⟨text, written, read⟩ := bind_ok read
  rw [toStringLocalDateAndTime, h] at written
  obtain ⟨cells, stored, written⟩ := bind_ok written
  obtain ⟨front, copied, written⟩ := bind_ok written
  obtain ⟨offset, _, written⟩ := bind_ok written
  cases written
  have minus : ∃ digits, expand "%Y-%m-%dT%H:%M:%S".toList tm = ascii '-' :: digits := by
    have year : printed 'Y' tm = ascii '-' :: decimal (1900 + tm.year).natAbs := if_pos early
    rw [expand_local, year]
    exact ⟨_, rfl⟩
  obtain ⟨digits, minus⟩ := minus
  by_cases fits : (ascii '-' :: digits).length < 20
  · have stored' : strftime (List.replicate 20 none) "%Y-%m-%dT%H:%M:%S".toList (some tm) = _ :=
      strftime_fits minus fits
    rw [stored'] at stored
    cases stored
    obtain ⟨rest, _, copied⟩ := bind_ok copied
    cases copied
    rw [List.cons_append, toClock_dash] at read
    cases read
  · have unstored : strftime (List.replicate 20 none) "%Y-%m-%dT%H:%M:%S".toList (some tm) = _ :=
      strftime_overflows minus (Nat.le_of_not_lt fits)
    rw [unstored] at stored
    cases stored
    cases copied

/-- The text of a local time is read back as that time exactly in a zone that is UTC. -/
theorem toClock_local_iff (zone : Int → Int) (clock : Clock) :
    (∃ result, (toStringLocalDateAndTime zone clock >>= toClock) = .ok (some result) ∧
        result.tvSec = clock.tvSec) ↔
      zone clock.tvSec = 0 ∧ 0 ≤ (civilFromDays (clock.tvSec / 86400)).year ∧
        (civilFromDays (clock.tvSec / 86400)).year ≤ 9999 := by
  constructor
  · rintro ⟨result, read, same⟩
    cases fields : gmtime (clock.tvSec + zone clock.tvSec) with
    | none =>
      have nowhere : localtime zone clock.tvSec = none := by rw [localtime, fields]; rfl
      rw [toStringLocalDateAndTime, nowhere] at read
      cases read
    | some tm =>
      have local_ : localtime zone clock.tvSec = some { tm with gmtoff := zone clock.tvSec } := by
        rw [localtime, fields]
        rfl
      have year := gmtime_year fields
      by_cases early : 1900 + tm.year < 0
      · exact absurd read (toClock_local_early local_ early)
      by_cases late : 9999 < 1900 + tm.year
      · rw [toStringLocal_late local_ late] at read
        cases read
      obtain ⟨year', month, day, hour, minute, second, _, valid, stamped⟩ :=
        gmtime_stamp (year ▸ Int.not_lt.mp early) (year ▸ Int.not_lt.mp late)
      have short : year' ≤ 9999 := by omega
      obtain ⟨text, written, read⟩ := bind_ok read
      rw [toStringLocal_text short valid stamped] at written
      cases offset : localtimeOffsetString zone clock with
      | error fault =>
        rw [offset] at written
        cases written
      | ok offsetText =>
        rw [offset] at written
        cases written
        have letter := List.mem_append_left offsetText
          (letter_mem_stampOf year' month day hour minute second)
        have reads (more : List Char) (result : List Byte × Tm)
            (accepted : strptime (stampOf year' month day hour minute second ++ offsetText ++ [0])
              (stampFormat ++ more) {} = some result) :
            True ∧ strptime (offsetText ++ [0]) more
                ⟨year' - 1900, month - 1, day, hour, minute, second, 0⟩ = some result ∨
              ∃ d rest' tm', isDigit d = true ∧ strptime (d :: rest') more tm' = some result := by
          rw [List.append_assoc, strptime_stampOf short valid] at accepted
          exact .inl ⟨trivial, accepted⟩
        have seconds := (toClock_seconds letter reads read).2
        rw [timegm_gmtime stamped] at seconds
        have utc : zone clock.tvSec = 0 := by omega
        rw [utc, Int.add_zero] at year
        omega
  · rintro ⟨utc, low, high⟩
    exact ⟨_, toClock_local_utc utc low high, rfl⟩

end Local

/-- The offset is read, and not applied. -/
theorem toClock_offset_iff (w : Written) (zone : Int → Int) (clock : Clock) :
    (∀ result, toClock w.text = .ok (some result) →
        (result.tvSec = w.seconds - w.zone.offset ↔ w.zone.offset = 0)) ∧
      ((∃ result, (toStringLocalDateAndTime zone clock >>= toClock) = .ok (some result) ∧
          result.tvSec = clock.tvSec) ↔
        zone clock.tvSec = 0 ∧ 0 ≤ (civilFromDays (clock.tvSec / 86400)).year ∧
          (civilFromDays (clock.tvSec / 86400)).year ≤ 9999) := by
  constructor
  · intro result accepted
    rw [Written.toClock_text accepted]
    omega
  · exact toClock_local_iff zone clock

theorem toClock_offset_iff_sample :
    (1704067200 : Int) =
        Written.seconds ⟨2024, 1, 1, 0, 0, 0, some 123, .utc⟩ - WrittenZone.offset .utc ↔
      WrittenZone.offset .utc = 0 :=
  (toClock_offset_iff ⟨2024, 1, 1, 0, 0, 0, some 123, .utc⟩ (fun _ => 0) ⟨0, 0⟩).1
    ⟨1704067200, 123000000⟩ (by decide +kernel)

/-- One o'clock in a zone an hour ahead of UTC is midnight. -/
theorem offset_ignored :
    toClock (Written.text ⟨2024, 1, 1, 1, 0, 0, none, .ahead 1 0⟩) = .ok (some ⟨1704070800, 0⟩) ∧
      (1704070800 : Int) ≠
        Written.seconds ⟨2024, 1, 1, 1, 0, 0, none, .ahead 1 0⟩ - WrittenZone.offset (.ahead 1 0) := by
  constructor
  · decide +kernel
  · decide +kernel

end Clock

end Hlib
