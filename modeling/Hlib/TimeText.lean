import Hlib.BrokenTime

namespace Hlib

section Numbers

/-- The number that the digits of a text make behind those of `val`. -/
def numberFrom (val : Int) (text : List Byte) : Int := text.foldl (fun val c => val * 10 + digitOf c) val

def StopsNumber (rest : List Byte) : Prop := ∀ c, rest.head? = some c → isDigit c = false

theorem digitOf_nonneg {c : Byte} (h : isDigit c = true) : 0 ≤ digitOf c := by
  have := (digit_toNat h).1
  unfold digitOf
  omega

theorem le_numberFrom {text : List Byte} (h : ∀ c ∈ text, isDigit c = true) {val : Int} (hv : 0 ≤ val) :
    val ≤ numberFrom val text := by
  induction text generalizing val with
  | nil => exact Int.le_refl val
  | cons c text ih =>
    have hd := digitOf_nonneg (h c List.mem_cons_self)
    have grown : val * 10 + digitOf c ≤ numberFrom (val * 10 + digitOf c) text :=
      ih (fun c hc => h c (List.mem_cons_of_mem _ hc)) (by omega)
    show val ≤ numberFrom (val * 10 + digitOf c) text
    omega

theorem numberFrom_ascii {cs : List Char} (h : ∀ c ∈ cs, c.isDigit = true) (n : Nat) :
    numberFrom n (cs.map ascii) = (Nat.ofDigitChars 10 cs n : Nat) := by
  rw [Nat.ofDigitChars_eq_foldl]
  induction cs generalizing n with
  | nil => rfl
  | cons c cs ih =>
    obtain ⟨same, low, high⟩ := ascii_digit (h c List.mem_cons_self)
    have zero : '0'.toNat = 48 := rfl
    have value : (n : Int) * 10 + digitOf (ascii c) = ((10 * n + (c.toNat - '0'.toNat) : Nat) : Int) := by
      rw [digitOf, same, zero]
      omega
    show numberFrom ((n : Int) * 10 + digitOf (ascii c)) (cs.map ascii) = _
    rw [value, ih fun c hc => h c (List.mem_cons_of_mem _ hc)]
    rfl

theorem numberFrom_decimal (n : Nat) : numberFrom 0 (decimal n) = n := by
  have digits : ∀ c ∈ Nat.toDigits 10 n, c.isDigit = true := fun c hc =>
    Nat.isDigit_of_mem_toDigits (by omega) (by omega) hc
  have read := numberFrom_ascii digits 0
  rw [Nat.ofDigitChars_ten_toDigits] at read
  exact read

theorem isDigit_zero : isDigit (digit 0) = true := by decide

theorem numberFrom_zeros (width : Nat) (text : List Byte) :
    numberFrom 0 (List.replicate width (digit 0) ++ text) = numberFrom 0 text := by
  induction width with
  | zero => rfl
  | succ width ih =>
    rw [List.replicate_succ, List.cons_append]
    exact ih

theorem zeroPadded_natCast (width n : Nat) :
    zeroPadded width n = List.replicate (width - (decimal n).length) (digit 0) ++ decimal n := by
  rw [zeroPadded, if_neg (by omega), Int.natAbs_natCast]

theorem zeroPadded_digits {width n : Nat} {c : Byte} (h : c ∈ zeroPadded width n) : isDigit c = true := by
  rw [zeroPadded_natCast] at h
  rcases List.mem_append.mp h with pad | text
  · rw [List.eq_of_mem_replicate pad]
    exact isDigit_zero
  · exact isDigit_decimal text

theorem decimal_length_le_iff {n width : Nat} (hw : 0 < width) :
    (decimal n).length ≤ width ↔ n < 10 ^ width := by
  rw [decimal, List.length_map]
  exact Nat.length_toDigits_le_iff (by omega) hw

theorem decimal_length_le {n width : Nat} (hw : 0 < width) (h : n < 10 ^ width) :
    (decimal n).length ≤ width :=
  (decimal_length_le_iff hw).mpr h

theorem zeroPadded_length {width n : Nat} (hw : 0 < width) (h : n < 10 ^ width) :
    (zeroPadded width n).length = width := by
  have := decimal_length_le hw h
  rw [zeroPadded_natCast, List.length_append, List.length_replicate]
  omega

theorem zeroPadded_ne_nil (width n : Nat) : zeroPadded width n ≠ [] := by
  rw [zeroPadded_natCast]
  intro empty
  exact decimal_ne_nil n (List.append_eq_nil_iff.mp empty).2

theorem numberFrom_zeroPadded (width n : Nat) : numberFrom 0 (zeroPadded width n) = n := by
  rw [zeroPadded_natCast, numberFrom_zeros, numberFrom_decimal]

/-- A number is read to its end, as long as it is no longer than the conversion allows. -/
theorem moreDigits_all {high : Int} {text rest : List Byte} (h : ∀ c ∈ text, isDigit c = true)
    {n : Nat} (short : text.length ≤ n) (stop : text.length = n ∨ StopsNumber rest) {val : Int}
    (hv : 0 ≤ val) (small : numberFrom val text ≤ high) :
    moreDigits high n val (text ++ rest) = (numberFrom val text, rest) := by
  induction text generalizing n val with
  | nil =>
    cases n with
    | zero => rfl
    | succ n =>
      cases rest with
      | nil => rfl
      | cons c rest =>
        have other : isDigit c = false := by
          rcases stop with full | stop
          · cases full
          · exact stop c rfl
        show (if val * 10 ≤ high ∧ isDigit c = true then _ else _) = _
        rw [if_neg (by rw [other]; simp)]
        rfl
  | cons c text ih =>
    have hc := h c List.mem_cons_self
    have hd := digitOf_nonneg hc
    have later : ∀ c ∈ text, isDigit c = true := fun c hc => h c (List.mem_cons_of_mem _ hc)
    have grown : val * 10 + digitOf c ≤ numberFrom (val * 10 + digitOf c) text :=
      le_numberFrom later (by omega)
    have within : numberFrom (val * 10 + digitOf c) text ≤ high := small
    cases n with
    | zero => cases short
    | succ n =>
      have full : text.length = n ∨ StopsNumber rest := by
        rcases stop with full | stop
        · exact .inl (Nat.succ.inj full)
        · exact .inr stop
      show (if val * 10 ≤ high ∧ isDigit c = true then _ else _) = _
      rw [if_pos ⟨by omega, hc⟩]
      exact ih later (Nat.le_of_succ_le_succ short) full (by omega) within

theorem getNumber_text {low high : Int} {text rest : List Byte} (h : ∀ c ∈ text, isDigit c = true)
    (given : text ≠ []) {n : Nat} (short : text.length ≤ n) (stop : text.length = n ∨ StopsNumber rest)
    (above : low ≤ numberFrom 0 text) (below : numberFrom 0 text ≤ high) :
    getNumber low high n (text ++ rest) = some (numberFrom 0 text, rest) := by
  cases text with
  | nil => exact absurd rfl given
  | cons c text =>
    have hc := h c List.mem_cons_self
    have later : ∀ c ∈ text, isDigit c = true := fun c hc => h c (List.mem_cons_of_mem _ hc)
    have first : numberFrom 0 (c :: text) = numberFrom (digitOf c) text := by
      show numberFrom (0 * 10 + digitOf c) text = _
      rw [Int.zero_mul, Int.zero_add]
    rw [first] at above below
    rw [first]
    have few : text.length ≤ n - 1 := by
      rw [List.length_cons] at short
      omega
    have full : text.length = n - 1 ∨ StopsNumber rest := by
      rcases stop with full | stop
      · rw [List.length_cons] at full
        exact .inl (by omega)
      · exact .inr stop
    have read := moreDigits_all later few full (digitOf_nonneg hc) below
    unfold getNumber
    rw [List.cons_append, List.dropWhile_cons_of_neg (isSpace_digit hc)]
    simp only [hc, if_true, read]
    rw [if_neg (by omega)]

theorem getNumber_zeroPadded {low high : Int} {width n : Nat} (hw : 0 < width) (h : n < 10 ^ width)
    (above : low ≤ n) (below : n ≤ high) (rest : List Byte) :
    getNumber low high width (zeroPadded width n ++ rest) = some ((n : Int), rest) := by
  have length := zeroPadded_length hw h
  have number := numberFrom_zeroPadded width n
  rw [← number] at above below
  have read : getNumber low high width (zeroPadded width n ++ rest) = _ :=
    getNumber_text (fun c hc => zeroPadded_digits hc) (zeroPadded_ne_nil width n)
      (Nat.le_of_eq length) (.inl length) above below
  rw [read, number]

theorem sscanfMilliseconds_padded {n : Nat} (h : n < 1000) (rest : List Byte) :
    sscanfMilliseconds (ascii '.' :: (zeroPadded 3 n ++ rest)) = some (n : Int) := by
  have length : (zeroPadded 3 n).length = 3 := zeroPadded_length (by omega) h
  have digits : ∀ c ∈ zeroPadded 3 n, isDigit c = true := fun c hc => zeroPadded_digits hc
  have number : (zeroPadded 3 n).foldl (fun val c => val * 10 + digitOf c) 0 = (n : Int) :=
    numberFrom_zeroPadded 3 n
  have given := zeroPadded_ne_nil 3 n
  have unspaced : (zeroPadded 3 n ++ rest).dropWhile isSpace = zeroPadded 3 n ++ rest := by
    cases text : zeroPadded 3 n with
    | nil => exact absurd text given
    | cons c text' =>
      rw [text] at digits
      rw [List.cons_append, List.dropWhile_cons_of_neg (isSpace_digit (digits c List.mem_cons_self))]
  have unsigned : signOf (zeroPadded 3 n ++ rest) = (false, zeroPadded 3 n ++ rest) := by
    cases text : zeroPadded 3 n with
    | nil => exact absurd text given
    | cons c text' =>
      rw [text] at digits
      exact signOf_digit (digits c List.mem_cons_self) _
  have taken : ((zeroPadded 3 n ++ rest).take 3).takeWhile isDigit = zeroPadded 3 n := by
    rw [List.take_left' length, List.takeWhile_eq_self_iff]
    exact digits
  unfold sscanfMilliseconds
  simp only [if_true, unspaced, unsigned, Nat.sub_self, Nat.sub_zero, taken, number]
  rw [if_neg given]
  rfl

end Numbers

section Stamps

def stampFormat : List Char := "%Y-%m-%dT%H:%M:%S".toList

/-- The date and the time that `stampFormat` stands for. -/
def stampText (year month day hour minute second : List Byte) : List Byte :=
  year ++ ascii '-' :: (month ++ ascii '-' :: (day ++ ascii 'T' :: (hour ++ ascii ':' ::
    (minute ++ ascii ':' :: second))))

theorem mem_stampText {year month day hour minute second : List Byte}
    (hy : ∀ c ∈ year, isDigit c = true) (hm : ∀ c ∈ month, isDigit c = true)
    (hd : ∀ c ∈ day, isDigit c = true) (hh : ∀ c ∈ hour, isDigit c = true)
    (hmin : ∀ c ∈ minute, isDigit c = true) (hs : ∀ c ∈ second, isDigit c = true) {c : Byte}
    (h : c ∈ stampText year month day hour minute second) :
    isDigit c = true ∨ c = ascii '-' ∨ c = ascii 'T' ∨ c = ascii ':' := by
  simp only [stampText, List.mem_append, List.mem_cons] at h
  rcases h with h | h | h | h | h | h | h | h | h | h | h
  · exact .inl (hy c h)
  · exact .inr (.inl h)
  · exact .inl (hm c h)
  · exact .inr (.inl h)
  · exact .inl (hd c h)
  · exact .inr (.inr (.inl h))
  · exact .inl (hh c h)
  · exact .inr (.inr (.inr h))
  · exact .inl (hmin c h)
  · exact .inr (.inr (.inr h))
  · exact .inl (hs c h)

theorem expand_conversion (conversion : Char) (format : List Char) (tm : Tm) :
    expand ('%' :: conversion :: format) tm = printed conversion tm ++ expand format tm := rfl

theorem expand_literal {f : Char} (h : f ≠ '%') (format : List Char) (tm : Tm) :
    expand (f :: format) tm = ascii f :: expand format tm := by
  rw [expand]
  intro _ _ same
  exact absurd same h

theorem stampFormat_toList (more : List Char) : stampFormat ++ more =
    '%' :: 'Y' :: '-' :: '%' :: 'm' :: '-' :: '%' :: 'd' :: 'T' :: '%' :: 'H' :: ':' :: '%' :: 'M' ::
      ':' :: '%' :: 'S' :: more := rfl

theorem expand_stamp (more : List Char) (tm : Tm) : expand (stampFormat ++ more) tm =
    stampText (printed 'Y' tm) (printed 'm' tm) (printed 'd' tm) (printed 'H' tm) (printed 'M' tm)
      (printed 'S' tm) ++ expand more tm := by
  have dash : '-' ≠ '%' := by decide
  have colon : ':' ≠ '%' := by decide
  have letter : 'T' ≠ '%' := by decide
  rw [stampFormat_toList, expand_conversion, expand_literal dash, expand_conversion,
    expand_literal dash, expand_conversion, expand_literal letter, expand_conversion,
    expand_literal colon, expand_conversion, expand_literal colon, expand_conversion, stampText]
  simp only [List.append_assoc, List.cons_append]

theorem expand_local (tm : Tm) : expand "%Y-%m-%dT%H:%M:%S".toList tm =
    stampText (printed 'Y' tm) (printed 'm' tm) (printed 'd' tm) (printed 'H' tm) (printed 'M' tm)
      (printed 'S' tm) := by
  have stamp := expand_stamp [] tm
  rw [List.append_nil] at stamp
  show expand stampFormat tm = _
  rw [stamp]
  exact List.append_nil _

theorem strptime_conversion {conversion : Char} {rp rp' : List Byte} {tm tm' : Tm}
    (h : convert conversion rp tm = some (rp', tm')) (format : List Char) :
    strptime rp ('%' :: conversion :: format) tm = strptime rp' format tm' := by
  rw [strptime, h]
  rfl

theorem strptime_literal {f : Char} (h : f ≠ '%') (rp : List Byte) (format : List Char) (tm : Tm) :
    strptime (ascii f :: rp) (f :: format) tm = strptime rp format tm := by
  rw [strptime, if_pos rfl]
  intro _ _ same
  exact absurd same h

/-- A conversion that reads a number of at most two digits, of those between two bounds. -/
def ReadsTwo (conversion : Char) (low high : Int) (set : Tm → Int → Tm) : Prop :=
  ∀ rp tm, convert conversion rp tm = (getNumber low high 2 rp).map fun (val, rp) => (rp, set tm val)

theorem readsMonth : ReadsTwo 'm' 1 12 fun tm val => { tm with mon := val - 1 } := fun _ _ => rfl

theorem readsDay : ReadsTwo 'd' 1 31 fun tm val => { tm with mday := val } := fun _ _ => rfl

theorem readsHour : ReadsTwo 'H' 0 23 fun tm val => { tm with hour := val } := fun _ _ => rfl

theorem readsMinute : ReadsTwo 'M' 0 59 fun tm val => { tm with min := val } := fun _ _ => rfl

theorem readsSecond : ReadsTwo 'S' 0 61 fun tm val => { tm with sec := val } := fun _ _ => rfl

theorem strptime_two {conversion : Char} {low high : Int} {set : Tm → Int → Tm}
    (reads : ReadsTwo conversion low high set) {n : Nat} (small : n < 100) (above : low ≤ n)
    (below : n ≤ high) (rest : List Byte) (format : List Char) (tm : Tm) :
    strptime (zeroPadded 2 n ++ rest) ('%' :: conversion :: format) tm =
      strptime rest format (set tm n) := by
  apply strptime_conversion
  have two : n < 10 ^ 2 := small
  rw [reads, getNumber_zeroPadded (by omega) two above below]
  rfl

theorem strptime_year {yearText rest : List Byte} {year : Nat}
    (h : getNumber 0 9999 4 (yearText ++ rest) = some ((year : Int), rest)) (format : List Char)
    (tm : Tm) :
    strptime (yearText ++ rest) ('%' :: 'Y' :: format) tm =
      strptime rest format { tm with year := year - 1900 } := by
  apply strptime_conversion
  show (getNumber 0 9999 4 (yearText ++ rest)).map _ = _
  rw [h]
  rfl

/-- The fields of a stamp lie in the ranges that `strptime` checks. -/
structure InRange (month day hour minute second : Nat) : Prop where
  month : 1 ≤ month ∧ month ≤ 12
  day : 1 ≤ day ∧ day ≤ 31
  hour : hour ≤ 23
  minute : minute ≤ 59
  second : second ≤ 61

theorem strptime_stamp {yearText : List Byte} {year month day hour minute second : Nat}
    (hyear : ∀ rest, getNumber 0 9999 4 (yearText ++ ascii '-' :: rest) =
      some ((year : Int), ascii '-' :: rest))
    (valid : InRange month day hour minute second) (rest : List Byte) (more : List Char) (tm : Tm) :
    strptime (stampText yearText (zeroPadded 2 month) (zeroPadded 2 day) (zeroPadded 2 hour)
        (zeroPadded 2 minute) (zeroPadded 2 second) ++ rest) (stampFormat ++ more) tm =
      strptime rest more ⟨year - 1900, month - 1, day, hour, minute, second, tm.gmtoff⟩ := by
  obtain ⟨hmonth, hday, hhour, hminute, hsecond⟩ := valid
  have dash : '-' ≠ '%' := by decide
  have colon : ':' ≠ '%' := by decide
  have letter : 'T' ≠ '%' := by decide
  rw [stampFormat_toList]
  simp only [stampText, List.append_assoc, List.cons_append]
  rw [strptime_year (hyear _), strptime_literal dash,
    strptime_two readsMonth (by omega) (by omega) (by omega), strptime_literal dash,
    strptime_two readsDay (by omega) (by omega) (by omega), strptime_literal letter,
    strptime_two readsHour (by omega) (by omega) (by omega), strptime_literal colon,
    strptime_two readsMinute (by omega) (by omega) (by omega), strptime_literal colon,
    strptime_two readsSecond (by omega) (by omega) (by omega)]

end Stamps

end Hlib
