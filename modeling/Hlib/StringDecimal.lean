import Hlib.StringScan
import Mathlib.Data.Nat.Digits.Defs

namespace Hlib

section Libc

/-- `strtoull` on a C string, like `strtoul`, with whether `errno` is set to `ERANGE`. -/
def strtoull (text : List Byte) (base : Nat) : Nat × Nat × Bool :=
  let (negative, unsigned) := signOf (text.dropWhile isSpace)
  let (base, rest) := basePrefix base unsigned
  let ds := digits base rest
  if ds = [] then (0, 0, false)
  else
    let n := ds.foldl (fun n d => base * n + d) 0
    (if n > 2 ^ 64 - 1 then 2 ^ 64 - 1 else if negative then (2 ^ 64 - n) % 2 ^ 64 else n,
      text.length - rest.length + ds.length, n > 2 ^ 64 - 1)

theorem strtoul_eq (text : List Byte) (base : Nat) :
    strtoul text base = ((strtoull text base).1, (strtoull text base).2.1) := by
  unfold strtoul strtoull
  dsimp only
  split
  · rfl
  · rfl

def EINVAL : Errno := 22

namespace Libc

/-- For a base that is not known, `*endptr` is not stored to. -/
def scanner {ν : Type} (zero : ν) (scan : List Byte → Nat → ν × Nat × Bool) : Scanner ν := fun text base =>
  if base < 0 ∨ base = 1 ∨ base > 36 then ⟨zero, none, some EINVAL⟩
  else
    let (value, pos, range) := scan text base.toNat
    ⟨value, some pos, if range then some ERANGE else none⟩

def strtoll : Scanner Int := scanner 0 Hlib.strtoll

/-- A `long` has 64 bits. -/
def strtol : Scanner Int := strtoll

def strtoull : Scanner Nat := scanner 0 Hlib.strtoull

def strtoul : Scanner Nat := strtoull

/-- The bases that are known. -/
def Known (base : Nat) : Prop := base = 0 ∨ 2 ≤ base ∧ base ≤ 36

theorem scanner_known {ν : Type} (zero : ν) (scan : List Byte → Nat → ν × Nat × Bool) (text : List Byte)
    {base : Nat} (known : Known base) :
    scanner zero scan text base =
      ⟨(scan text base).1, some (scan text base).2.1, if (scan text base).2.2 then some ERANGE else none⟩ := by
  unfold Known at known
  rw [scanner, if_neg (by omega), Int.toNat_natCast]

theorem scanner_ten {ν : Type} (zero : ν) (scan : List Byte → Nat → ν × Nat × Bool) (text : List Byte) :
    scanner zero scan text 10 =
      ⟨(scan text 10).1, some (scan text 10).2.1, if (scan text 10).2.2 then some ERANGE else none⟩ := rfl

end Libc

end Libc

section Numerals

/-- The sign in front of the digits, the number they make, and where they end. -/
def numeral (text : List Byte) (base : Nat) : Option (Bool × Nat × Nat) :=
  let (negative, unsigned) := signOf (text.dropWhile isSpace)
  let (base, rest) := basePrefix base unsigned
  let ds := digits base rest
  if ds = [] then none
  else some (negative, ds.foldl (fun n d => base * n + d) 0, text.length - rest.length + ds.length)

theorem strtoll_none {text : List Byte} {base : Nat} (h : numeral text base = none) :
    strtoll text base = (0, 0, false) := by
  unfold numeral at h
  dsimp only at h
  split at h
  next empty =>
    unfold strtoll
    dsimp only
    rw [if_pos empty]
  next => cases h

theorem strtoull_none {text : List Byte} {base : Nat} (h : numeral text base = none) :
    strtoull text base = (0, 0, false) := by
  unfold numeral at h
  dsimp only at h
  split at h
  next empty =>
    unfold strtoull
    dsimp only
    rw [if_pos empty]
  next => cases h

theorem strtoll_some {text : List Byte} {base n pos : Nat} {negative : Bool}
    (h : numeral text base = some (negative, n, pos)) :
    strtoll text base =
      if negative then (if n ≤ 2 ^ 63 then (-(n : Int), pos, false) else (-2 ^ 63, pos, true))
      else if n ≤ 2 ^ 63 - 1 then ((n : Int), pos, false)
      else (2 ^ 63 - 1, pos, true) := by
  unfold numeral at h
  dsimp only at h
  split at h
  next => cases h
  next given =>
    cases h
    unfold strtoll
    dsimp only
    rw [if_neg given]

theorem strtoull_some {text : List Byte} {base n pos : Nat} {negative : Bool}
    (h : numeral text base = some (negative, n, pos)) :
    strtoull text base =
      (if n > 2 ^ 64 - 1 then 2 ^ 64 - 1 else if negative then (2 ^ 64 - n) % 2 ^ 64 else n, pos,
        decide (n > 2 ^ 64 - 1)) := by
  unfold numeral at h
  dsimp only at h
  split at h
  next => cases h
  next given =>
    cases h
    unfold strtoull
    dsimp only
    rw [if_neg given]

end Numerals

section Decimal

/-- The number that decimal digits stand for. -/
def number (text : List Byte) : Nat := Nat.ofDigits 10 (text.reverse.map fun c => c.toNat - 48)

/-- One or more decimal digits. -/
structure Decimal (text : List Byte) : Prop where
  given : text ≠ []
  digits : ∀ c ∈ text, isDigit c = true

/-- The text is a decimal integer with an optional sign, of the value `v`. -/
inductive Denotes : List Byte → Int → Prop
  | plain {ds} : Decimal ds → Denotes ds (number ds)
  | plus {ds} : Decimal ds → Denotes (ascii '+' :: ds) (number ds)
  | minus {ds} : Decimal ds → Denotes (ascii '-' :: ds) (-number ds)

theorem number_eq_foldl (text : List Byte) :
    number text = (text.map fun c => c.toNat - 48).foldl (fun n d => 10 * n + d) 0 := by
  rw [number, Nat.ofDigits_eq_foldr, List.map_reverse, List.foldr_reverse]
  congr 1
  funext n d
  simp [Nat.add_comm]

theorem digits_takeWhile (text : List Byte) :
    digits 10 text = (text.takeWhile isDigit).map fun c => c.toNat - 48 := by
  induction text with
  | nil => rfl
  | cons c text ih =>
    by_cases digit : isDigit c = true
    · have bounds := digit_toNat digit
      rw [digits, digitValue, if_pos digit, List.takeWhile_cons_of_pos digit, List.map_cons, ← ih]
      exact if_pos (by omega)
    · rw [List.takeWhile_cons_of_neg digit, digits, digitValue, if_neg digit]
      -- A letter stands for ten at least.
      split
      next => rfl
      next d hd =>
        refine if_neg ?_
        split at hd
        next =>
          cases hd
          omega
        next =>
          split at hd
          next =>
            cases hd
            omega
          next => cases hd

theorem basePrefix_ten (text : List Byte) : basePrefix 10 text = (10, text) := by
  unfold basePrefix
  split
  next => simp
  next => rfl
  next => rfl

theorem numeral_eq {text rest : List Byte} {negative : Bool} (unspaced : text.dropWhile isSpace = text)
    (sign : signOf text = (negative, rest)) :
    numeral text 10 = if rest.takeWhile isDigit = [] then none
      else some (negative, number (rest.takeWhile isDigit),
        text.length - rest.length + (rest.takeWhile isDigit).length) := by
  unfold numeral
  simp only [unspaced, sign, basePrefix_ten, digits_takeWhile, List.map_eq_nil_iff, List.length_map,
    number_eq_foldl]

/-- The character that a text begins with is none that is skipped. -/
def Unspaced (text : List Byte) : Prop := ∀ c ∈ text.head?, isSpace c = false

theorem Unspaced.dropWhile {text : List Byte} (h : Unspaced text) : text.dropWhile isSpace = text := by
  cases text with
  | nil => rfl
  | cons c text => exact List.dropWhile_cons_of_neg (by rw [h c rfl]; nofun)

theorem Decimal.head {ds : List Byte} (h : Decimal ds) : ∃ c text, ds = c :: text ∧ isDigit c = true := by
  cases ds with
  | nil => exact absurd rfl h.given
  | cons c text => exact ⟨c, text, rfl, h.digits c List.mem_cons_self⟩

theorem Decimal.takeWhile {ds : List Byte} (h : Decimal ds) : ds.takeWhile isDigit = ds :=
  List.takeWhile_eq_self_iff.mpr h.digits

theorem Denotes.unspaced {text : List Byte} {v : Int} (h : Denotes text v) : Unspaced text := by
  cases h with
  | plain decimal =>
    obtain ⟨c, rest, rfl, digit⟩ := decimal.head
    rintro _ ⟨⟩
    exact eq_false_of_ne_true (isSpace_digit digit)
  | plus decimal =>
    rintro _ ⟨⟩
    decide
  | minus decimal =>
    rintro _ ⟨⟩
    decide

theorem numeral_of_denotes {text : List Byte} {v : Int} (h : Denotes text v) :
    ∃ (negative : Bool) (n : Nat), numeral text 10 = some (negative, n, text.length) ∧
      v = if negative then -(n : Int) else n := by
  have unspaced := h.unspaced.dropWhile
  cases h with
  | plain decimal =>
    refine ⟨false, number text, ?_, rfl⟩
    obtain ⟨c, rest, rfl, digit⟩ := decimal.head
    rw [numeral_eq unspaced (signOf_digit digit rest), decimal.takeWhile, if_neg decimal.given, Nat.sub_self,
      Nat.zero_add]
  | @plus ds decimal =>
    refine ⟨false, number ds, ?_, rfl⟩
    rw [numeral_eq unspaced rfl, decimal.takeWhile, if_neg decimal.given, List.length_cons,
      Nat.add_sub_cancel_left, Nat.add_comm]
  | @minus ds decimal =>
    refine ⟨true, number ds, ?_, rfl⟩
    rw [numeral_eq unspaced rfl, decimal.takeWhile, if_neg decimal.given, List.length_cons,
      Nat.add_sub_cancel_left, Nat.add_comm]

theorem decimal_of_numeral {text rest : List Byte} {negative negative' : Bool} {n : Nat}
    (unspaced : Unspaced text) (sign : signOf text = (negative, rest)) (inside : rest.length ≤ text.length)
    (h : numeral text 10 = some (negative', n, text.length)) :
    Decimal rest ∧ negative' = negative ∧ n = number rest := by
  rw [numeral_eq unspaced.dropWhile sign] at h
  split at h
  next => cases h
  next given =>
    obtain ⟨rfl, rfl, length⟩ : negative = negative' ∧ number (rest.takeWhile isDigit) = n ∧
        text.length - rest.length + (rest.takeWhile isDigit).length = text.length := by
      simpa using h
    have whole : rest.takeWhile isDigit = rest :=
      (List.takeWhile_prefix isDigit).eq_of_length (by omega)
    rw [whole] at given ⊢
    exact ⟨⟨given, List.takeWhile_eq_self_iff.mp whole⟩, rfl, rfl⟩

theorem denotes_of_numeral {text : List Byte} {negative : Bool} {n : Nat} (unspaced : Unspaced text)
    (h : numeral text 10 = some (negative, n, text.length)) :
    Denotes text (if negative then -(n : Int) else n) := by
  cases text with
  | nil => cases h
  | cons c text =>
    by_cases minus : c = ascii '-'
    · subst minus
      obtain ⟨decimal, rfl, rfl⟩ := decimal_of_numeral unspaced rfl (Nat.le_succ _) h
      exact .minus decimal
    · by_cases plus : c = ascii '+'
      · subst plus
        obtain ⟨decimal, rfl, rfl⟩ := decimal_of_numeral unspaced rfl (Nat.le_succ _) h
        exact .plus decimal
      · have sign : signOf (c :: text) = (false, c :: text) := by
          rw [signOf, if_neg minus, if_neg plus]
        obtain ⟨decimal, rfl, rfl⟩ := decimal_of_numeral unspaced sign (Nat.le_refl _) h
        exact .plain decimal

theorem Denotes.inside {text : List Byte} {v : Int} (h : Denotes text v) : 0 ∉ text := by
  have decimal_inside {ds : List Byte} (decimal : Decimal ds) : 0 ∉ ds := by
    intro zero
    exact absurd (digit_toNat (decimal.digits 0 zero)).1 (by decide)
  cases h with
  | plain decimal => exact decimal_inside decimal
  | plus decimal => exact List.not_mem_cons_of_ne_of_not_mem (by decide) (decimal_inside decimal)
  | minus decimal => exact List.not_mem_cons_of_ne_of_not_mem (by decide) (decimal_inside decimal)

theorem Denotes.given {text : List Byte} {v : Int} (h : Denotes text v) : text ≠ [] := by
  cases h with
  | plain decimal => exact decimal.given
  | plus decimal => exact List.cons_ne_nil _ _
  | minus decimal => exact List.cons_ne_nil _ _

theorem Denotes.unique {text : List Byte} {v v' : Int} (h : Denotes text v) (h' : Denotes text v') : v = v' := by
  obtain ⟨negative, n, scanned, rfl⟩ := numeral_of_denotes h
  obtain ⟨negative', n', scanned', rfl⟩ := numeral_of_denotes h'
  cases scanned.symm.trans scanned'
  rfl

end Decimal

namespace StringTo

section Strings

variable {ν : Type} {scanner : Scanner ν} {resets : Bool} {refuses : ν → Errno → Bool} {text : List Byte}
  {base : Int} {errno : Errno}

theorem convert_text (given : text ≠ []) (unspaced : Unspaced text) (inside : 0 ∉ text) :
    (convert scanner resets refuses text base errno).1 =
      if Incomplete (scanner text base) text ∨
          refuses (scanner text base).value ((scanner text base).errno.getD (if resets then 0 else errno)) then none
      else some (scanner text base).value := by
  have whole := cString_eq.mpr inside
  cases text with
  | nil => exact absurd rfl given
  | cons front text =>
    have solid : ¬isSpace front = true := by
      rw [unspaced front rfl]
      nofun
    unfold convert
    simp only [if_neg solid, whole]
    exact apply_ite Prod.fst _ _ _

theorem convert_spaced (h : ¬Unspaced text) : (convert scanner resets refuses text base errno).1 = none := by
  cases text with
  | nil => exact absurd nofun h
  | cons front text =>
    have space : isSpace front = true := by
      by_contra solid
      apply h
      rintro _ ⟨⟩
      exact eq_false_of_ne_true solid
    unfold convert
    simp only [if_pos space]

/-- A string is converted as the part in front of its first zero. -/
theorem convert_cString (given : cString text ≠ []) :
    convert scanner resets refuses text base errno = convert scanner resets refuses (cString text) base errno := by
  have again : cString (cString text) = cString text := cString_eq.mpr (zero_not_mem_cString text)
  cases text with
  | nil => exact absurd rfl given
  | cons front text =>
    have first : front ≠ 0 := by
      rintro rfl
      exact given (List.takeWhile_cons_of_neg (by decide))
    have front_kept : cString (front :: text) = front :: cString text :=
      List.takeWhile_cons_of_pos (decide_eq_true first)
    rw [front_kept] at again ⊢
    unfold convert
    simp only [again, front_kept]

theorem convert_zero (h : text ≠ []) (empty : cString text = []) (scanned : (scanner [] base).pos = some 0)
    (accepted : refuses (scanner [] base).value ((scanner [] base).errno.getD (if resets then 0 else errno)) = false) :
    (convert scanner resets refuses text base errno).1 = some (scanner [] base).value := by
  cases text with
  | nil => exact absurd rfl h
  | cons front text =>
    have zero : front = 0 := by
      by_contra first
      have kept : cString (front :: text) = front :: cString text :=
        List.takeWhile_cons_of_pos (decide_eq_true first)
      rw [kept] at empty
      cases empty
    have solid : ¬isSpace front = true := by
      rw [zero]
      decide
    have complete : ¬Incomplete (scanner [] base) [] := fun incomplete => incomplete scanned
    unfold convert
    simp only [if_neg solid, empty]
    rw [if_neg (not_or.mpr ⟨complete, by rw [accepted]; nofun⟩)]

end Strings

section Conversions

variable (value : List Byte) {base : Nat} (known : Libc.Known base) (errno : Errno)

include known

/-- The conversion of the arguments of type `Integer`. -/
theorem stoi64_eq : stoi64 Libc.strtoll value base errno = Hlib.stoi64 value base errno := by
  unfold stoi64 convert Hlib.stoi64 Libc.strtoll
  cases value with
  | nil => rfl
  | cons front value =>
    dsimp only
    rw [Libc.scanner_known _ _ _ known]
    by_cases space : isSpace front
    · rw [if_pos space, if_pos space]
    · rw [if_neg space, if_neg space]
      unfold Incomplete
      obtain ⟨r, pos, range⟩ := Hlib.strtoll (cString (front :: value)) base
      cases range with
      | true => simp [@eq_comm Int _ r]
      | false => simp [ERANGE]

/-- The conversion of the ports. -/
theorem stoui16_eq : (stoui16 Libc.strtoul value base errno).1 = Hlib.stoui16 value base := by
  unfold stoui16 convert Hlib.stoui16 Libc.strtoul Libc.strtoull
  cases value with
  | nil => rfl
  | cons front value =>
    dsimp only
    rw [Libc.scanner_known _ _ _ known, strtoul_eq]
    by_cases space : isSpace front
    · rw [if_pos space, if_pos space]
    · rw [if_neg space, if_neg space]
      unfold Incomplete
      obtain ⟨r, pos, range⟩ := Hlib.strtoull (cString (front :: value)) base
      simp [apply_ite Prod.fst]

end Conversions

end StringTo

end Hlib
