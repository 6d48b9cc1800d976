import Hlib.Memory
import Mathlib.Data.List.TakeWhile

namespace Hlib

def ascii (c : Char) : Byte := BitVec.ofNat 8 c.toNat

def literal (text : String) : List Byte := text.toList.map ascii

/-- The characters that a `char const*` to the bytes of a `std::string` stands for. -/
def cString (text : List Byte) : List Byte := text.takeWhile fun c => c ≠ 0

theorem cString_sublist (text : List Byte) : cString text <+: text := List.takeWhile_prefix _

theorem zero_not_mem_cString (text : List Byte) : 0 ∉ cString text := by
  intro h
  simpa using List.mem_takeWhile_imp h

theorem cString_eq {text : List Byte} : cString text = text ↔ 0 ∉ text := by
  constructor
  · intro same
    rw [← same]
    exact zero_not_mem_cString text
  · intro h
    rw [cString, List.takeWhile_eq_self_iff]
    intro c hc
    simp only [decide_eq_true_eq]
    rintro rfl
    exact h hc

theorem cString_terminated {text : List Byte} (inside : 0 ∉ text) (rest : List Byte) :
    cString (text ++ 0 :: rest) = text := by
  have kept : ∀ c ∈ text, decide (c ≠ 0) = true := by
    intro c hc
    apply decide_eq_true
    rintro rfl
    exact inside hc
  have stop : (0 :: rest : List Byte).takeWhile (fun c => decide (c ≠ 0)) = [] :=
    List.takeWhile_cons_of_neg (by decide)
  rw [cString, List.takeWhile_append_of_pos kept, stop, List.append_nil]

/-- `isspace` in the C locale. -/
def isSpace (c : Byte) : Bool := c.toNat = 32 ∨ 9 ≤ c.toNat ∧ c.toNat ≤ 13

def isDigit (c : Byte) : Bool := 48 ≤ c.toNat ∧ c.toNat ≤ 57

def isAlpha (c : Byte) : Bool :=
  65 ≤ c.toNat ∧ c.toNat ≤ 90 ∨ 97 ≤ c.toNat ∧ c.toNat ≤ 122

def isAlnum (c : Byte) : Bool := isAlpha c || isDigit c

def isXDigit (c : Byte) : Bool :=
  isDigit c || (65 ≤ c.toNat ∧ c.toNat ≤ 70 ∨ 97 ≤ c.toNat ∧ c.toNat ≤ 102)

def digitValue (c : Byte) : Option Nat :=
  if isDigit c then some (c.toNat - 48)
  else if 97 ≤ c.toNat ∧ c.toNat ≤ 122 then some (c.toNat - 97 + 10)
  else if 65 ≤ c.toNat ∧ c.toNat ≤ 90 then some (c.toNat - 65 + 10)
  else none

/-- The values of the digits at the front of a text. -/
def digits (base : Nat) : List Byte → List Nat
  | [] => []
  | c :: text =>
    match digitValue c with
    | none => []
    | some d => if d < base then d :: digits base text else []

def signOf : List Byte → Bool × List Byte
  | [] => (false, [])
  | c :: text =>
    if c = ascii '-' then (true, text)
    else if c = ascii '+' then (false, text)
    else (false, c :: text)

/-- The base in effect, and the text behind the prefix that selects it. -/
def basePrefix (base : Nat) (text : List Byte) : Nat × List Byte :=
  match text with
  | zero :: x :: d :: rest =>
    if (base = 0 ∨ base = 16) ∧ zero = ascii '0' ∧ (x = ascii 'x' ∨ x = ascii 'X') ∧ isXDigit d then
      (16, d :: rest)
    else if base = 0 then (if zero = ascii '0' then 8 else 10, text)
    else (base, text)
  | zero :: _ => if base = 0 then (if zero = ascii '0' then 8 else 10, text) else (base, text)
  | [] => if base = 0 then (10, text) else (base, text)

/-- `strtoul` on a C string, for the bases it knows: the value, an `unsigned long` of 64 bits, and the
number of characters up to `*endptr`. -/
def strtoul (text : List Byte) (base : Nat) : Nat × Nat :=
  let (negative, unsigned) := signOf (text.dropWhile isSpace)
  let (base, rest) := basePrefix base unsigned
  let ds := digits base rest
  if ds = [] then (0, 0)
  else
    let n := ds.foldl (fun n d => base * n + d) 0
    (if n > 2 ^ 64 - 1 then 2 ^ 64 - 1 else if negative then (2 ^ 64 - n) % 2 ^ 64 else n,
      text.length - rest.length + ds.length)

/-- `stoui16(value, base, std::nothrow)`. -/
def stoui16 (value : List Byte) (base : Nat) : Option Nat :=
  match value with
  | [] => none
  | front :: _ =>
    if isSpace front then none
    else
      let (r, pos) := strtoul (cString value) base
      -- The character at `pos` is the terminator.
      if pos ≠ (cString value).length ∨ r > 2 ^ 16 - 1 then none else some r

/-- What `%u` prints. -/
def decimal (n : Nat) : List Byte := (Nat.toDigits 10 n).map ascii

/-- `format`, given what `vsnprintf` would print, which fails beyond `INT_MAX`. -/
def format (formatted : List Byte) : List Byte :=
  if formatted.length ≤ 2 ^ 31 - 1 then formatted else []

theorem format_short {formatted : List Byte} (h : formatted.length < 2 ^ 31) : format formatted = formatted :=
  if_pos (Nat.le_of_lt_succ h)

theorem ascii_digit {c : Char} (h : c.isDigit = true) :
    (ascii c).toNat = c.toNat ∧ 48 ≤ c.toNat ∧ c.toNat ≤ 57 := by
  have bounds : 48 ≤ c.toNat ∧ c.toNat ≤ 57 := by
    simp only [Char.isDigit, Bool.and_eq_true, decide_eq_true_eq, ge_iff_le, UInt32.le_iff_toNat_le] at h
    exact h
  refine ⟨?_, bounds⟩
  rw [ascii, BitVec.toNat_ofNat]
  omega

theorem isDigit_ascii {c : Char} (h : c.isDigit = true) : isDigit (ascii c) = true := by
  obtain ⟨same, low, high⟩ := ascii_digit h
  rw [isDigit, same]
  simp [low, high]

theorem digitValue_ascii {c : Char} (h : c.isDigit = true) :
    digitValue (ascii c) = some (c.toNat - '0'.toNat) := by
  rw [digitValue, if_pos (isDigit_ascii h), (ascii_digit h).1]
  rfl

theorem digits_ascii {cs : List Char} (h : ∀ c ∈ cs, c.isDigit = true) :
    digits 10 (cs.map ascii) = cs.map fun c => c.toNat - '0'.toNat := by
  induction cs with
  | nil => rfl
  | cons c cs ih =>
    have hc := h c List.mem_cons_self
    have small : c.toNat - '0'.toNat < 10 := by
      have := (ascii_digit hc).2.2
      have : '0'.toNat = 48 := rfl
      omega
    rw [List.map_cons, digits, digitValue_ascii hc]
    simp only [if_pos small]
    rw [ih fun c hm => h c (List.mem_cons_of_mem _ hm)]
    rfl

theorem isDigit_decimal {n : Nat} {c : Byte} (h : c ∈ decimal n) : isDigit c = true := by
  obtain ⟨digit, hd, rfl⟩ := List.mem_map.mp h
  exact isDigit_ascii (Nat.isDigit_of_mem_toDigits (by omega) (by omega) hd)

theorem digit_toNat {c : Byte} (h : isDigit c = true) : 48 ≤ c.toNat ∧ c.toNat ≤ 57 := by
  simpa [isDigit] using h

theorem isSpace_digit {c : Byte} (h : isDigit c = true) : ¬isSpace c = true := by
  have := digit_toNat h
  simp only [isSpace, decide_eq_true_eq]
  omega

theorem signOf_digit {c : Byte} (h : isDigit c = true) (text : List Byte) :
    signOf (c :: text) = (false, c :: text) := by
  have low := (digit_toNat h).1
  have minus : c ≠ ascii '-' := by
    rintro rfl
    exact absurd low (by decide)
  have plus : c ≠ ascii '+' := by
    rintro rfl
    exact absurd low (by decide)
  rw [signOf, if_neg minus, if_neg plus]

theorem decimal_ne_nil (n : Nat) : decimal n ≠ [] := by
  intro empty
  exact Nat.toDigits_ne_nil (List.map_eq_nil_iff.mp empty)

theorem decimal_length {n : Nat} (h : n < 2 ^ 16) : (decimal n).length ≤ 5 := by
  rw [decimal, List.length_map]
  exact (Nat.length_toDigits_le_iff (by omega) (by omega)).mpr (by omega)

theorem strtoul_digits {text : List Byte} (h : ∀ c ∈ text, isDigit c = true) (given : text ≠ []) :
    signOf (text.dropWhile isSpace) = (false, text) ∧ basePrefix 10 text = (10, text) := by
  cases text with
  | nil => exact absurd rfl given
  | cons c text =>
    obtain ⟨low, high⟩ := digit_toNat (h c List.mem_cons_self)
    have unspaced : ¬isSpace c = true := by
      simp only [isSpace, decide_eq_true_eq]
      omega
    have minus : c ≠ ascii '-' := by
      rintro rfl
      exact absurd low (by decide)
    have plus : c ≠ ascii '+' := by
      rintro rfl
      exact absurd low (by decide)
    refine ⟨?_, ?_⟩
    · rw [List.dropWhile_cons_of_neg unspaced, signOf, if_neg minus, if_neg plus]
    · cases text with
      | nil => rfl
      | cons x text =>
        cases text with
        | nil => rfl
        | cons d text => simp [basePrefix]

theorem cString_digits {text : List Byte} (h : ∀ c ∈ text, isDigit c = true) : cString text = text := by
  rw [cString_eq]
  intro zero
  have low := (digit_toNat (h 0 zero)).1
  exact absurd low (by decide)

theorem strtoul_decimal {n : Nat} (h : n < 2 ^ 64) :
    strtoul (decimal n) 10 = (n, (decimal n).length) := by
  have hd : ∀ c ∈ decimal n, isDigit c = true := fun c hc => isDigit_decimal hc
  obtain ⟨sign, base⟩ := strtoul_digits hd (decimal_ne_nil n)
  have values : digits 10 (decimal n) = (Nat.toDigits 10 n).map fun c => c.toNat - '0'.toNat := by
    apply digits_ascii
    exact fun c hc => Nat.isDigit_of_mem_toDigits (by omega) (by omega) hc
  have number : (digits 10 (decimal n)).foldl (fun n d => 10 * n + d) 0 = n := by
    rw [values, List.foldl_map, ← Nat.ofDigitChars_eq_foldl, Nat.ofDigitChars_ten_toDigits]
  have given : digits 10 (decimal n) ≠ [] := by
    rw [values]
    exact fun empty => Nat.toDigits_ne_nil (List.map_eq_nil_iff.mp empty)
  have length : (digits 10 (decimal n)).length = (decimal n).length := by
    rw [values, decimal, List.length_map, List.length_map]
  unfold strtoul
  simp only [sign, base, if_neg given, number, length, Nat.sub_self, Nat.zero_add]
  rw [if_neg (by omega)]
  rfl

theorem stoui16_decimal {n : Nat} (h : n < 2 ^ 16) : stoui16 (decimal n) 10 = some n := by
  have hd : ∀ c ∈ decimal n, isDigit c = true := fun c hc => isDigit_decimal hc
  unfold stoui16
  cases text : decimal n with
  | nil => exact absurd text (decimal_ne_nil n)
  | cons front rest =>
    have unspaced : ¬isSpace front = true := by
      have := digit_toNat (hd front (by rw [text]; exact List.mem_cons_self))
      simp only [isSpace, decide_eq_true_eq]
      omega
    have fits : ¬((decimal n).length ≠ (decimal n).length ∨ n > 2 ^ 16 - 1) := by
      rintro (differ | large)
      · exact differ rfl
      · omega
    change (if isSpace front then none else _) = some n
    rw [if_neg unspaced, ← text, cString_digits hd, strtoul_decimal (by omega)]
    exact if_neg fits

end Hlib
