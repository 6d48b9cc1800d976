import Hlib.Uri
import Mathlib.Data.List.Induction

namespace Hlib

namespace UriEncoding

open Uri (formatTo)

def percent : Byte := ascii '%'

def hdigit (n : Nat) : Byte := (literal "0123456789ABCDEF").getD n 0

def needsEscaping (c : Byte) : Bool :=
  !(isAlnum c || c = ascii '-' || c = ascii '.' || c = ascii '_' || c = ascii '~')

/-- One round of the loop of `uri_encoding_escape`; a `char` is signed. -/
def escapeNext (escaped : List Byte) (c : Byte) : List Byte :=
  if needsEscaping c then
    formatTo escaped
      [percent, hdigit (c.sshiftRight 4 &&& 0x0f).toNat, hdigit (c.sshiftRight 0 &&& 0x0f).toNat]
  else escaped ++ [c]

/-- `uri_encoding_escape`. -/
def escape (string : List Byte) : List Byte := string.foldl escapeNext []

/-- The loop of `uri_encoding_unescape` over the rest of the string. -/
def unescapeFrom (hex unescaped : List Byte) : List Byte → List Byte
  | [] => unescaped
  | c :: string =>
    if c = percent then
      match string with
      | high :: low :: string =>
        let hex := (hex.set 0 high).set 1 low
        if !isXDigit high || !isXDigit low then unescaped
        -- The character that `hex` stands for is assigned to `c`, which is not read again.
        else unescapeFrom hex (unescaped ++ cString hex) string
      | _ => unescaped
    else unescapeFrom hex (unescaped ++ cString hex) string

/-- `uri_encoding_unescape`. -/
def unescape (string : List Byte) : List Byte := unescapeFrom [0, 0, 0, 0] [] string

section Unescape

def DigitBuffer (hex : List Byte) : Prop :=
  ∃ high low, hex = [high, low, 0, 0] ∧ ∀ c ∈ cString hex, isXDigit c = true

theorem digitBuffer_start : DigitBuffer [0, 0, 0, 0] := ⟨0, 0, rfl, nofun⟩

theorem digitBuffer_set {hex : List Byte} (h : DigitBuffer hex) {high low : Byte}
    (hh : isXDigit high = true) (hl : isXDigit low = true) : DigitBuffer ((hex.set 0 high).set 1 low) := by
  obtain ⟨_, _, rfl, _⟩ := h
  refine ⟨high, low, rfl, fun c hc => ?_⟩
  have inside : c ∈ [high, low, 0, 0] := (List.takeWhile_prefix _).subset hc
  have given : c ≠ 0 := by simpa using List.mem_takeWhile_imp hc
  simp only [List.mem_cons, List.not_mem_nil, or_false, given, or_self] at inside
  rcases inside with rfl | rfl
  · exact hh
  · exact hl

theorem append_digits {hex unescaped : List Byte} (h : DigitBuffer hex)
    (hu : ∀ c ∈ unescaped, isXDigit c = true) : ∀ c ∈ unescaped ++ cString hex, isXDigit c = true := by
  obtain ⟨_, _, _, digits⟩ := h
  intro c hc
  rcases List.mem_append.mp hc with hc | hc
  · exact hu c hc
  · exact digits c hc

/-- Only digits of escapes reach the output. -/
theorem unescapeFrom_digits (hex unescaped string : List Byte) (h : DigitBuffer hex)
    (hu : ∀ c ∈ unescaped, isXDigit c = true) :
    ∀ c ∈ unescapeFrom hex unescaped string, isXDigit c = true := by
  fun_induction unescapeFrom hex unescaped string with
  | case1 => exact hu
  | case2 => exact hu
  | case3 hex unescaped high low string hex' hexDigits ih =>
    simp only [Bool.or_eq_true, Bool.not_eq_true', not_or, Bool.not_eq_false] at hexDigits
    have h' : DigitBuffer hex' := digitBuffer_set h hexDigits.1 hexDigits.2
    exact ih h' (append_digits h' hu)
  | case4 => exact hu
  | case5 hex unescaped c string other ih => exact ih h (append_digits h hu)

theorem unescapeFrom_plain (hex unescaped string : List Byte) (empty : cString hex = [])
    (h : percent ∉ string) : unescapeFrom hex unescaped string = unescaped := by
  fun_induction unescapeFrom hex unescaped string with
  | case1 => rfl
  | case2 => exact absurd List.mem_cons_self h
  | case3 => exact absurd List.mem_cons_self h
  | case4 => exact absurd List.mem_cons_self h
  | case5 hex unescaped c string other ih =>
    rw [ih empty fun hc => h (List.mem_cons_of_mem _ hc), empty, List.append_nil]

end Unescape

section Escape

theorem escape_append (string string' : List Byte) :
    escape (string ++ string') = string'.foldl escapeNext (escape string) :=
  List.foldl_append

theorem escape_plain {string : List Byte} (h : ∀ c ∈ string, needsEscaping c = false) :
    escape string = string := by
  induction string using List.reverseRecOn with
  | nil => rfl
  | append_singleton string c ih =>
    have before := ih fun d hd => h d (List.mem_append_left _ hd)
    have last := h c (List.mem_append_right _ List.mem_cons_self)
    rw [escape_append, before, List.foldl_cons, List.foldl_nil, escapeNext, last]
    exact if_neg Bool.false_ne_true

theorem needsEscaping_xdigit {c : Byte} (h : isXDigit c = true) : needsEscaping c = false := by
  have letter : isAlnum c = true := by
    simp only [isAlnum, isAlpha, isXDigit, Bool.or_eq_true, decide_eq_true_eq] at h ⊢
    rcases h with digit | upper | lower
    · exact Or.inr digit
    · left
      omega
    · left
      omega
  rw [needsEscaping, letter]
  rfl

theorem percent_not_xdigit : isXDigit percent = false := by decide

end Escape

/-- Decoding undoes encoding of the empty string only. -/
theorem unescape_escape_iff (string : List Byte) : unescape (escape string) = string ↔ string = [] := by
  constructor
  · intro same
    have digits : ∀ c ∈ string, isXDigit c = true := by
      have output := unescapeFrom_digits _ [] (escape string) digitBuffer_start nofun
      change ∀ c ∈ unescape (escape string), isXDigit c = true at output
      rwa [same] at output
    have plain : percent ∉ string := by
      intro hc
      have := digits percent hc
      rw [percent_not_xdigit] at this
      cases this
    have unchanged := escape_plain fun c hc => needsEscaping_xdigit (digits c hc)
    rw [unchanged] at same
    exact same.symm.trans (unescapeFrom_plain _ [] string rfl plain)
  · rintro rfl
    rfl

theorem plain_lost : unescape (escape (literal "a")) ≠ literal "a" := by decide

end UriEncoding

end Hlib
