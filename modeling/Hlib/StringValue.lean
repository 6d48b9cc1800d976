import Hlib.StringNumber

namespace Hlib

def ERANGE : Errno := 34

/-- `stob(value, std::nothrow)`. -/
def stob (value : List Byte) : Option Bool :=
  if value = literal "true" then some true
  else if value = literal "false" then some false
  else none

/-- `strtoll` on a C string: the value, the number of characters up to `*endptr`, and whether `errno` is set
to `ERANGE`. -/
def strtoll (text : List Byte) (base : Nat) : Int × Nat × Bool :=
  let (negative, unsigned) := signOf (text.dropWhile isSpace)
  let (base, rest) := basePrefix base unsigned
  let ds := digits base rest
  if ds = [] then (0, 0, false)
  else
    let n := ds.foldl (fun n d => base * n + d) 0
    let pos := text.length - rest.length + ds.length
    if negative then (if n ≤ 2 ^ 63 then (-n, pos, false) else (-2 ^ 63, pos, true))
    else if n ≤ 2 ^ 63 - 1 then (n, pos, false)
    else (2 ^ 63 - 1, pos, true)

/-- `stoi64(value, base, std::nothrow)`, with `errno` as it leaves it. -/
def stoi64 (value : List Byte) (base : Nat) (errno : Errno) : Option Int × Errno :=
  match value with
  | [] => (none, errno)
  | front :: _ =>
    if isSpace front then (none, errno)
    else
      let (r, pos, range) := strtoll (cString value) base
      let errno := if range then ERANGE else 0
      -- The character at `pos` is the terminator.
      if pos ≠ (cString value).length ∨ ((r = -2 ^ 63 ∨ r = 2 ^ 63 - 1) ∧ errno = ERANGE) then (none, errno)
      else (some r, errno)

/-- `stof64(value, std::nothrow)`, for what `strtod` gives: the value, the number of characters up to
`*endptr`, and whether `errno` is set to `ERANGE`. Here `errno` is not reset before. -/
def stof64 {δ : Type} (strtod : List Byte → δ × Nat × Bool) (value : List Byte) (errno : Errno) :
    Option δ × Errno :=
  match value with
  | [] => (none, errno)
  | front :: _ =>
    if isSpace front then (none, errno)
    else
      let (r, pos, range) := strtod (cString value)
      let errno := if range then ERANGE else errno
      if pos ≠ (cString value).length ∨ errno = ERANGE then (none, errno) else (some r, errno)

/-- A number that is out of range is one of the two values that `stoi64` looks for. -/
theorem strtoll_range {text : List Byte} {base : Nat} (h : (strtoll text base).2.2 = true) :
    (strtoll text base).1 = -2 ^ 63 ∨ (strtoll text base).1 = 2 ^ 63 - 1 := by
  unfold strtoll at h ⊢
  dsimp only at h ⊢
  split at h
  · cases h
  · rename_i given
    rw [if_neg given]
    split at h <;> split at h
    · cases h
    · rename_i negative large
      rw [if_pos negative, if_neg large]
      exact Or.inl rfl
    · cases h
    · rename_i positive large
      rw [if_neg positive, if_neg large]
      exact Or.inr rfl

/-- What `stoi64` returns does not depend on `errno`, and behind a number it is zero. -/
theorem stoi64_errno (value : List Byte) (base : Nat) (errno other : Errno) :
    (stoi64 value base errno).1 = (stoi64 value base other).1 ∧
      ∀ r, (stoi64 value base errno).1 = some r → (stoi64 value base errno).2 = 0 := by
  unfold stoi64
  cases value with
  | nil => exact ⟨rfl, fun r h => by cases h⟩
  | cons front value =>
    dsimp only
    split
    next => exact ⟨rfl, fun r h => by cases h⟩
    next =>
      refine ⟨rfl, ?_⟩
      intro r h
      cases range : (strtoll (cString (front :: value)) base).2.2 with
      | true =>
        rw [if_pos (Or.inr ⟨strtoll_range range, by rw [range]; rfl⟩)] at h
        cases h
      | false =>
        simp only [Bool.false_eq_true, if_false]
        split <;> rfl

/-- While `errno` is not `ERANGE`, what `stof64` returns does not depend on it, and a number leaves it as
it is. -/
theorem stof64_fine {δ : Type} (strtod : List Byte → δ × Nat × Bool) (value : List Byte) {errno other : Errno}
    (h : errno ≠ ERANGE) (h' : other ≠ ERANGE) :
    (stof64 strtod value errno).1 = (stof64 strtod value other).1 ∧
      ∀ r, (stof64 strtod value errno).1 = some r → (stof64 strtod value errno).2 = errno := by
  unfold stof64
  cases value with
  | nil => exact ⟨rfl, fun r h => by cases h⟩
  | cons front value =>
    dsimp only
    split
    next => exact ⟨rfl, fun r h => by cases h⟩
    next =>
      cases range : (strtod (cString (front :: value))).2.2 with
      | true => exact ⟨by simp, fun r h => by simp at h⟩
      | false =>
        simp only [Bool.false_eq_true, if_false, h, h', or_false]
        split
        · exact ⟨rfl, fun r h => by cases h⟩
        · exact ⟨rfl, fun r _ => rfl⟩

/-- With `ERANGE` left in `errno` it takes no number at all. -/
theorem stof64_stale {δ : Type} (strtod : List Byte → δ × Nat × Bool) (value : List Byte) :
    (stof64 strtod value ERANGE).1 = none := by
  unfold stof64
  cases value with
  | nil => rfl
  | cons front value =>
    dsimp only
    split
    next => rfl
    next => simp

end Hlib
