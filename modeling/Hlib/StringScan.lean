import Hlib.StringValue

namespace Hlib

/-- The exceptions of the conversions, with what their `what()` returns. -/
inductive NumberError
  | invalidArgument (what : List Byte)
  | rangeError (what : List Byte)
  deriving DecidableEq, Repr

/-- What `strtol` and its relatives give: the value, the number of characters up to `*endptr`, unless that is
left null, and what `errno` is set to, if anything. -/
structure Scan (ν : Type) where
  value : ν
  pos : Option Nat
  errno : Option Errno

abbrev Scanner (ν : Type) := List Byte → Int → Scan ν

namespace StringTo

section Overloads

variable {ν : Type}

/-- Whether `nullptr == pos || 0 != *pos` holds behind a scan of a C string: the character that is zero is the
terminator. -/
def Incomplete (scan : Scan ν) (text : List Byte) : Prop := scan.pos ≠ some text.length

instance (scan : Scan ν) (text : List Byte) : Decidable (Incomplete scan text) :=
  inferInstanceAs (Decidable (_ ≠ _))

/-- The conversions with `std::nothrow`: whether `errno` is set to 0 before the scan, and the test of what has
been scanned. -/
def convert (scanner : Scanner ν) (resets : Bool) (refuses : ν → Errno → Bool) (value : List Byte) (base : Int)
    (errno : Errno) : Option ν × Errno :=
  match value with
  | [] => (none, errno)
  | front :: _ =>
    if isSpace front then (none, errno)
    else
      let scan := scanner (cString value) base
      let errno := scan.errno.getD (if resets then 0 else errno)
      if Incomplete scan (cString value) ∨ refuses scan.value errno then (none, errno)
      else (some scan.value, errno)

/-- The conversions without `std::nothrow`. -/
def convertOrThrow (scanner : Scanner ν) (resets : Bool) (refuses : ν → Errno → Bool) (what : String)
    (value : List Byte) (base : Int) (errno : Errno) : Except NumberError ν × Errno :=
  match value with
  | [] => (.error (.invalidArgument (literal what)), errno)
  | front :: _ =>
    if isSpace front then (.error (.invalidArgument (literal what)), errno)
    else
      let scan := scanner (cString value) base
      let errno := scan.errno.getD (if resets then 0 else errno)
      if Incomplete scan (cString value) then (.error (.invalidArgument (literal what)), errno)
      else if refuses scan.value errno then (.error (.rangeError (literal what)), errno)
      else (.ok scan.value, errno)

end Overloads

section Signed

def stoi8 (strtol : Scanner Int) : List Byte → Int → Errno → Option Int × Errno :=
  convert strtol false fun r _ => r < -2 ^ 7 ∨ r > 2 ^ 7 - 1

def stoi16 (strtol : Scanner Int) : List Byte → Int → Errno → Option Int × Errno :=
  convert strtol false fun r _ => r < -2 ^ 15 ∨ r > 2 ^ 15 - 1

def stoi32 (strtol : Scanner Int) : List Byte → Int → Errno → Option Int × Errno :=
  convert strtol true fun r errno =>
    r < -2 ^ 31 ∨ r > 2 ^ 31 - 1 ∨ (-2 ^ 63 = r ∨ 2 ^ 63 - 1 = r) ∧ ERANGE = errno

def stoi64 (strtoll : Scanner Int) : List Byte → Int → Errno → Option Int × Errno :=
  convert strtoll true fun r errno => (-2 ^ 63 = r ∨ 2 ^ 63 - 1 = r) ∧ ERANGE = errno

def stoi8OrThrow (strtol : Scanner Int) : List Byte → Int → Errno → Except NumberError Int × Errno :=
  convertOrThrow strtol false (fun r _ => r < -2 ^ 7 ∨ r > 2 ^ 7 - 1) "stoi8"

def stoi16OrThrow (strtol : Scanner Int) : List Byte → Int → Errno → Except NumberError Int × Errno :=
  convertOrThrow strtol false (fun r _ => r < -2 ^ 15 ∨ r > 2 ^ 15 - 1) "stoi16"

def stoi32OrThrow (strtol : Scanner Int) : List Byte → Int → Errno → Except NumberError Int × Errno :=
  convertOrThrow strtol true (fun r errno =>
    r < -2 ^ 31 ∨ r > 2 ^ 31 - 1 ∨ (-2 ^ 63 = r ∨ 2 ^ 63 - 1 = r) ∧ ERANGE = errno) "stoi32"

def stoi64OrThrow (strtoll : Scanner Int) : List Byte → Int → Errno → Except NumberError Int × Errno :=
  convertOrThrow strtoll true (fun r errno => (-2 ^ 63 = r ∨ 2 ^ 63 - 1 = r) ∧ ERANGE = errno) "stoi64"

end Signed

section Unsigned

def stoui8 (strtoul : Scanner Nat) : List Byte → Int → Errno → Option Nat × Errno :=
  convert strtoul false fun r _ => r < 0 ∨ r > 2 ^ 8 - 1

def stoui16 (strtoul : Scanner Nat) : List Byte → Int → Errno → Option Nat × Errno :=
  convert strtoul false fun r _ => r < 0 ∨ r > 2 ^ 16 - 1

def stoui32 (strtoul : Scanner Nat) : List Byte → Int → Errno → Option Nat × Errno :=
  convert strtoul true fun r errno => r < 0 ∨ r > 2 ^ 32 - 1 ∨ 2 ^ 64 - 1 = r ∧ ERANGE = errno

def stoui64 (strtoull : Scanner Nat) : List Byte → Int → Errno → Option Nat × Errno :=
  convert strtoull true fun r errno => 2 ^ 64 - 1 = r ∧ ERANGE = errno

def stoui8OrThrow (strtoul : Scanner Nat) : List Byte → Int → Errno → Except NumberError Nat × Errno :=
  convertOrThrow strtoul false (fun r _ => r < 0 ∨ r > 2 ^ 8 - 1) "stoui8"

def stoui16OrThrow (strtoul : Scanner Nat) : List Byte → Int → Errno → Except NumberError Nat × Errno :=
  convertOrThrow strtoul false (fun r _ => r < 0 ∨ r > 2 ^ 16 - 1) "stoui16"

def stoui32OrThrow (strtoul : Scanner Nat) : List Byte → Int → Errno → Except NumberError Nat × Errno :=
  convertOrThrow strtoul true
    (fun r errno => r < 0 ∨ r > 2 ^ 32 - 1 ∨ 2 ^ 64 - 1 = r ∧ ERANGE = errno) "stoui32"

/-- It throws what `stoui32` throws. -/
def stoui64OrThrow (strtoull : Scanner Nat) : List Byte → Int → Errno → Except NumberError Nat × Errno :=
  convertOrThrow strtoull true (fun r errno => 2 ^ 64 - 1 = r ∧ ERANGE = errno) "stoui32"

end Unsigned

/-- `stob(value)`. -/
def stobOrThrow (value : List Byte) : Except NumberError Bool :=
  if value = literal "true" then .ok true
  else if value = literal "false" then .ok false
  else .error (.invalidArgument (literal "stob"))

section Templates

/-- `sizeof(T)` of the integral types. -/
inductive Width
  | one
  | two
  | four
  | eight
  deriving DecidableEq, Repr

def Width.bits : Width → Nat
  | .one => 8
  | .two => 16
  | .four => 32
  | .eight => 64

variable (strtol strtoll : Scanner Int) (strtoul strtoull : Scanner Nat)

/-- `string_to<T>(value, base, std::nothrow)` for a signed `T`. -/
def signed : Width → List Byte → Int → Errno → Option Int × Errno
  | .one => stoi8 strtol
  | .two => stoi16 strtol
  | .four => stoi32 strtol
  | .eight => stoi64 strtoll

def signedOrThrow : Width → List Byte → Int → Errno → Except NumberError Int × Errno
  | .one => stoi8OrThrow strtol
  | .two => stoi16OrThrow strtol
  | .four => stoi32OrThrow strtol
  | .eight => stoi64OrThrow strtoll

/-- `string_to<T>(value, base, std::nothrow)` for an unsigned `T`. -/
def unsigned : Width → List Byte → Int → Errno → Option Nat × Errno
  | .one => stoui8 strtoul
  | .two => stoui16 strtoul
  | .four => stoui32 strtoul
  | .eight => stoui64 strtoull

def unsignedOrThrow : Width → List Byte → Int → Errno → Except NumberError Nat × Errno
  | .one => stoui8OrThrow strtoul
  | .two => stoui16OrThrow strtoul
  | .four => stoui32OrThrow strtoul
  | .eight => stoui64OrThrow strtoull

end Templates

section Agreement

variable {ν : Type}

/-- The one returns what the other one returns, and throws where that one has no value. -/
structure Agrees (thrown : Except NumberError ν) (returned : Option ν) : Prop where
  value : ∀ v, thrown = .ok v ↔ returned = some v
  none : (∃ e, thrown = .error e) ↔ returned = none

theorem agrees_ok (v : ν) : Agrees (.ok v) (some v) :=
  ⟨fun w => by rw [Except.ok.injEq, Option.some.injEq], iff_of_false nofun nofun⟩

theorem agrees_error (e : NumberError) : Agrees (.error e : Except NumberError ν) none :=
  ⟨fun _ => iff_of_false nofun nofun, iff_of_true ⟨e, rfl⟩ rfl⟩

theorem Agrees.toOption {thrown : Except NumberError ν} {returned : Option ν} (h : Agrees thrown returned) :
    returned = thrown.toOption := by
  cases thrown with
  | error e => exact h.none.mp ⟨e, rfl⟩
  | ok v => exact (h.value v).mp rfl

/-- Whatever the scanner does, the two overloads ask the same of it, and leave the same `errno`. -/
theorem convert_agrees (scanner : Scanner ν) (resets : Bool) (refuses : ν → Errno → Bool) (what : String)
    (value : List Byte) (base : Int) (errno : Errno) :
    Agrees (convertOrThrow scanner resets refuses what value base errno).1
        (convert scanner resets refuses value base errno).1 ∧
      (convertOrThrow scanner resets refuses what value base errno).2 =
        (convert scanner resets refuses value base errno).2 := by
  unfold convertOrThrow convert
  cases value with
  | nil => exact ⟨agrees_error _, rfl⟩
  | cons front value =>
    dsimp only
    by_cases space : isSpace front
    · rw [if_pos space, if_pos space]
      exact ⟨agrees_error _, rfl⟩
    · rw [if_neg space, if_neg space]
      generalize scanner (cString (front :: value)) base = scan
      generalize scan.errno.getD (if resets then 0 else errno) = left
      by_cases incomplete : Incomplete scan (cString (front :: value))
      · rw [if_pos incomplete, if_pos (Or.inl incomplete)]
        exact ⟨agrees_error _, rfl⟩
      · rw [if_neg incomplete]
        by_cases refused : refuses scan.value left
        · rw [if_pos refused, if_pos (Or.inr refused)]
          exact ⟨agrees_error _, rfl⟩
        · rw [if_neg refused, if_neg (not_or.mpr ⟨incomplete, refused⟩)]
          exact ⟨agrees_ok _, rfl⟩

theorem stob_agrees (value : List Byte) : Agrees (stobOrThrow value) (stob value) := by
  unfold stobOrThrow stob
  by_cases positive : value = literal "true"
  · rw [if_pos positive, if_pos positive]
    exact agrees_ok true
  · rw [if_neg positive, if_neg positive]
    by_cases negative : value = literal "false"
    · rw [if_pos negative, if_pos negative]
      exact agrees_ok false
    · rw [if_neg negative, if_neg negative]
      exact agrees_error _

theorem signed_agrees (strtol strtoll : Scanner Int) (width : Width) (value : List Byte) (base : Int)
    (errno : Errno) :
    Agrees (signedOrThrow strtol strtoll width value base errno).1
      (signed strtol strtoll width value base errno).1 := by
  cases width with
  | one => exact (convert_agrees strtol false _ "stoi8" value base errno).1
  | two => exact (convert_agrees strtol false _ "stoi16" value base errno).1
  | four => exact (convert_agrees strtol true _ "stoi32" value base errno).1
  | eight => exact (convert_agrees strtoll true _ "stoi64" value base errno).1

theorem unsigned_agrees (strtoul strtoull : Scanner Nat) (width : Width) (value : List Byte) (base : Int)
    (errno : Errno) :
    Agrees (unsignedOrThrow strtoul strtoull width value base errno).1
      (unsigned strtoul strtoull width value base errno).1 := by
  cases width with
  | one => exact (convert_agrees strtoul false _ "stoui8" value base errno).1
  | two => exact (convert_agrees strtoul false _ "stoui16" value base errno).1
  | four => exact (convert_agrees strtoul true _ "stoui32" value base errno).1
  | eight => exact (convert_agrees strtoull true _ "stoui32" value base errno).1

/-- The conversions with and without `std::nothrow` agree, for any scanners. -/
theorem overloads_agree (strtol strtoll : Scanner Int) (strtoul strtoull : Scanner Nat) (value : List Byte)
    (base : Int) (errno : Errno) :
    Agrees (stobOrThrow value) (stob value) ∧
      (∀ width, Agrees (signedOrThrow strtol strtoll width value base errno).1
        (signed strtol strtoll width value base errno).1) ∧
      ∀ width, Agrees (unsignedOrThrow strtoul strtoull width value base errno).1
        (unsigned strtoul strtoull width value base errno).1 :=
  ⟨stob_agrees value, fun width => signed_agrees strtol strtoll width value base errno,
    fun width => unsigned_agrees strtoul strtoull width value base errno⟩

end Agreement

end StringTo

end Hlib
