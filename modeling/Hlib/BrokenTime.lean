import Hlib.Calendar
import Hlib.Overwrite
import Hlib.StringNumber

namespace Hlib

open Calendar Overwrite

/-- `struct tm`: `year` counts from 1900, `mon` from 0. -/
structure Tm where
  year : Int := 0
  mon : Int := 0
  mday : Int := 0
  hour : Int := 0
  min : Int := 0
  sec : Int := 0
  gmtoff : Int := 0
  deriving DecidableEq, Repr

def timegm (tm : Tm) : Int :=
  86400 * daysFromCivil ⟨1900 + tm.year + tm.mon / 12, tm.mon % 12 + 1, tm.mday⟩ + 3600 * tm.hour +
    60 * tm.min + tm.sec

/-- `none` stands for the null pointer, returned when the year is not an `int`. -/
def gmtime (time : Int) : Option Tm :=
  let date := civilFromDays (time / 86400)
  let rem := time % 86400
  if -2 ^ 31 ≤ date.year - 1900 ∧ date.year - 1900 < 2 ^ 31 then
    some
      { year := date.year - 1900
        mon := date.month - 1
        mday := date.day
        hour := rem / 3600
        min := rem / 60 % 60
        sec := rem % 60 }
  else none

/-- `localtime`, in a zone that is `zone time` seconds ahead of UTC. -/
def localtime (zone : Int → Int) (time : Int) : Option Tm :=
  (gmtime (time + zone time)).map fun tm => { tm with gmtoff := zone time }

def digit (n : Nat) : Byte := BitVec.ofNat 8 (48 + n)

/-- What `%d` prints. -/
def signedDecimal (n : Int) : List Byte :=
  if n < 0 then ascii '-' :: decimal n.natAbs else decimal n.natAbs

/-- What `%0*d` prints. -/
def zeroPadded (width : Nat) (n : Int) : List Byte :=
  if n < 0 then ascii '-' :: (List.replicate (width - 1 - (decimal n.natAbs).length) (digit 0) ++ decimal n.natAbs)
  else List.replicate (width - (decimal n.natAbs).length) (digit 0) ++ decimal n.natAbs

/-- What `strftime` prints for a conversion, of those that the library uses. -/
def printed (conversion : Char) (tm : Tm) : List Byte :=
  match conversion with
  | 'Y' => signedDecimal (1900 + tm.year)
  | 'm' => zeroPadded 2 (tm.mon + 1)
  | 'd' => zeroPadded 2 tm.mday
  | 'H' => zeroPadded 2 tm.hour
  | 'M' => zeroPadded 2 tm.min
  | 'S' => zeroPadded 2 tm.sec
  | _ => []

def expand : List Char → Tm → List Byte
  | '%' :: conversion :: format, tm => printed conversion tm ++ expand format tm
  | c :: format, tm => ascii c :: expand format tm
  | [], _ => []

/-- Stores a string and its terminator in an array, or leaves the array indeterminate. -/
def strftime (string : List Cell) (format : List Char) (tm : Option Tm) : Checked (List Cell) :=
  match tm with
  | none => .error .outOfBounds
  | some tm =>
    if (expand format tm).length < string.length then
      .ok (overwrite string 0 ((expand format tm ++ [0]).map some))
    else .ok (string.map fun _ => none)

/-- `snprintf(string + offset, size, …)`, given what it would print. -/
def snprintf (string : List Cell) (offset size : Nat) (formatted : List Byte) : List Cell :=
  if size = 0 then string else overwrite string offset ((formatted.take (size - 1) ++ [0]).map some)

/-- The `std::string` made of an array of characters. -/
def toStdString : List Cell → Checked (List Byte)
  | [] => .error .outOfBounds
  | none :: _ => .error .uninitialised
  | some c :: cells =>
    if c = 0 then .ok []
    else do
      let rest ← toStdString cells
      .ok (c :: rest)

def digitOf (c : Byte) : Int := c.toNat - 48

/-- The digits of `get_number` in `strptime` behind the first; at most `n` are read. -/
def moreDigits (high : Int) : Nat → Int → List Byte → Int × List Byte
  | n + 1, val, c :: rp =>
    if val * 10 ≤ high ∧ isDigit c then moreDigits high n (val * 10 + digitOf c) rp else (val, c :: rp)
  | _, val, rp => (val, rp)

def getNumber (low high : Int) (n : Nat) (rp : List Byte) : Option (Int × List Byte) :=
  match rp.dropWhile isSpace with
  | [] => none
  | c :: rp =>
    if isDigit c then
      let (val, rp) := moreDigits high (n - 1) (digitOf c) rp
      if val < low ∨ val > high then none else some (val, rp)
    else none

/-- The colon between the hours and the minutes of `%z`, if a digit follows. -/
def skipColon : List Byte → List Byte
  | c :: d :: rp => if c = ascii ':' ∧ isDigit d then d :: rp else c :: d :: rp
  | rp => rp

/-- The digits of `%z`: how many of the four were not found, and their value. -/
def zoneDigits : Nat → Int → List Byte → Nat × Int × List Byte
  | left + 1, val, c :: rp =>
    if isDigit c then zoneDigits left (val * 10 + digitOf c) (if left = 2 then skipColon rp else rp)
    else (left + 1, val, c :: rp)
  | left, val, rp => (left, val, rp)

def getZone (rp : List Byte) : Option (Int × List Byte) :=
  match rp.dropWhile isSpace with
  | [] => none
  | c :: rp =>
    if c = ascii 'Z' then some (0, rp)
    else if c = ascii '+' ∨ c = ascii '-' then
      let (left, val, rp) := zoneDigits 4 0 rp
      let val := if left = 2 then val * 100 else val
      if left ≠ 0 ∧ left ≠ 2 ∨ val % 100 ≥ 60 then none
      else
        let gmtoff := val / 100 * 3600 + val % 100 * 60
        some (if c = ascii '-' then -gmtoff else gmtoff, rp)
    else none

/-- What `strptime` does at a conversion, of those that the library uses. -/
def convert (conversion : Char) (rp : List Byte) (tm : Tm) : Option (List Byte × Tm) :=
  match conversion with
  | 'Y' => (getNumber 0 9999 4 rp).map fun (val, rp) => (rp, { tm with year := val - 1900 })
  | 'm' => (getNumber 1 12 2 rp).map fun (val, rp) => (rp, { tm with mon := val - 1 })
  | 'd' => (getNumber 1 31 2 rp).map fun (val, rp) => (rp, { tm with mday := val })
  | 'H' => (getNumber 0 23 2 rp).map fun (val, rp) => (rp, { tm with hour := val })
  | 'M' => (getNumber 0 59 2 rp).map fun (val, rp) => (rp, { tm with min := val })
  | 'S' => (getNumber 0 61 2 rp).map fun (val, rp) => (rp, { tm with sec := val })
  | 'z' => (getZone rp).map fun (val, rp) => (rp, { tm with gmtoff := val })
  | _ => none

/-- The text from the returned pointer on, and the `tm` it leaves; `none` for a null pointer. -/
def strptime : List Byte → List Char → Tm → Option (List Byte × Tm)
  | rp, '%' :: conversion :: format, tm => do
    let (rp, tm) ← convert conversion rp tm
    strptime rp format tm
  | c :: rp, f :: format, tm => if c = ascii f then strptime rp format tm else none
  | [], _ :: _, _ => none
  | rp, [], tm => some (rp, tm)

/-- `sscanf(r, ".%03d", …)`: a sign counts as one of the three characters. -/
def sscanfMilliseconds : List Byte → Option Int
  | [] => none
  | c :: r =>
    if c = ascii '.' then
      let (negative, rest) := signOf (r.dropWhile isSpace)
      let width := 3 - ((r.dropWhile isSpace).length - rest.length)
      let text := (rest.take width).takeWhile isDigit
      let val := text.foldl (fun val c => val * 10 + digitOf c) 0
      if text = [] then none else some (if negative then -val else val)
    else none

end Hlib
