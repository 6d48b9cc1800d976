import Hlib.BrokenTime

namespace Hlib

/-- `time::Clock`. -/
structure Clock where
  tvSec : Int
  tvNsec : Int
  deriving DecidableEq, Repr

namespace Clock

def contains (string : List Byte) (character : Char) : Bool := ascii character ∈ string

/-- The lambda `parse` of `to_clock`. -/
def parse (string : List Byte) (format : List Char) : Option Tm := do
  let (r, tm) ← strptime string format {}
  if r.head? = some 0 then some tm else none

/-- `none` if a logic error is thrown. -/
def toClock (iso8601 : List Byte) : Checked (Option Clock) :=
  let string := iso8601 ++ [0]
  if contains iso8601 'T' = false then
    .ok ((parse string "%Y-%m-%d".toList).map fun tm => ⟨timegm tm, 0⟩)
  else if contains iso8601 '.' = false then
    .ok ((parse string "%Y-%m-%dT%H:%M:%S%z".toList).map fun tm => ⟨timegm tm, 0⟩)
  else
    match strptime string "%Y-%m-%dT%H:%M:%S".toList {} with
    | none => .ok none
    | some (r, tm) =>
      if r.head? ≠ some (ascii '.') then .ok none
      else
        match sscanfMilliseconds r with
        | none => .ok none
        | some milliseconds => do
          -- `r + 4` can lie behind the terminator.
          require (4 < r.length) .outOfBounds
          match strptime (r.drop 4) "%z".toList tm with
          | none => .ok none
          | some (r, tm) =>
            if r.head? ≠ some 0 then .ok none else .ok (some ⟨timegm tm, milliseconds * 1000000⟩)

def toStringUtcDateAndTime (clock : Clock) : Checked (List Byte) := do
  let string ← strftime (List.replicate 21 none) "%Y-%m-%dT%H:%M:%SZ".toList (gmtime clock.tvSec)
  toStdString string

/-- What `%03d` prints of the milliseconds. -/
def millisecondsText (clock : Clock) : List Byte :=
  zeroPadded 3 ((clock.tvNsec.tdiv 1000000).tmod 1000)

def toStringUtc (clock : Clock) (milliseconds : Bool) : Checked (List Byte) := do
  let string ← strftime (List.replicate 25 none) "%Y-%m-%dT%H:%M:%SZ".toList (gmtime clock.tvSec)
  if milliseconds then
    toStdString (snprintf string 19 (25 - 19) (ascii '.' :: (clock.millisecondsText ++ [ascii 'Z'])))
  else toStdString string

/-- The value of an `int32_t` assigned from a `long`. -/
def toInt32 (n : Int) : Int := (BitVec.ofInt 32 n).toInt

def localtimeOffsetString (zone : Int → Int) (clock : Clock) : Checked (List Byte) :=
  match localtime zone clock.tvSec with
  | none => .error .uninitialised
  | some tm =>
    let (sign, offset) :=
      if tm.gmtoff ≥ 0 then (ascii '+', toInt32 (tm.gmtoff.tdiv 60))
      else (ascii '-', toInt32 (-tm.gmtoff.tdiv 60))
    .ok (format (sign :: (zeroPadded 2 (offset.tdiv 60) ++ ascii ':' :: zeroPadded 2 (offset.tmod 60))))

def toStringLocalDateAndTime (zone : Int → Int) (clock : Clock) : Checked (List Byte) := do
  let string ← strftime (List.replicate 20 none) "%Y-%m-%dT%H:%M:%S".toList (localtime zone clock.tvSec)
  let string ← toStdString string
  let offset ← localtimeOffsetString zone clock
  .ok (string ++ offset)

end Clock

end Hlib
