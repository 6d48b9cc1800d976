import Hlib.Buffer
import Hlib.Delimiter

namespace Hlib

open Overwrite

/-- The value of a difference of `std::size_t` expressions. -/
def sizeDiff (n m : Nat) : Nat := sizeT (n + (2 ^ 64 - m))

theorem sizeDiff_of_le {n m : Nat} (hn : n < 2 ^ 64) (h : m ≤ n) : sizeDiff n m = n - m := by
  have split : n + (2 ^ 64 - m) = n - m + 2 ^ 64 := by omega
  rw [sizeDiff, sizeT, split, Nat.add_mod_right]
  exact Nat.mod_eq_of_lt (by omega)

abbrev Pointer := Option (List Cell)

namespace Buffer

/-- `static_cast<std::uint8_t const*>(m_data) + offset`. -/
def pointer (b : Buffer) (offset : Nat) : Pointer :=
  match b.data with
  | none => if offset = 0 then none else some []
  | some block => some (block.drop offset)

def storeCells (b : Buffer) (offset : Nat) (cells : List Cell) : Checked Buffer :=
  match cells with
  | [] => .ok b
  | _ :: _ =>
    match b.data with
    | none => .error .outOfBounds
    | some block =>
      if offset + cells.length ≤ block.length then
        .ok { b with data := some (overwrite block offset cells) }
      else .error .outOfBounds

def memmove (b : Buffer) (target offset count : Nat) : Checked Buffer := do
  require (count = 0 ∨ offset + count ≤ b.block.length) .outOfBounds
  b.storeCells target ((b.block.drop offset).take count)

def memcpy (b : Buffer) (target : Nat) (data : List Cell) (count : Nat) : Checked Buffer := do
  require (count ≤ data.length) .outOfBounds
  b.storeCells target (data.take count)

def reset (b : Buffer) : Buffer := { b with data := none, capacity := 0, size := 0 }

def clear (b : Buffer) : Buffer := { b with size := 0 }

def shrink (b : Buffer) (alloc : Bool) : Checked Buffer := do
  require (b.size ≤ b.capacity) .assertion
  if b.data = none ∨ b.size = 0 then return b.reset
  return (b.realloc b.size .shrink alloc).2

/-- `insert(offset, data, size, std::nothrow)`. -/
def insert (b : Buffer) (offset : Nat) (data : Pointer) (size : Nat) (alloc : Bool) :
    Checked (Bool × Buffer) := do
  require (offset ≤ b.size) .assertion
  require (b.size ≤ b.capacity) .assertion
  if size = 0 then return (true, b)
  match b.realloc (sizeT (b.size + size)) .grow alloc with
  | (false, b) => return (false, b)
  | (true, b) =>
    let b ← b.memmove (sizeT (offset + size)) offset (sizeDiff b.size offset)
    let b ← match data with
      | none => .ok b
      | some data => b.memcpy offset data size
    return (true, { b with size := sizeT (b.size + size) })

/-- `append(data, size, std::nothrow)`. -/
def append (b : Buffer) (data : Pointer) (size : Nat) (alloc : Bool) : Checked (Bool × Buffer) :=
  b.insert b.size data size alloc

/-- `assign(data, size, std::nothrow)`. -/
def assign (b : Buffer) (data : Pointer) (size : Nat) (alloc : Bool) : Checked (Bool × Buffer) :=
  { b with size := 0 }.append data size alloc

def erase (b : Buffer) (offset size : Nat) : Checked Buffer := do
  require (sizeT (offset + size) ≤ b.size) .assertion
  require (b.size ≤ b.capacity) .assertion
  let b ← b.memmove offset (sizeT (offset + size)) (sizeDiff b.size (sizeT (offset + size)))
  return { b with size := sizeDiff b.size size }

/-- `copy(buffer, std::nothrow)`, into another buffer. -/
def copy (b buffer : Buffer) (alloc : Bool) : Checked (Bool × Buffer) :=
  buffer.assign (b.pointer 0) b.size alloc

/-- `copy(offset, size, buffer, std::nothrow)`. -/
def copyRange (b : Buffer) (offset size : Nat) (buffer : Buffer) (alloc : Bool) :
    Checked (Bool × Buffer) := do
  require (sizeT (offset + size) ≤ b.size) .assertion
  buffer.assign (b.pointer offset) size alloc

/-- `extract(offset, size, buffer, std::nothrow)`: this buffer and the other one. -/
def extract (b : Buffer) (offset size : Nat) (buffer : Buffer) (alloc : Bool) :
    Checked (Bool × Buffer × Buffer) := do
  require (sizeT (offset + size) ≤ b.size) .assertion
  match ← buffer.assign (b.pointer offset) size alloc with
  | (false, buffer) => return (false, b, buffer)
  | (true, buffer) => return (true, ← b.erase offset size, buffer)

/-- `std::string_view::find`: the least position from `offset` on where `sentinel` stands. -/
def find (view sentinel : List Byte) (offset : Nat) : Option Nat :=
  (List.range (view.length + 1)).find? fun position => offset ≤ position ∧ sentinel <+: view.drop position

/-- `extract(offset, sentinel, include_sentinel, buffer, std::nothrow)`. -/
def extractSentinel (b : Buffer) (offset : Nat) (sentinel : List Byte) (includeSentinel : Bool)
    (buffer : Buffer) (alloc : Bool) : Checked (Bool × Buffer × Buffer) := do
  require (offset ≤ b.size) .assertion
  let view ← b.toString
  match find view sentinel offset with
  | some position =>
    require (position ≥ offset) .assertion
    let size := sizeDiff position offset
    let size := if includeSentinel then sizeT (size + sentinel.length) else size
    match ← buffer.assign (b.pointer offset) size alloc with
    | (false, buffer) => return (false, b, buffer)
    | (true, buffer) => return (true, ← b.erase offset size, buffer)
  | none => return (true, b, buffer.clear)

/-- `Buffer(Buffer&&)`: the new buffer, and what is left of the old one. -/
def moveConstruct (that : Buffer) : Buffer × Buffer :=
  ({ data := that.data, maximum := that.maximum, capacity := that.capacity, size := that.size },
    { that with data := none, capacity := 0, size := 0 })

/-- `operator =(Buffer&&)` from another buffer, and what is left of that one. -/
def moveAssign (b that : Buffer) : Buffer × Buffer :=
  let b := b.reset
  ({ data := that.data, maximum := that.maximum, capacity := that.capacity, size := that.size },
    { that with data := b.data, capacity := b.capacity, size := b.size })

/-- `Buffer(reservation, maximum)`, whose `reserve` throws on failure. -/
def construct (reservation maximum : Nat) (alloc : Bool) : Bool × Buffer :=
  let b : Buffer := { maximum := maximum }
  let (data, b) := b.reserve (min reservation maximum) alloc
  (data ≠ none ∨ min reservation maximum = 0, b)

end Buffer

end Hlib
