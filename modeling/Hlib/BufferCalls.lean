import Hlib.BufferEdit
import Hlib.Transition

namespace Hlib

open Function

namespace Buffer

section Overloads

/-- `reserve` and `reserveZeroed`, with `std::nothrow`. -/
def reserveWith (b : Buffer) (type : ReallocType) (capacity : Nat) (alloc : Bool) :
    Checked (Option Nat × Buffer) := do
  require (b.size ≤ b.capacity) .assertion
  match b.realloc capacity type alloc with
  | (false, b) => return (none, b)
  | (true, b) => return (b.address 0, b)

/-- `extend` and `extendZeroed`, with `std::nothrow`. -/
def extendWith (b : Buffer) (type : ReallocType) (capacity : Nat) (alloc : Bool) :
    Checked (Option Nat × Buffer) := do
  require (b.size ≤ b.capacity) .assertion
  if 0 < capacity then
    match b.realloc (sizeT (b.size + capacity)) type alloc with
    | (false, b) => return (none, b)
    | (true, b) => return (b.address b.size, b)
  else return (b.address b.size, b)

/-- `resize` and `resizeZeroed`, with `std::nothrow`. -/
def resizeWith (b : Buffer) (type : ReallocType) (size : Nat) (alloc : Bool) :
    Checked (Option Nat × Buffer) := do
  require (b.size ≤ b.capacity) .assertion
  if 0 < size then
    match b.realloc size type alloc with
    | (false, b) => return (none, b)
    | (true, b) => return (b.address 0, { b with size := size })
  else return (b.address 0, { b with size := size })

def reserveZeroed (b : Buffer) (capacity : Nat) (alloc : Bool) : Checked (Option Nat × Buffer) :=
  b.reserveWith .growZeroed capacity alloc

def extendZeroed (b : Buffer) (capacity : Nat) (alloc : Bool) : Checked (Option Nat × Buffer) :=
  b.extendWith .growZeroed capacity alloc

def resizeZeroed (b : Buffer) (size : Nat) (alloc : Bool) : Checked (Option Nat × Buffer) :=
  b.resizeWith .growZeroed size alloc

variable {b : Buffer}

theorem reserveWith_grow (h : b.size ≤ b.capacity) (capacity : Nat) (alloc : Bool) :
    b.reserveWith .grow capacity alloc = .ok (b.reserve capacity alloc) := by
  unfold reserveWith reserve
  rw [require_of h, ok_bind]
  rcases b.realloc capacity .grow alloc with ⟨_ | _, b'⟩
  · rfl
  · rfl

theorem extendWith_grow (h : b.size ≤ b.capacity) (capacity : Nat) (alloc : Bool) :
    b.extendWith .grow capacity alloc = .ok (b.extend capacity alloc) := by
  unfold extendWith extend
  rw [require_of h, ok_bind]
  by_cases positive : 0 < capacity
  · rw [if_pos positive, if_pos positive]
    rcases b.realloc (sizeT (b.size + capacity)) .grow alloc with ⟨_ | _, b'⟩
    · rfl
    · rfl
  · rw [if_neg positive, if_neg positive]
    rfl

theorem resizeWith_grow (h : b.size ≤ b.capacity) (size : Nat) (alloc : Bool) :
    b.resizeWith .grow size alloc = .ok (b.resize size alloc) := by
  unfold resizeWith resize
  rw [require_of h, ok_bind]
  by_cases positive : 0 < size
  · rw [if_pos positive, if_pos positive]
    rcases b.realloc size .grow alloc with ⟨_ | _, b'⟩
    · rfl
    · rfl
  · rw [if_neg positive, if_neg positive]
    rfl

end Overloads

section Aliases

/-- The contents as `std::string_view` shows them; `garbage` is what stands in the bytes to which
nothing was stored. -/
def view (b : Buffer) (garbage : Nat → Byte) : Checked (List Byte) := do
  require (b.size ≤ b.block.length) .outOfBounds
  return b.contents.mapIdx fun index cell => cell.getD (garbage index)

/-- The length of what `extract(offset, sentinel, …)` moves. -/
def sentinelSize (offset position : Nat) (sentinel : List Byte) (includeSentinel : Bool) : Nat :=
  if includeSentinel then sizeT (sizeDiff position offset + sentinel.length)
  else sizeDiff position offset

/-- `extract(offset, sentinel, include_sentinel, buffer, std::nothrow)` on contents that may hold
bytes to which nothing was stored. -/
def extractView (b : Buffer) (garbage : Nat → Byte) (offset : Nat) (sentinel : List Byte)
    (includeSentinel : Bool) (buffer : Buffer) (alloc : Bool) : Checked (Bool × Buffer × Buffer) := do
  require (offset ≤ b.size) .assertion
  let view ← b.view garbage
  match find view sentinel offset with
  | some position =>
    require (position ≥ offset) .assertion
    let size := sentinelSize offset position sentinel includeSentinel
    match ← buffer.assign (b.pointer offset) size alloc with
    | (false, buffer) => return (false, b, buffer)
    | (true, buffer) => return (true, ← b.erase offset size, buffer)
  | none => return (true, b, buffer.clear)

/-- `extract(offset, size, *this, std::nothrow)`. -/
def extractSelf (b : Buffer) (offset size : Nat) (alloc : Bool) : Checked (Bool × Buffer) := do
  require (sizeT (offset + size) ≤ b.size) .assertion
  match ← b.assign (b.pointer offset) size alloc with
  | (false, b) => return (false, b)
  | (true, b) => return (true, ← b.erase offset size)

/-- `extract(offset, sentinel, include_sentinel, *this, std::nothrow)`. -/
def extractViewSelf (b : Buffer) (garbage : Nat → Byte) (offset : Nat) (sentinel : List Byte)
    (includeSentinel : Bool) (alloc : Bool) : Checked (Bool × Buffer) := do
  require (offset ≤ b.size) .assertion
  let view ← b.view garbage
  match find view sentinel offset with
  | some position =>
    require (position ≥ offset) .assertion
    let size := sentinelSize offset position sentinel includeSentinel
    match ← b.assign (b.pointer offset) size alloc with
    | (false, b) => return (false, b)
    | (true, b) => return (true, ← b.erase offset size)
  | none => return (true, b.clear)

/-- Where every byte of the contents was stored, it does not matter what else memory holds. -/
theorem view_of_contents {b : Buffer} {bytes : List Byte} (h : b.contents = bytes.map some)
    (room : b.size ≤ b.block.length) (garbage : Nat → Byte) : b.view garbage = .ok bytes := by
  unfold view
  rw [require_of room, ok_bind, h]
  have same : (bytes.map some).mapIdx (fun index cell => Option.getD cell (garbage index)) = bytes := by
    apply List.ext_getElem
    · rw [List.length_mapIdx, List.length_map]
    · intro index _ _
      rw [List.getElem_mapIdx, List.getElem_map]
      rfl
  rw [same]
  rfl

theorem extractView_eq {b : Buffer} {bytes : List Byte} (h : b.Holds bytes) (garbage : Nat → Byte)
    (offset : Nat) (sentinel : List Byte) (includeSentinel : Bool) (buffer : Buffer) (alloc : Bool) :
    b.extractView garbage offset sentinel includeSentinel buffer alloc =
      b.extractSentinel offset sentinel includeSentinel buffer alloc := by
  have room : b.size ≤ b.block.length := by
    have size_le := h.valid.size_le
    have length := h.valid.block_length
    omega
  unfold extractView extractSentinel
  rw [view_of_contents h.contents room, toString_of_contents h.contents]
  rfl

end Aliases

section Calls

inductive Constructor
  | default
  | maximum (reservation maximum : Nat)
  | reservation (reservation : Nat)
  | data (data : Pointer) (size : Nat)

/-- The new buffer, with whether the constructor returns; `reserve` and `assign` throw where their
namesakes with `std::nothrow` fail. -/
def constructWith (alloc : Bool) : Constructor → Checked (Bool × Buffer)
  | .default => .ok (true, {})
  | .maximum reservation maximum => .ok (Buffer.construct reservation maximum alloc)
  | .reservation reservation =>
    let (data, b) := ({} : Buffer).reserve reservation alloc
    .ok (data ≠ none ∨ reservation = 0, b)
  | .data data size => ({} : Buffer).assign data size alloc

/-- The calls on one buffer that may change it. -/
inductive Call
  | reset
  | clear
  | shrink
  | reserve (capacity : Nat)
  | reserveZeroed (capacity : Nat)
  | extend (capacity : Nat)
  | extendZeroed (capacity : Nat)
  | resize (size : Nat)
  | resizeZeroed (size : Nat)
  | assign (data : Pointer) (size : Nat)
  | append (data : Pointer) (size : Nat)
  | insert (offset : Nat) (data : Pointer) (size : Nat)
  | erase (offset size : Nat)

/-- Whether a pointer was returned. -/
def pointing (call : Checked (Option Nat × Buffer)) : Checked (Bool × Buffer) := do
  let (pointer, b) ← call
  return (pointer ≠ none, b)

/-- The call with `std::nothrow`, and whether it returns neither null nor `false`. -/
def call (b : Buffer) (alloc : Bool) : Call → Checked (Bool × Buffer)
  | .reset => .ok (true, b.reset)
  | .clear => .ok (true, b.clear)
  | .shrink => do return (true, ← b.shrink alloc)
  | .reserve capacity => pointing (b.reserveWith .grow capacity alloc)
  | .reserveZeroed capacity => pointing (b.reserveZeroed capacity alloc)
  | .extend capacity => pointing (b.extendWith .grow capacity alloc)
  | .extendZeroed capacity => pointing (b.extendZeroed capacity alloc)
  | .resize size => pointing (b.resizeWith .grow size alloc)
  | .resizeZeroed size => pointing (b.resizeZeroed size alloc)
  | .assign data size => b.assign data size alloc
  | .append data size => b.append data size alloc
  | .insert offset data size => b.insert offset data size alloc
  | .erase offset size => do return (true, ← b.erase offset size)

/-- Whether the overload without `std::nothrow` throws where the one with it returns null or
`false`. -/
def Call.throws : Call → Bool
  | .reserve capacity => capacity > 0
  | .reserveZeroed capacity => capacity > 0
  | .extend capacity => capacity > 0
  | .extendZeroed capacity => capacity > 0
  | .resize size => size > 0
  | .resizeZeroed size => size > 0
  | _ => true

/-- The calls that write from one buffer to another. -/
inductive Transfer
  | copy
  | copyRange (offset size : Nat)
  | extract (offset size : Nat)
  | extractSentinel (offset : Nat) (sentinel : List Byte) (includeSentinel : Bool)

def transfer (b buffer : Buffer) (alloc : Bool) (garbage : Nat → Byte) :
    Transfer → Checked (Bool × Buffer × Buffer)
  | .copy => do
    let (done, buffer) ← b.copy buffer alloc
    return (done, b, buffer)
  | .copyRange offset size => do
    let (done, buffer) ← b.copyRange offset size buffer alloc
    return (done, b, buffer)
  | .extract offset size => b.extract offset size buffer alloc
  | .extractSentinel offset sentinel includeSentinel =>
    b.extractView garbage offset sentinel includeSentinel buffer alloc

/-- A buffer that is given to itself. -/
def transferSelf (b : Buffer) (alloc : Bool) (garbage : Nat → Byte) : Transfer → Checked (Bool × Buffer)
  | .copy => b.copy b alloc
  | .copyRange offset size => b.copyRange offset size b alloc
  | .extract offset size => b.extractSelf offset size alloc
  | .extractSentinel offset sentinel includeSentinel =>
    b.extractViewSelf garbage offset sentinel includeSentinel alloc

end Calls

section Objects

abbrev Objects (ι : Type) := ι → Option Buffer

/-- What a program does with buffers; of two buffers, `i` is the one whose member is called. -/
inductive Action (ι : Type)
  | construct (i : ι) (constructor : Constructor)
  | destroy (i : ι)
  | call (i : ι) (nothrow : Bool) (call : Call)
  | transfer (i : ι) (nothrow : Bool) (transfer : Transfer) (j : ι)
  /-- The overloads that return a new buffer. -/
  | transferNew (i : ι) (transfer : Transfer) (j : ι)
  | moveConstruct (i j : ι)
  | moveAssign (i j : ι)

inductive Report
  | returned (done : Bool)
  | badAlloc
  deriving DecidableEq

def report (nothrow throws done : Bool) : Report :=
  if nothrow then .returned done
  else if done = false ∧ throws then .badAlloc
  else .returned true

variable {ι : Type} [DecidableEq ι]

def object (s : Objects ι) (i : ι) : Checked Buffer :=
  match s i with
  | some b => .ok b
  | none => .error .outOfBounds

def act (s : Objects ι) (alloc : Bool) (garbage : Nat → Byte) :
    Action ι → Checked (Report × Objects ι)
  | .construct i constructor => do
    require (s i = none) .outOfBounds
    let (done, b) ← constructWith alloc constructor
    return (report false true done, if done then update s i (some b) else s)
  | .destroy i => do
    let _ ← object s i
    return (.returned true, update s i none)
  | .call i nothrow c => do
    let b ← object s i
    let (done, b) ← b.call alloc c
    return (report nothrow c.throws done, update s i (some b))
  | .transfer i nothrow t j => do
    let b ← object s i
    let buffer ← object s j
    if i = j then
      let (done, b) ← b.transferSelf alloc garbage t
      return (report nothrow true done, update s i (some b))
    else
      let (done, b, buffer) ← b.transfer buffer alloc garbage t
      return (report nothrow true done, update (update s i (some b)) j (some buffer))
  | .transferNew i t j => do
    let b ← object s i
    require (s j = none) .outOfBounds
    let (done, b, buffer) ← b.transfer {} alloc garbage t
    let s := update s i (some b)
    return (report false true done, if done then update s j (some buffer) else s)
  | .moveConstruct i j => do
    let that ← object s j
    require (s i = none) .outOfBounds
    let (b, that) := Buffer.moveConstruct that
    return (.returned true, update (update s j (some that)) i (some b))
  | .moveAssign i j => do
    let b ← object s i
    let that ← object s j
    -- From itself, a buffer is reset before its members are swapped with themselves.
    if i = j then return (.returned true, update s i (some b.reset))
    let (b, that) := b.moveAssign that
    return (.returned true, update (update s j (some that)) i (some b))

end Objects

section Sizes

def Constructor.Sized : Constructor → Prop
  | .default => True
  | .maximum n m => n < 2 ^ 64 ∧ m < 2 ^ 64
  | .reservation n => n < 2 ^ 64
  | .data _ size => size < 2 ^ 64

def Call.Sized : Call → Prop
  | .reset | .clear | .shrink => True
  | .reserve n | .reserveZeroed n | .extend n | .extendZeroed n | .resize n | .resizeZeroed n
  | .assign _ n | .append _ n => n < 2 ^ 64
  | .insert offset _ size => offset < 2 ^ 64 ∧ size < 2 ^ 64
  | .erase offset size => offset < 2 ^ 64 ∧ size < 2 ^ 64

def Transfer.Sized : Transfer → Prop
  | .copy => True
  | .copyRange offset size => offset < 2 ^ 64 ∧ size < 2 ^ 64
  | .extract offset size => offset < 2 ^ 64 ∧ size < 2 ^ 64
  | .extractSentinel offset sentinel _ => offset < 2 ^ 64 ∧ sentinel.length < 2 ^ 64

variable {ι : Type} [DecidableEq ι]

/-- The numbers given are values of `std::size_t`. -/
def Action.Sized : Action ι → Prop
  | .construct _ c => c.Sized
  | .call _ _ c => c.Sized
  | .transfer _ _ t _ => t.Sized
  | .transferNew _ t _ => t.Sized
  | _ => True

/-- The action returns or throws, with every assertion on its way met. -/
def Performs (s : Objects ι) (action : Action ι) (report : Report) (t : Objects ι) : Prop :=
  action.Sized ∧ ∃ alloc garbage, act s alloc garbage action = .ok (report, t)

def Performed (s : Objects ι) (action : Action ι) (t : Objects ι) : Prop :=
  ∃ report, Performs s action report t

end Sizes

end Buffer

end Hlib
