import Hlib.Buffer

namespace Hlib

namespace File

/-- Both `read` overloads on a `Buffer`, from the system call that delivered `bytes` on:
`ptr + buffer.size()` is where these go. -/
def storeBatch (b : Buffer) (ptr : Nat) (bytes : List Byte) (alloc : Bool) :
    Checked (Option Nat × Buffer) := do
  let b ← b.store (ptr + b.size) bytes
  .ok (b.resize (sizeT (b.size + bytes.length)) alloc)

/-- `read(int fd, Buffer& buffer, std::size_t size, std::nothrow)`; `call` is what `::read`
gives, of which it never delivers more than `size` bytes, and `errno` what is found in `errno`
when the buffer refuses. -/
def readFd (b : Buffer) (size : Nat) (call : Result (List Byte)) (alloc : Nat → Bool)
    (errno : Errno) : Checked (Result Nat × Buffer) :=
  match b.extend size (alloc 0) with
  | (none, b) => .ok (.error errno, b)
  | (some ptr, b) =>
    match call with
    | .error errno => .ok (.error errno, b)
    | .ok bytes => do
      let count := (bytes.take size).length
      match ← storeBatch b ptr (bytes.take size) (alloc 1) with
      | (none, b) => .ok (.error errno, b)
      | (some _, b) => .ok (.ok count, b)

/-- `read(FILE* file, Buffer& buffer, std::size_t size, std::nothrow)`: `fread` delivers `bytes`
and may leave the error indicator set, which is looked at last. -/
def readFile (b : Buffer) (size : Nat) (bytes : List Byte) (ferror : Bool) (alloc : Nat → Bool)
    (errno : Errno) : Checked (Result Nat × Buffer) :=
  match b.extend size (alloc 0) with
  | (none, b) => .ok (.error errno, b)
  | (some ptr, b) => do
    let count := (bytes.take size).length
    match ← storeBatch b ptr (bytes.take size) (alloc 1) with
    | (none, b) => .ok (.error errno, b)
    | (some _, b) => if ferror then .ok (.error errno, b) else .ok (.ok count, b)

/-- What the `call`-th read delivers of the bytes not yet delivered: at least one, unless there is
none left, and otherwise as many as `chunk` has it. -/
def deliver (chunk : Nat → Nat) (batch call : Nat) (rest : List Byte) : List Byte :=
  rest.take (min batch (max 1 (chunk call)))

theorem deliver_length_le (chunk : Nat → Nat) (batch call : Nat) (rest : List Byte) :
    (deliver chunk batch call rest).length ≤ batch := by
  rw [deliver, List.length_take]
  omega

theorem deliver_take (chunk : Nat → Nat) (batch call : Nat) (rest : List Byte) :
    (deliver chunk batch call rest).take batch = deliver chunk batch call rest :=
  List.take_of_length_le (deliver_length_le chunk batch call rest)

theorem deliver_append (chunk : Nat → Nat) (batch call : Nat) (rest : List Byte) :
    deliver chunk batch call rest ++ rest.drop (deliver chunk batch call rest).length = rest := by
  rw [deliver, List.length_take, List.take_eq_take_min]
  exact List.take_append_drop _ _

theorem deliver_nil_iff {chunk : Nat → Nat} {batch call : Nat} {rest : List Byte} (hb : 0 < batch) :
    deliver chunk batch call rest = [] ↔ rest = [] := by
  rw [deliver, List.take_eq_nil_iff]
  constructor
  · rintro (h | h)
    · omega
    · exact h
  · exact Or.inr

theorem readFd_count {b b' : Buffer} {size count : Nat} {bytes : List Byte} {alloc : Nat → Bool}
    {errno : Errno} (h : readFd b size (.ok bytes) alloc errno = .ok (.ok count, b')) :
    count = (bytes.take size).length := by
  unfold readFd at h
  split at h
  next => cases h
  next =>
    obtain ⟨⟨address, grown⟩, _, h⟩ := bind_ok h
    cases address <;> cases h
    rfl

/-- The `do` loop of `read(int fd, std::size_t batch_size, std::nothrow)`. -/
def readFdLoop (chunk : Nat → Nat) (batch : Nat) (alloc : Nat → Nat → Bool) (errno : Errno)
    (call : Nat) (rest : List Byte) (b : Buffer) : Checked (Result Buffer) :=
  match h : readFd b batch (.ok (deliver chunk batch call rest)) (alloc call) errno with
  | .error fault => .error fault
  | .ok (.error errno, _) => .ok (.error errno)
  | .ok (.ok count, b) =>
    if more : 0 < count then
      readFdLoop chunk batch alloc errno (call + 1)
        (rest.drop (deliver chunk batch call rest).length) b
    else .ok (.ok b)
  termination_by rest.length
  decreasing_by
    have count_eq := readFd_count h
    rw [deliver_take] at count_eq
    have whole := congrArg List.length (deliver_append chunk batch call rest)
    rw [List.length_append] at whole
    omega

/-- `read(int fd, std::size_t batch_size, std::nothrow)` on a descriptor with `content` before
end of file. -/
def readFdAll (content : List Byte) (chunk : Nat → Nat) (batch : Nat) (alloc : Nat → Nat → Bool)
    (errno : Errno) : Checked (Result Buffer) := do
  require (0 < batch) .assertion
  let batch := batch + if batch = 0 then 1 else 0
  readFdLoop chunk batch alloc errno 0 content {}

/-- `feof` after a call that delivered `delivered` and left `rest`: certain once nothing was
delivered, and for a short count that met the end up to the stream. -/
def eofAfter (early : Nat → Bool) (batch call : Nat) (delivered rest : List Byte) : Bool :=
  delivered = [] || (delivered.length < batch && rest = [] && early call)

/-- The `do` loop of `read(FILE* file, std::size_t batch_size, std::nothrow)`. -/
def readFileLoop (chunk : Nat → Nat) (early : Nat → Bool) (batch : Nat) (alloc : Nat → Nat → Bool)
    (errno : Errno) (call : Nat) (rest : List Byte) (b : Buffer) : Checked (Result Buffer) :=
  match readFile b batch (deliver chunk batch call rest) false (alloc call) errno with
  | .error fault => .error fault
  | .ok (.error errno, _) => .ok (.error errno)
  | .ok (.ok _, b) =>
    if more : eofAfter early batch call (deliver chunk batch call rest)
        (rest.drop (deliver chunk batch call rest).length) = false then
      readFileLoop chunk early batch alloc errno (call + 1)
        (rest.drop (deliver chunk batch call rest).length) b
    else .ok (.ok b)
  termination_by rest.length
  decreasing_by
    have nonempty : deliver chunk batch call rest ≠ [] := by
      intro nil
      simp [eofAfter, nil] at more
    have positive := List.length_pos_iff.mpr nonempty
    have whole := congrArg List.length (deliver_append chunk batch call rest)
    rw [List.length_append] at whole
    omega

/-- `read(FILE* file, std::size_t batch_size, std::nothrow)`. -/
def readFileAll (content : List Byte) (chunk : Nat → Nat) (early : Nat → Bool) (batch : Nat)
    (alloc : Nat → Nat → Bool) (errno : Errno) : Checked (Result Buffer) := do
  require (0 < batch) .assertion
  let batch := batch + if batch = 0 then 1 else 0
  readFileLoop chunk early batch alloc errno 0 content {}

end File

end Hlib
