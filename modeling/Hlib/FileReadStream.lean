import Hlib.FileReadAll
import Hlib.Loop

namespace Hlib

/-- `std::istream` over a finite content: what is left of it, `eofbit`, `failbit` and `gcount()`. -/
structure IStream where
  rest : List Byte
  eof : Bool := false
  fail : Bool := false
  gcount : Nat := 0

/-- `read(ptr, n)`: the bytes delivered, which are fewer than `n` only at the end. -/
def IStream.read (stream : IStream) (n : Nat) : List Byte × IStream :=
  if stream.eof || stream.fail then ([], { stream with fail := true, gcount := 0 })
  else
    let bytes := stream.rest.take n
    let short := decide (bytes.length < n)
    (bytes, { rest := stream.rest.drop n, eof := short, fail := short, gcount := bytes.length })

theorem IStream.read_fine {stream after : IStream} {n : Nat} {bytes : List Byte}
    (h : stream.read n = (bytes, after)) (fine : after.fail = false) :
    n ≤ stream.rest.length ∧ after.rest = stream.rest.drop n ∧ after.eof = false := by
  unfold IStream.read at h
  split at h
  next =>
    cases h
    cases fine
  next =>
    cases h
    have whole := of_decide_eq_false fine
    rw [List.length_take] at whole
    exact ⟨by omega, rfl, fine⟩

namespace File

/-- `read(std::istream& stream, Buffer& buffer, std::size_t size, std::nothrow)`; `errno` is what is
found in `errno`. -/
def readStream (b : Buffer) (size : Nat) (stream : IStream) (alloc : Nat → Bool) (errno : Errno) :
    Checked (Result Unit × Buffer × IStream) :=
  match b.extend size (alloc 0) with
  | (none, b) => .ok (.error errno, b, stream)
  | (some ptr, b) => do
    let (bytes, stream) := stream.read size
    let b ← b.store (ptr + b.size) bytes
    if stream.fail then return (.error errno, b, stream)
    match b.resize (sizeT (b.size + stream.gcount)) (alloc 1) with
    | (none, b) => return (.error errno, b, stream)
    | (some _, b) => return (.ok (), b, stream)

/-- Where the `do` loop of `read(std::istream& stream, std::size_t batch_size, std::nothrow)` stands. -/
structure Batches where
  call : Nat
  buffer : Buffer
  stream : IStream

def readBatch (batch : Nat) (alloc : Nat → Nat → Bool) (errno : Errno) :
    Loop.Body Batches (Result Buffer) Fault := fun s => do
  let (result, buffer, stream) ← readStream s.buffer batch s.stream (alloc s.call) errno
  match result with
  | .error errno => return .inr (.error errno)
  | .ok () =>
    if stream.fail = false ∧ stream.eof = false then return .inl ⟨s.call + 1, buffer, stream⟩
    else return .inr (.ok buffer)

/-- A batch that is read without failure is a full one, and neither of the flags is set behind it. -/
theorem readStream_success {b b' : Buffer} {size : Nat} {stream stream' : IStream} {alloc : Nat → Bool}
    {errno : Errno} (h : readStream b size stream alloc errno = .ok (.ok (), b', stream')) :
    size ≤ stream.rest.length ∧ stream'.rest = stream.rest.drop size ∧ stream'.fail = false ∧
      stream'.eof = false := by
  cases hr : stream.read size with
  | mk bytes after =>
    unfold readStream at h
    rw [hr] at h
    split at h
    next => cases h
    next =>
      obtain ⟨stored, _, h⟩ := bind_ok h
      cases fine : after.fail with
      | true =>
        rw [fine] at h
        cases h
      | false =>
        obtain ⟨full, rest, unset⟩ := IStream.read_fine hr fine
        rw [fine] at h
        simp only [Bool.false_eq_true, if_false] at h
        split at h <;> cases h
        exact ⟨full, rest, fine, unset⟩

/-- After a batch the loop goes on, or an error is returned: no batch ends it otherwise. -/
theorem readBatch_ok {batch : Nat} {alloc : Nat → Nat → Bool} {errno : Errno} {s : Batches}
    {next : Batches ⊕ Result Buffer} (h : readBatch batch alloc errno s = .ok next) :
    (∃ e, next = .inr (.error e)) ∨ ∃ t, next = .inl t ∧ batch ≤ s.stream.rest.length ∧
      t.stream.rest = s.stream.rest.drop batch := by
  obtain ⟨⟨result, buffer, stream⟩, hr, h⟩ := bind_ok h
  cases result with
  | error e =>
    cases h
    exact Or.inl ⟨e, rfl⟩
  | ok u =>
    obtain ⟨full, rest, unset⟩ := readStream_success hr
    dsimp only at h
    rw [if_pos unset] at h
    cases h
    exact Or.inr ⟨_, rfl, full, rest⟩

theorem readBatch_descends {batch : Nat} (hb : 0 < batch) (alloc : Nat → Nat → Bool) (errno : Errno) :
    Loop.Descends (readBatch batch alloc errno) fun s => s.stream.rest.length := by
  intro s t h
  rcases readBatch_ok h with ⟨e, stops⟩ | ⟨t', goes, full, rest⟩
  · cases stops
  · cases goes
    show t.stream.rest.length < s.stream.rest.length
    rw [rest, List.length_drop]
    omega

/-- `read(std::istream& stream, std::size_t batch_size, std::nothrow)`; the overload without
`std::nothrow` throws the error. -/
def readStreamAll (content : List Byte) (batch : Nat) (alloc : Nat → Nat → Bool) (errno : Errno) :
    Checked (Result Buffer) :=
  require (0 < batch) .assertion >>= fun _ =>
    Loop.loop (readBatch (batch + if batch = 0 then 1 else 0) alloc errno) _
      (readBatch_descends (by split <;> omega) alloc errno) ⟨0, {}, { rest := content }⟩

/-- The end of the stream is met by a batch that is too short, which counts as a failure; and the loop is
left in no other way. -/
theorem readStreamAll_never (content : List Byte) (batch : Nat) (alloc : Nat → Nat → Bool) (errno : Errno) :
    ¬ReturnsContent content (readStreamAll content batch alloc errno) := by
  rintro ⟨b, returned, _⟩
  obtain ⟨_, _, returned⟩ := bind_ok returned
  refine Loop.loop_induction (P := fun _ (outcome : Checked (Result Buffer)) => outcome ≠ .ok (.ok b))
    _ ?_ ?_ ?_ _ returned
  · intro s fault _ equal
    cases equal
  · intro s result h equal
    rcases readBatch_ok h with ⟨e, stops⟩ | ⟨t, goes, _⟩
    · cases stops
      cases equal
    · cases goes
  · intro s t outcome _ h
    exact h

/-- One byte, read in batches of two: `failbit` is set, and the byte is not delivered. -/
theorem readStreamAll_short (errno : Errno) :
    readStreamAll [1#8] 2 (fun _ _ => true) errno = .ok (.error errno) :=
  Loop.loop_leaves rfl

theorem stream_read_fails :
    ¬∀ (content : List Byte) (batch : Nat), 1 ≤ batch →
      ReturnsContent content (readStreamAll content batch (fun _ _ => true) 0) := by
  intro h
  obtain ⟨b, returned, _⟩ := h [1#8] 2 (by omega)
  rw [readStreamAll_short] at returned
  cases returned

end File

end Hlib
