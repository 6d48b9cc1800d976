import Hlib.BufferEdit
import Hlib.Transition

namespace Hlib

/-- A seekable `std::ostream`: how many bytes it has taken from the beginning on, and `fail()`. -/
structure OStream where
  position : Nat := 0
  fail : Bool := false
  deriving DecidableEq, Repr

/-- How a sink answers a call: how many bytes it has room for, whether an error is flagged apart from
that, and what is found in `errno`. -/
structure Answer where
  room : Nat
  error : Bool := false
  errno : Errno := 0
  deriving DecidableEq, Repr

/-- The sink takes all the bytes and flags no error. -/
def Answer.TakesAll (answer : Answer) (bytes : List Byte) : Prop :=
  bytes.length ≤ answer.room ∧ answer.error = false

/-- `tellp()`. -/
def OStream.tellp (stream : OStream) : Int := if stream.fail then -1 else stream.position

/-- `write(ptr, n)`: the bytes handed over; the stream fails if there are fewer than `n`. -/
def OStream.write (stream : OStream) (bytes : List Byte) (answer : Answer) : List Byte × OStream :=
  if stream.fail then ([], stream)
  else
    let handed := bytes.take answer.room
    (handed, ⟨stream.position + handed.length, decide (handed.length < bytes.length) || answer.error⟩)

theorem OStream.write_handed (stream : OStream) (bytes : List Byte) (answer : Answer) :
    (stream.write bytes answer).1 = if stream.fail then [] else bytes.take answer.room := by
  unfold OStream.write
  split <;> rfl

/-- A write succeeds if the stream has not failed before and the sink takes everything. -/
theorem OStream.write_fine_iff {stream : OStream} {bytes : List Byte} {answer : Answer} :
    (stream.write bytes answer).2.fail = false ↔ stream.fail = false ∧ answer.TakesAll bytes := by
  unfold OStream.write Answer.TakesAll
  cases hf : stream.fail with
  | true => simp [hf]
  | false =>
    simp only [Bool.false_eq_true, if_false, Bool.or_eq_false_iff, decide_eq_false_iff_not, true_and,
      List.length_take]
    have room : ¬min answer.room bytes.length < bytes.length ↔ bytes.length ≤ answer.room := by omega
    rw [room]

/-- Then all the bytes are handed over, and `tellp()` has moved by their number. -/
theorem OStream.write_fine {stream : OStream} {bytes : List Byte} {answer : Answer}
    (fine : (stream.write bytes answer).2.fail = false) :
    (stream.write bytes answer).1 = bytes ∧
      (stream.write bytes answer).2.tellp - stream.tellp = bytes.length := by
  obtain ⟨before, room, _⟩ := write_fine_iff.mp fine
  have handed : (stream.write bytes answer).1 = bytes := by
    rw [write_handed, before]
    exact List.take_of_length_le room
  have moved : (stream.write bytes answer).2.position = stream.position + (stream.write bytes answer).1.length := by
    unfold OStream.write
    rw [before]
    rfl
  refine ⟨handed, ?_⟩
  unfold tellp
  rw [fine, before, moved, handed]
  simp

/-- `FILE`, of which `ferror` is seen. -/
structure CFile where
  error : Bool := false
  deriving DecidableEq, Repr

/-- `fwrite(ptr, 1, n, file)`: the bytes handed over. -/
def CFile.write (file : CFile) (bytes : List Byte) (answer : Answer) : List Byte × CFile :=
  (bytes.take answer.room, ⟨file.error || answer.error⟩)

namespace Buffer

/-- `size` bytes read from `data() + offset` on. -/
def bytesAt (b : Buffer) (offset size : Nat) : Checked (List Byte) :=
  if size = 0 then .ok []
  else if offset + size ≤ b.block.length then
    match ((b.block.drop offset).take size).mapM id with
    | some bytes => .ok bytes
    | none => .error .uninitialised
  else .error .outOfBounds

theorem bytesAt_holds {b : Buffer} {p : List Byte} (held : b.Holds p) {offset size : Nat}
    (h : offset + size ≤ b.size) : b.bytesAt offset size = .ok ((p.drop offset).take size) := by
  have size_le := held.valid.size_le
  have whole := held.valid.block_length
  have cells : (b.block.drop offset).take size = ((p.drop offset).take size).map some := by
    have inside : (b.block.take b.size).drop offset = (p.map some).drop offset := by
      rw [← held.contents]
      rfl
    calc (b.block.drop offset).take size
        = ((b.block.drop offset).take (b.size - offset)).take size := by
          rw [List.take_take, Nat.min_eq_left (by omega)]
      _ = ((p.drop offset).take size).map some := by
          rw [← List.drop_take, inside, ← List.map_drop, ← List.map_take]
  unfold bytesAt
  split
  next none =>
    rw [none, List.take_zero]
  next =>
    rw [if_pos (by omega), cells, mapM_stored]

end Buffer

namespace File

/-- `write(std::ostream& stream, void const* data, std::size_t size, std::nothrow)`, with the bytes handed
over: the count of `return {}` is zero. The overload without `std::nothrow` stores it in `size`. -/
def writeStream (stream : OStream) (data : List Byte) (answer : Answer) :
    Result Nat × List Byte × OStream :=
  let (handed, stream) := stream.write data answer
  if stream.fail then (.error answer.errno, handed, stream) else (.ok 0, handed, stream)

/-- `write(FILE* file, void const* data, std::size_t size, std::nothrow)`. -/
def writeFile (file : CFile) (data : List Byte) (answer : Answer) : Result Nat × List Byte × CFile :=
  let (handed, file) := file.write data answer
  if file.error then (.error answer.errno, handed, file) else (.ok handed.length, handed, file)

/-- `write(std::ostream& stream, Buffer const& buffer, std::size_t& offset, std::size_t size, std::nothrow)`,
with the new `offset`. -/
def writeBufferStream (stream : OStream) (b : Buffer) (offset size : Nat) (answer : Answer) :
    Checked (Result Unit × Nat × List Byte × OStream) := do
  let size := min size (sizeDiff b.size offset)
  let pos := stream.tellp
  let (handed, stream) := stream.write (← b.bytesAt offset size) answer
  if stream.fail then return (.error answer.errno, offset, handed, stream)
  return (.ok (), ((offset + (stream.tellp - pos)) % 2 ^ 64).toNat, handed, stream)

/-- `write(FILE* file, Buffer const& buffer, std::size_t& offset, std::size_t size, std::nothrow)`. -/
def writeBufferFile (file : CFile) (b : Buffer) (offset size : Nat) (answer : Answer) :
    Checked (Result Nat × Nat × List Byte × CFile) := do
  let size := min size (sizeDiff b.size offset)
  let (handed, file) := file.write (← b.bytesAt offset size) answer
  let count := handed.length
  let offset := sizeT (offset + count)
  if file.error then return (.error answer.errno, offset, handed, file)
  return (.ok count, offset, handed, file)

/-- `write(std::ostream& stream, Buffer const& buffer, std::nothrow)`. -/
def writeWholeStream (stream : OStream) (b : Buffer) (answer : Answer) :
    Checked (Result Unit × List Byte × OStream) := do
  let (result, _, handed, stream) ← writeBufferStream stream b 0 b.size answer
  return (result, handed, stream)

/-- `write(FILE* file, Buffer const& buffer, std::nothrow)`. -/
def writeWholeFile (file : CFile) (b : Buffer) (answer : Answer) :
    Checked (Result Nat × List Byte × CFile) := do
  let (result, _, handed, file) ← writeBufferFile file b 0 b.size answer
  return (result, handed, file)

/-- What is seen of a call: whether it succeeds, the number it reports, if it does so, the data from the
byte on that is the next one, and the bytes handed over. -/
structure Report where
  success : Bool
  reported : Option Nat
  data : List Byte
  handed : List Byte
  deriving DecidableEq, Repr

/-- A success that reports no number is one of all the data. -/
def Report.Accounts (r : Report) : Prop :=
  r.success = true → r.handed <+: r.data ∧ r.reported.getD r.data.length = r.handed.length

inductive Write
  | streamData (data : List Byte)
  | fileData (data : List Byte)
  | streamPart (size : Nat)
  | filePart (size : Nat)
  | streamWhole
  | fileWhole
  /-- `clear()` and `clearerr`, after which the caller may try again. -/
  | clear
  deriving DecidableEq, Repr

/-- A stream, a file and an `offset`, with the bytes of the buffer emitted by the calls that advance it. -/
structure Session where
  stream : OStream := {}
  file : CFile := {}
  offset : Nat := 0
  emitted : List Byte := []
  reports : List Report := []

def Session.add (s : Session) (report : Report) : Session := { s with reports := s.reports ++ [report] }

def execute (b : Buffer) (p : List Byte) (s : Session) : Write × Answer → Checked Session
  | (.streamData data, answer) =>
    let (result, handed, stream) := writeStream s.stream data answer
    .ok ({ s with stream }.add ⟨result.isOk, result.toOption, data, handed⟩)
  | (.fileData data, answer) =>
    let (result, handed, file) := writeFile s.file data answer
    .ok ({ s with file }.add ⟨result.isOk, result.toOption, data, handed⟩)
  | (.streamPart size, answer) => do
    let (result, offset, handed, stream) ← writeBufferStream s.stream b s.offset size answer
    return { s with stream, offset, emitted := s.emitted ++ handed }.add
      ⟨result.isOk, some (sizeDiff offset s.offset), p.drop s.offset, handed⟩
  | (.filePart size, answer) => do
    let (result, offset, handed, file) ← writeBufferFile s.file b s.offset size answer
    return { s with file, offset, emitted := s.emitted ++ handed }.add
      ⟨result.isOk, result.toOption, p.drop s.offset, handed⟩
  | (.streamWhole, answer) => do
    let (result, handed, stream) ← writeWholeStream s.stream b answer
    return { s with stream }.add ⟨result.isOk, none, p, handed⟩
  | (.fileWhole, answer) => do
    let (result, handed, file) ← writeWholeFile s.file b answer
    return { s with file }.add ⟨result.isOk, result.toOption, p, handed⟩
  | (.clear, _) => .ok { s with stream := { s.stream with fail := false }, file := {} }

/-- Every call accounts for its bytes, and what has been emitted of the buffer is `buffer[0, offset)`. -/
structure Accounted (p : List Byte) (s : Session) : Prop where
  reports : ∀ report ∈ s.reports, report.Accounts
  emitted : s.emitted = p.take s.offset
  offset : s.offset ≤ p.length

/-- Raw data is written to a stream without success, unless there is none; and a part of the buffer is
written to a stream with success, unless the stream takes none of it. -/
def Fits (p : List Byte) (s : Session) : Write × Answer → Prop
  | (.streamData data, answer) => s.stream.fail = true ∨ ¬answer.TakesAll data ∨ data = []
  | (.streamPart size, answer) =>
    s.stream.fail = true ∨ answer.TakesAll ((p.drop s.offset).take size) ∨
      ((p.drop s.offset).take size).take answer.room = []
  | _ => True

section Parts

variable {b : Buffer} {p : List Byte}

theorem bytesAt_part (held : b.Holds p) {offset : Nat} (inside : offset ≤ p.length) (size : Nat) :
    b.bytesAt offset (min size (sizeDiff b.size offset)) = .ok ((p.drop offset).take size) := by
  have size_eq := held.size
  have bounds := held.valid.size_le
  have capacity_le := held.valid.capacity_le
  have maximum_lt := held.valid.maximum_lt
  have rest : sizeDiff b.size offset = (p.drop offset).length := by
    rw [sizeDiff_of_le (by omega) (by omega), List.length_drop, size_eq]
  rw [Buffer.bytesAt_holds held (by rw [rest, List.length_drop]; omega), rest, ← List.take_take,
    List.take_length]

/-- The part is written whole and `offset` is moved behind it, or it stays where it is. -/
theorem writeBufferStream_part (held : b.Holds p) {offset : Nat} (inside : offset ≤ p.length) (size : Nat)
    (stream : OStream) (answer : Answer) :
    writeBufferStream stream b offset size answer =
      .ok (if (stream.write ((p.drop offset).take size) answer).2.fail then
        (.error answer.errno, offset, stream.write ((p.drop offset).take size) answer)
      else
        (.ok (), offset + ((p.drop offset).take size).length,
          stream.write ((p.drop offset).take size) answer)) := by
  have size_eq := held.size
  have bounds := held.valid.size_le
  have capacity_le := held.valid.capacity_le
  have maximum_lt := held.valid.maximum_lt
  have short : ((p.drop offset).take size).length ≤ p.length - offset := by
    rw [List.length_take, List.length_drop]
    omega
  unfold writeBufferStream
  dsimp only
  rw [bytesAt_part held inside, ok_bind]
  generalize (p.drop offset).take size = part at short ⊢
  cases fine : (stream.write part answer).2.fail with
  | true => rfl
  | false =>
    obtain ⟨_, moved⟩ := OStream.write_fine fine
    have advanced : ((offset + (part.length : Int)) % 2 ^ 64).toNat = offset + part.length := by omega
    simp only [Bool.false_eq_true, if_false, moved, advanced]
    rfl

theorem writeBufferFile_part (held : b.Holds p) {offset : Nat} (inside : offset ≤ p.length) (size : Nat)
    (file : CFile) (answer : Answer) :
    writeBufferFile file b offset size answer =
      .ok (if file.error || answer.error then .error answer.errno
          else .ok (((p.drop offset).take size).take answer.room).length,
        offset + (((p.drop offset).take size).take answer.room).length,
        file.write ((p.drop offset).take size) answer) := by
  have size_eq := held.size
  have bounds := held.valid.size_le
  have capacity_le := held.valid.capacity_le
  have maximum_lt := held.valid.maximum_lt
  have short : (((p.drop offset).take size).take answer.room).length ≤ p.length - offset := by
    rw [List.length_take, List.length_take, List.length_drop]
    omega
  unfold writeBufferFile
  dsimp only
  rw [bytesAt_part held inside, ok_bind]
  generalize (p.drop offset).take size = part at short ⊢
  have advanced : sizeT (offset + (part.take answer.room).length) = offset + (part.take answer.room).length :=
    sizeT_of_lt (by omega)
  cases flagged : file.error || answer.error with
  | true => simp only [CFile.write, flagged, advanced, if_true, pure, Except.pure]
  | false => simp only [CFile.write, flagged, advanced, Bool.false_eq_true, if_false, pure, Except.pure]

end Parts

section Steps

variable {b : Buffer} {p : List Byte} {s : Session}

theorem accounted_add {report : Report} : Accounted p (s.add report) ↔ Accounted p s ∧ report.Accounts := by
  constructor
  · intro h
    refine ⟨⟨?_, h.emitted, h.offset⟩, h.reports report (List.mem_append_right _ (List.mem_singleton_self _))⟩
    intro earlier he
    exact h.reports earlier (List.mem_append_left _ he)
  · rintro ⟨h, last⟩
    refine ⟨?_, h.emitted, h.offset⟩
    intro other ho
    rcases List.mem_append.mp ho with earlier | new
    · exact h.reports other earlier
    · rw [List.mem_singleton.mp new]
      exact last

/-- Bytes that follow `buffer[0, offset)` in the buffer. -/
theorem take_handed {offset : Nat} {handed : List Byte} (inside : offset ≤ p.length)
    (next : handed <+: p.drop offset) :
    p.take offset ++ handed = p.take (offset + handed.length) ∧ offset + handed.length ≤ p.length := by
  have bound := next.length_le
  rw [List.length_drop] at bound
  refine ⟨?_, by omega⟩
  rw [List.take_add, ← List.prefix_iff_eq_take.mp next]

theorem Accounted.advance (h : Accounted p s) (stream : OStream) (file : CFile) {handed : List Byte}
    (next : handed <+: p.drop s.offset) :
    Accounted p { s with stream, file, offset := s.offset + handed.length, emitted := s.emitted ++ handed } := by
  obtain ⟨emitted, inside⟩ := take_handed h.offset next
  exact ⟨h.reports, by rw [h.emitted]; exact emitted, inside⟩

/-- Where `offset` is not moved, nothing may have been emitted. -/
theorem Accounted.stays_iff (h : Accounted p s) (stream : OStream) (file : CFile) {handed : List Byte} :
    Accounted p { s with stream, file, emitted := s.emitted ++ handed } ↔ handed = [] := by
  constructor
  · intro after
    have emitted : s.emitted ++ handed = p.take s.offset := after.emitted
    rw [← h.emitted] at emitted
    exact List.append_right_eq_self.mp emitted
  · rintro rfl
    exact ⟨h.reports, by rw [List.append_nil]; exact h.emitted, h.offset⟩

theorem Accounted.same (h : Accounted p s) (stream : OStream) (file : CFile) :
    Accounted p { s with stream, file } :=
  ⟨h.reports, h.emitted, h.offset⟩

theorem accounts_failure {report : Report} (h : report.success = false) : report.Accounts := by
  intro success
  cases h.symm.trans success

theorem accounts_count {success : Bool} {data handed : List Byte} (next : handed <+: data) :
    Report.Accounts ⟨success, some handed.length, data, handed⟩ :=
  fun _ => ⟨next, rfl⟩

theorem part_within (offset size room : Nat) :
    ((p.drop offset).take size).take room <+: p.drop offset := by
  have inner : ((p.drop offset).take size).take room <+: (p.drop offset).take size := List.take_prefix _ _
  exact inner.trans ( List.take_prefix _ _)

theorem execute_streamData (h : Accounted p s) (data : List Byte) (answer : Answer) {s' : Session}
    (done : execute b p s (.streamData data, answer) = .ok s') :
    Accounted p s' ↔ s.stream.fail = true ∨ ¬answer.TakesAll data ∨ data = [] := by
  have fine_iff := @OStream.write_fine_iff s.stream data answer
  have all_handed := @OStream.write_fine s.stream data answer
  unfold execute writeStream at done
  dsimp only at done
  generalize s.stream.write data answer = taken at done fine_iff all_handed
  obtain ⟨handed, stream⟩ := taken
  cases fine : stream.fail with
  | true =>
    simp only [fine, if_true] at done
    cases done
    refine iff_of_true (accounted_add.mpr ⟨h.same _ _, accounts_failure rfl⟩) ?_
    by_contra within
    rw [not_or, not_or, Bool.not_eq_true, not_not] at within
    obtain ⟨before, all, _⟩ := within
    cases fine.symm.trans (fine_iff.mpr ⟨before, all⟩)
  | false =>
    simp only [fine, Bool.false_eq_true, if_false] at done
    cases done
    obtain ⟨before, all⟩ := fine_iff.mp fine
    obtain ⟨rfl, _⟩ := all_handed fine
    rw [accounted_add, and_iff_right (h.same _ _)]
    constructor
    · intro accounts
      exact Or.inr (Or.inr (List.length_eq_zero_iff.mp (accounts rfl).2.symm))
    · rintro (failed | partly | rfl)
      · cases before.symm.trans failed
      · exact absurd all partly
      · exact accounts_count List.prefix_rfl

theorem execute_fileData (h : Accounted p s) (data : List Byte) (answer : Answer) {s' : Session}
    (done : execute b p s (.fileData data, answer) = .ok s') : Accounted p s' := by
  unfold execute writeFile CFile.write at done
  cases flagged : s.file.error || answer.error with
  | true =>
    simp only [flagged, if_true] at done
    cases done
    exact accounted_add.mpr ⟨h.same _ _, accounts_failure rfl⟩
  | false =>
    simp only [flagged, Bool.false_eq_true, if_false] at done
    cases done
    exact accounted_add.mpr ⟨h.same _ _, accounts_count ( List.take_prefix _ _)⟩

theorem execute_streamPart (held : b.Holds p) (h : Accounted p s) (size : Nat) (answer : Answer)
    {s' : Session} (done : execute b p s (.streamPart size, answer) = .ok s') :
    Accounted p s' ↔ s.stream.fail = true ∨ answer.TakesAll ((p.drop s.offset).take size) ∨
      ((p.drop s.offset).take size).take answer.room = [] := by
  have room := held.valid.capacity_le
  have size_le := held.valid.size_le
  have maximum_lt := held.valid.maximum_lt
  have size_eq := held.size
  have next : (p.drop s.offset).take size <+: p.drop s.offset := List.take_prefix _ _
  obtain ⟨_, inside⟩ := take_handed h.offset next
  unfold execute at done
  dsimp only at done
  rw [writeBufferStream_part held h.offset, ok_bind] at done
  generalize (p.drop s.offset).take size = part at done next inside ⊢
  have fine_iff := @OStream.write_fine_iff s.stream part answer
  have all_handed := @OStream.write_fine s.stream part answer
  have some_handed := s.stream.write_handed part answer
  generalize s.stream.write part answer = taken at done fine_iff all_handed some_handed
  obtain ⟨handed, stream⟩ := taken
  cases fine : stream.fail with
  | true =>
    simp only [fine, if_true] at done
    cases done
    change handed = _ at some_handed
    rw [accounted_add, and_iff_left (accounts_failure rfl), h.stays_iff, some_handed]
    cases before : s.stream.fail with
    | true => simp
    | false =>
      have short : ¬answer.TakesAll part := fun all => by cases fine.symm.trans (fine_iff.mpr ⟨before, all⟩)
      simp [short]
  | false =>
    simp only [fine, Bool.false_eq_true, if_false] at done
    cases done
    obtain ⟨_, all⟩ := fine_iff.mp fine
    obtain ⟨rfl, _⟩ := all_handed fine
    refine iff_of_true (accounted_add.mpr ⟨h.advance _ _ next, ?_⟩) (Or.inr (Or.inl all))
    rw [sizeDiff_of_le (by omega) (by omega), Nat.add_sub_cancel_left]
    exact accounts_count next

theorem execute_filePart (held : b.Holds p) (h : Accounted p s) (size : Nat) (answer : Answer)
    {s' : Session} (done : execute b p s (.filePart size, answer) = .ok s') : Accounted p s' := by
  have next := @part_within p s.offset size answer.room
  unfold execute at done
  dsimp only at done
  rw [writeBufferFile_part held h.offset, ok_bind] at done
  cases done
  refine accounted_add.mpr ⟨h.advance _ _ next, ?_⟩
  cases flagged : s.file.error || answer.error with
  | true => exact accounts_failure rfl
  | false => exact accounts_count next

theorem execute_streamWhole (held : b.Holds p) (h : Accounted p s) (answer : Answer)
    {s' : Session} (done : execute b p s (.streamWhole, answer) = .ok s') : Accounted p s' := by
  have all_handed := @OStream.write_fine s.stream p answer
  unfold execute writeWholeStream at done
  dsimp only at done
  rw [writeBufferStream_part held (Nat.zero_le _), ok_bind, List.drop_zero, held.size, List.take_length] at done
  generalize s.stream.write p answer = taken at done all_handed
  obtain ⟨handed, stream⟩ := taken
  cases fine : stream.fail with
  | true =>
    simp only [fine, if_true] at done
    cases done
    exact accounted_add.mpr ⟨h.same _ _, accounts_failure rfl⟩
  | false =>
    simp only [fine, Bool.false_eq_true, if_false] at done
    cases done
    obtain ⟨rfl, _⟩ := all_handed fine
    exact accounted_add.mpr ⟨h.same _ _, fun _ => ⟨List.prefix_rfl, rfl⟩⟩

theorem execute_fileWhole (held : b.Holds p) (h : Accounted p s) (answer : Answer)
    {s' : Session} (done : execute b p s (.fileWhole, answer) = .ok s') : Accounted p s' := by
  unfold execute writeWholeFile at done
  dsimp only at done
  rw [writeBufferFile_part held (Nat.zero_le _), ok_bind] at done
  cases done
  refine accounted_add.mpr ⟨h.same _ _, ?_⟩
  cases flagged : s.file.error || answer.error with
  | true => exact accounts_failure rfl
  | false => exact accounts_count (part_within 0 _ _)

theorem execute_accounted (held : b.Holds p) (h : Accounted p s) {call : Write × Answer} {s' : Session}
    (done : execute b p s call = .ok s') : Accounted p s' ↔ Fits p s call := by
  obtain ⟨write, answer⟩ := call
  cases write with
  | streamData data => exact execute_streamData h data answer done
  | fileData data => exact iff_of_true (execute_fileData h data answer done) trivial
  | streamPart size => exact execute_streamPart held h size answer done
  | filePart size => exact iff_of_true (execute_filePart held h size answer done) trivial
  | streamWhole => exact iff_of_true (execute_streamWhole held h answer done) trivial
  | fileWhole => exact iff_of_true (execute_fileWhole held h answer done) trivial
  | clear =>
    cases done
    exact iff_of_true (h.same _ _) trivial

/-- No call reads beyond the buffer, whatever the sink does, and none moves `offset` there. -/
theorem execute_ok (held : b.Holds p) (inside : s.offset ≤ p.length) (call : Write × Answer) :
    ∃ s', execute b p s call = .ok s' ∧ s'.offset ≤ p.length := by
  obtain ⟨write, answer⟩ := call
  have whole := Nat.zero_le p.length
  cases write with
  | streamData data => exact ⟨_, rfl, inside⟩
  | fileData data => exact ⟨_, rfl, inside⟩
  | streamPart size =>
    refine ⟨_, by rw [execute, writeBufferStream_part held inside]; rfl, ?_⟩
    have next : (p.drop s.offset).take size <+: p.drop s.offset := List.take_prefix _ _
    show Prod.fst (Prod.snd (ite _ _ _)) ≤ _
    split
    · exact inside
    · exact (take_handed inside next).2
  | filePart size =>
    refine ⟨_, by rw [execute, writeBufferFile_part held inside]; rfl, ?_⟩
    exact (take_handed inside (part_within s.offset size answer.room)).2
  | streamWhole =>
    refine ⟨_, by rw [execute, writeWholeStream, writeBufferStream_part held whole]; rfl, ?_⟩
    exact inside
  | fileWhole =>
    refine ⟨_, by rw [execute, writeWholeFile, writeBufferFile_part held whole]; rfl, ?_⟩
    exact inside
  | clear => exact ⟨_, rfl, inside⟩

theorem foldlM_execute_ok (held : b.Holds p) (calls : List (Write × Answer)) (inside : s.offset ≤ p.length) :
    ∃ s', calls.foldlM (execute b p) s = .ok s' := by
  induction calls generalizing s with
  | nil => exact ⟨s, rfl⟩
  | cons call calls ih =>
    obtain ⟨t, done, within⟩ := execute_ok held inside call
    rw [List.foldlM_cons, done]
    exact ih within

/-- The calls return, and after each of them all bytes are accounted for. -/
def AccountsFor (b : Buffer) (p : List Byte) (start : Session) (calls : List (Write × Answer)) : Prop :=
  (∃ s, calls.foldlM (execute b p) start = .ok s) ∧
    ∀ done rest s, calls = done ++ rest → done.foldlM (execute b p) start = .ok s → Accounted p s

/-- A session that goes on at `offset`; what is before it has been emitted. -/
def Session.at (p : List Byte) (stream : OStream) (file : CFile) (offset : Nat) : Session where
  stream := stream
  file := file
  offset := offset
  emitted := p.take offset

theorem accountsFor_iff (held : b.Holds p) (stream : OStream) (file : CFile) {offset : Nat}
    (inside : offset ≤ b.size) (calls : List (Write × Answer)) :
    AccountsFor b p (.at p stream file offset) calls ↔
      ∀ done call rest s, calls = done ++ call :: rest →
        done.foldlM (execute b p) (.at p stream file offset) = .ok s → Fits p s call := by
  rw [held.size] at inside
  have first : Accounted p (.at p stream file offset) := ⟨by simp [Session.at], rfl, inside⟩
  obtain ⟨s, run⟩ := foldlM_execute_ok held calls first.offset
  have along := Transition.foldlM_along_iff (fun h done => execute_accounted held h done) first run
  exact Iff.trans (and_iff_right ⟨s, run⟩) along

/-- The bytes `a` and `b`. -/
def letters : Buffer where
  data := some [some 0x61#8, some 0x62#8]
  capacity := 2
  size := 2

theorem letters_holds : letters.Holds [0x61#8, 0x62#8] := by
  refine ⟨⟨?_, rfl, Nat.le_refl 2, ?_, ?_⟩, rfl⟩
  · simp [letters]
  · show 2 ≤ 2 ^ 64 - 1
    omega
  · show 2 ^ 64 - 1 < 2 ^ 64
    omega

/-- One byte goes to a stream, and the next one to a file. -/
theorem accountsFor_iff_letters :
    AccountsFor letters [0x61#8, 0x62#8] (.at [0x61#8, 0x62#8] {} {} 0)
      [(.streamPart 1, { room := 1 }), (.filePart 4, { room := 4 })] := by
  refine (accountsFor_iff letters_holds {} {} (Nat.zero_le _) _).mpr ?_
  intro done call rest s split run
  rcases done with _ | ⟨first, _ | ⟨second, done⟩⟩
  · cases split
    cases run
    exact Or.inr (Or.inl ⟨by decide, rfl⟩)
  · cases split
    exact trivial
  · cases done <;> cases split

/-- `write(stream, "a", 1)` succeeds, hands the byte over, and reports zero. -/
theorem stream_count_zero : ¬∀ calls, AccountsFor {} [] (.at [] {} {} 0) calls := by
  intro h
  have after := (h [(.streamData [0x61#8], { room := 1 })]).2 _ [] _ (List.append_nil _).symm rfl
  have counted := after.reports _ (List.mem_singleton_self _) rfl
  cases counted.2

end Steps

end File

end Hlib
