import Hlib.EndpointHalves
import Hlib.FileDescriptorIo
import Hlib.Socket

namespace Hlib

namespace Endpoint

variable {T : Type} [SinkData T] {io : Endpoint Handler T} {call : ReadCall}
  {half : ReadHalf Handler T} {id : SinkId} {available : Nat}

/-- After the read half the sink holds what it held and what the system call gave, and it was not
asked for more than what was available. -/
def AppendsRead (io : Endpoint Handler T) (half : ReadHalf Handler T) (id : SinkId)
    (available : Nat) : Prop :=
  (half.io.sinks id).contents = (io.sinks id).contents ++ half.returned.map some ∧
    half.requested ≤ available

/-- A dynamic sink is empty, and data comes unless there is no room or nothing to read. -/
def PlainRead (sink : SinkAdapter T) (call : ReadCall) (available : Nat) : Prop :=
  (sink.maximum = 0 → sink.contents = []) ∧
    ((∃ bytes, call.received = .ok bytes ∧ bytes ≠ []) ∨ available = 0 ∨
      sink.maximum ≠ 0 ∧ sink.size = sink.maximum)

theorem requested_le_iff {sink : SinkAdapter T} {requested : Nat}
    (h : sink.headroom available = .ok requested) :
    requested ≤ available ↔ (sink.maximum = 0 → sink.contents = []) := by
  unfold SinkAdapter.headroom at h
  split at h
  next dynamic =>
    cases Except.ok.inj h
    rw [← List.length_eq_zero_iff]
    change sink.contents.length + available ≤ available ↔ _
    simp only [dynamic, forall_const]
    omega
  next bounded =>
    obtain ⟨_, _, h⟩ := bind_ok h
    cases Except.ok.inj h
    exact iff_of_true (Nat.min_le_right _ _) (fun dynamic => absurd dynamic bounded)

theorem requested_zero_iff {sink : SinkAdapter T} {requested : Nat}
    (h : sink.headroom available = .ok requested) (plain : sink.maximum = 0 → sink.contents = []) :
    requested = 0 ↔ available = 0 ∨ sink.maximum ≠ 0 ∧ sink.size = sink.maximum := by
  unfold SinkAdapter.headroom at h
  split at h
  next dynamic =>
    cases Except.ok.inj h
    have empty : sink.size = 0 := List.length_eq_zero_iff.mpr (plain dynamic)
    simp [empty, dynamic]
  next bounded =>
    obtain ⟨_, within, h⟩ := bind_ok h
    have size_le := require_ok within
    cases Except.ok.inj h
    simp only [bounded, ne_eq, not_false_eq_true, true_and]
    omega

/-- A read half appends what was read, and asks for no more than there is, exactly on plain reads. -/
theorem readHalf_appends_iff (h : io.readHalf call = .ok half) (pending : io.readSink = some id)
    (fionread : call.available = .ok available) :
    AppendsRead io half id available ↔ PlainRead (io.sinks id) call available := by
  obtain ⟨id', pending', ⟨_, failed, _⟩ | ⟨available', sink, fionread', produced, after⟩⟩ :=
    readHalf_ok h
  · cases fionread.symm.trans failed
  · cases pending.symm.trans pending'
    cases fionread.symm.trans fionread'
    have kept : half.io.sinks id = sink :=
      readHalf_sinks (after.imp (fun plain => plain.2) (fun completed => completed.2))
    unfold AppendsRead PlainRead
    rw [kept, requested_le_iff produced.headroom]
    constructor
    · rintro ⟨contents, plain⟩
      refine ⟨plain, ?_⟩
      obtain ⟨nothing, ⟨junk, grown, length⟩, _⟩ | ⟨some, ⟨bytes, received, taken⟩, _⟩ :=
        produced.outcome
      · right
        rw [nothing, List.map_nil, List.append_nil, grown, List.append_right_eq_self] at contents
        rw [contents, List.length_nil] at length
        exact (requested_zero_iff produced.headroom plain).mp length.symm
      · exact Or.inl ⟨bytes, received, fun nil => some (by rw [taken, nil, List.take_nil])⟩
    · rintro ⟨plain, reason⟩
      refine ⟨?_, plain⟩
      obtain ⟨nothing, ⟨junk, grown, length⟩, silent, _⟩ | ⟨_, _, contents, _⟩ := produced.outcome
      · have zero : half.requested = 0 := by
          rcases reason with ⟨bytes, received, some⟩ | noRoom
          · exact silent bytes received some
          · exact (requested_zero_iff produced.headroom plain).mpr noRoom
        rw [zero, List.length_eq_zero_iff] at length
        rw [nothing, grown, length, List.map_nil]
      · exact contents

def awaiting (sink : SinkAdapter StringData) : FileDescriptorIo StringData :=
  { FileDescriptorIo.create none (fun _ => sink) (fun _ => ⟨[], 0⟩) with
    events := EventLoop.Read, readSink := some 0 }

theorem readHalf_appends_iff_fresh :
    ∃ half, (awaiting { data := [] }).readHalf ⟨.ok 2, .ok [2#8, 3#8], true⟩ = .ok half ∧
      (AppendsRead (awaiting { data := [] }) half 0 2 ↔
        PlainRead { data := ([] : StringData) } ⟨.ok 2, .ok [2#8, 3#8], true⟩ 2) :=
  ⟨_, rfl, readHalf_appends_iff rfl rfl rfl⟩

/-- Every read half appends what was read and asks for no more than there is. -/
def ReadsAppend : Prop :=
  ∀ (io : FileDescriptorIo StringData) (call : ReadCall) (half : ReadHalf Handler StringData)
    (id : SinkId) (available : Nat), io.readHalf call = .ok half → io.readSink = some id →
    call.available = .ok available → AppendsRead io half id available

/-- A dynamic sink that already holds a byte is asked for three more where two are available. -/
theorem readHalf_reused_sink : ¬ReadsAppend := by
  intro appends
  have wrong := appends (awaiting { data := [1#8] }) ⟨.ok 2, .ok [2#8, 3#8], true⟩ _ 0 2 rfl rfl rfl
  exact absurd wrong.2 (by decide)

end Endpoint

end Hlib
