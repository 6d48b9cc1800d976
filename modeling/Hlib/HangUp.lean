import Hlib.UntilClose

namespace Hlib

open FlagMask (Meets)
open EventLoop (Read Write Error Hup)

theorem SinkAdapter.headroom_room {T : Type} [SinkData T] {sink : SinkAdapter T} {limit headroom : Nat}
    (h : sink.headroom limit = .ok headroom) (some : 0 < limit) : 0 < sink.size + headroom := by
  unfold SinkAdapter.headroom at h
  split at h
  next =>
    cases h
    omega
  next bounded =>
    obtain ⟨_, within, h⟩ := bind_ok h
    have size_le := require_ok within
    cases h
    omega

/-- Data that there is goes into the sink as far as there is room, and no pointer is taken for null. -/
theorem Endpoint.readHalf_delivers {T : Type} [SinkData T] {io : Endpoint Handler T} {call : ReadCall}
    {half : ReadHalf Handler T} {id : SinkId} {bytes : List Byte} (hr : io.readHalf call = .ok half)
    (pending : io.readSink = some id) (fionread : call.available = .ok bytes.length)
    (received : call.received = .ok bytes) (available : bytes ≠ []) :
    ∃ headroom, (io.sinks id).headroom bytes.length = .ok headroom ∧
      (half.io.sinks id).contents = (io.sinks id).contents ++ (bytes.take headroom).map some ∧
      (half.outcome = .more ∧ (half.io.sinks id).full = false ∨
        half.outcome = .eof id io.readCallback ∨ half.outcome = .full id io.readCallback) := by
  obtain ⟨headroom, grown, hh, hg, pointer⟩ := readHalf_pointer hr pending fionread received
  obtain ⟨id', pending', ⟨_, failed, _⟩ | ⟨count, sink, fionread', produced, after⟩⟩ := readHalf_ok hr
  · cases fionread.symm.trans failed
  · cases pending.symm.trans pending'
    cases fionread.symm.trans fionread'
    cases hh.symm.trans produced.headroom
    have kept : half.io.sinks id = sink :=
      readHalf_sinks (after.imp (fun plain => plain.2) (fun completed => completed.2))
    have went : ∀ errno, half.outcome ≠ .failed errno := by
      obtain ⟨null, _⟩ | ⟨_, ⟨_, eof⟩ | ⟨_, went⟩⟩ := pointer
      · -- there is a byte at least behind the pointer
        have size := (SinkAdapter.resize_ok hg).2.1
        have room := SinkAdapter.headroom_room hh (List.length_pos_iff.mpr available)
        have none : grown.size = 0 := congrArg List.length (SinkData.null_contents null)
        omega
      · rw [eof]
        exact fun _ => nofun
      · exact went
    refine ⟨half.requested, hh, ?_⟩
    rw [kept]
    obtain ⟨_, ⟨junk, contents, length⟩, silent, ended⟩ | ⟨_, ⟨bytes', received', taken⟩, contents, ended⟩ :=
      produced.outcome
    · have zero := silent bytes received available
      rw [zero, List.length_eq_zero_iff] at length
      refine ⟨?_, Or.inr (Or.inl (ended.resolve_left fun ⟨errno, failed⟩ => went errno failed))⟩
      rw [contents, zero, length]
      rfl
    · cases received.symm.trans received'
      refine ⟨by rw [contents, taken], ?_⟩
      obtain ⟨notFull, more⟩ | ⟨_, full⟩ := ended
      · exact Or.inl ⟨more, notFull⟩
      · exact Or.inr (Or.inr full)

namespace Implementation

variable {T : Type} [SinkData T] {io : Endpoint Handler T} {fd : Fd} {events : Events} {b : Behaviour}
  {id : SinkId} {bytes : List Byte} {reached : Reached T}

/-- Where an object is about to close, its sink has what there was and was room for, and if the sink
is full the read is complete. -/
structure DeliversFirst (io : Endpoint Handler T) (id : SinkId) (bytes : List Byte)
    (reached : Reached T) : Prop where
  appended : ∃ headroom, (io.sinks id).headroom bytes.length = .ok headroom ∧
    (reached.io.sinks id).contents = (io.sinks id).contents ++ (bytes.take headroom).map some
  completed : (reached.io.sinks id).full = true →
    reached.completed = some id ∧ (io.readCallback = true → .onRead id ∈ reached.notices)

theorem readReached_delivers (kind : Implementation) (asked : Meets Read events)
    (pending : io.readSink = some id) (fionread : b.read.available = .ok bytes.length)
    (received : b.read.received = .ok bytes) (available : bytes ≠ [])
    (h : readReached kind.perform events b io = .ok reached) : DeliversFirst io id bytes reached := by
  unfold readReached at h
  rw [if_pos asked] at h
  obtain ⟨half, hr, h⟩ := bind_ok h
  obtain ⟨headroom, hh, contents, outcome⟩ :=
    Endpoint.readHalf_delivers hr pending fionread received available
  have finished : ∀ {called : Endpoint Handler T} {error : Option Errno},
      runCallback kind.perform io.readCallback b.onRead half.io = .ok called →
        DeliversFirst io id bytes ⟨called, if io.readCallback then [.onRead id] else [], some id, error⟩ := by
    intro called error hc
    refine ⟨⟨headroom, hh, ?_⟩, fun _ => ⟨rfl, ?_⟩⟩
    · show (called.sinks id).contents = _
      rw [(runCallback_kept kind hc).1]
      exact contents
    · intro callback
      rw [callback]
      exact List.mem_singleton.mpr rfl
  obtain ⟨more, notFull⟩ | eof | full := outcome
  · rw [more] at h
    cases h
    refine ⟨⟨headroom, hh, contents⟩, ?_⟩
    intro isFull
    cases notFull.symm.trans isFull
  · rw [eof] at h
    obtain ⟨called, hc, h⟩ := bind_ok h
    cases h
    exact finished hc
  · rw [full] at h
    obtain ⟨called, hc, h⟩ := bind_ok h
    cases h
    exact finished hc

/-- Later parts of a handler leave a delivery as it is. -/
theorem DeliversFirst.later {part : Endpoint Handler T → Checked (Reached T)} {reached' : Reached T}
    (h : DeliversFirst io id bytes reached)
    (keep : ∀ {next}, part reached.io = .ok next → Kept reached.io next.io)
    (hp : reached.andThen part = .ok reached') : DeliversFirst io id bytes reached' := by
  unfold Reached.andThen at hp
  split at hp
  next =>
    cases hp
    exact h
  next =>
    obtain ⟨next, hn, hp⟩ := bind_ok hp
    cases hp
    have sinks := (keep hn).1
    refine ⟨?_, ?_⟩
    · show ∃ headroom, _ ∧ (next.io.sinks id).contents = _
      rw [sinks]
      exact h.appended
    · intro full
      have full : (next.io.sinks id).full = true := full
      rw [sinks] at full
      obtain ⟨completed, called⟩ := h.completed full
      refine ⟨?_, fun callback => List.mem_append_left _ (called callback)⟩
      show reached.completed.or next.completed = _
      rw [completed]
      rfl

/-- Data that comes with a hang-up is delivered before the close callback by a `FileDescriptorIo`, and
never by a `Socket`. -/
theorem deliversFirst_iff (kind : Implementation) (io : Endpoint Handler T) (fd : Fd) (events : Events)
    (b : Behaviour) (id : SinkId) (bytes : List Byte) (reached : Reached T) (asked : Meets Read events)
    (hungUp : Meets (Error ||| Hup) events) (pending : io.readSink = some id) (available : bytes ≠ [])
    (fionread : b.read.available = .ok bytes.length) (received : b.read.received = .ok bytes)
    (h : kind.untilClose fd events b io = .ok reached) :
    DeliversFirst io id bytes reached ↔ kind = .fileDescriptorIo := by
  cases kind with
  | fileDescriptorIo =>
    refine iff_of_true ?_ rfl
    obtain ⟨_, _, h⟩ := bind_ok h
    obtain ⟨read, hr, h⟩ := bind_ok h
    obtain ⟨written, hw, h⟩ := bind_ok h
    have first := readReached_delivers .fileDescriptorIo asked pending fionread received available hr
    have second := first.later (fun hn => (writeReached_kept .fileDescriptorIo hn).1) hw
    refine second.later ?_ h
    intro next hn
    cases hn
    exact ⟨rfl, rfl⟩
  | socket =>
    refine iff_of_false ?_ nofun
    obtain ⟨_, _, h⟩ := bind_ok h
    obtain ⟨_, _, h⟩ := bind_ok h
    rw [if_pos hungUp] at h
    cases h
    rintro ⟨⟨headroom, hh, appended⟩, completed⟩
    have nothing : (bytes.take headroom).map some = ([] : List Cell) :=
      List.append_right_eq_self.mp appended.symm
    have zero : headroom = 0 :=
      (List.take_eq_nil_iff.mp (List.map_eq_nil_iff.mp nothing)).resolve_right available
    have count := List.length_pos_iff.mpr available
    have full : (io.sinks id).full = true := by
      unfold SinkAdapter.headroom at hh
      split at hh
      next =>
        cases hh
        omega
      next bounded =>
        obtain ⟨_, within, hh⟩ := bind_ok hh
        have size_le := require_ok within
        cases hh
        refine decide_eq_true (Or.inr ?_)
        omega
    cases (completed full).1

/-- An open object that waits for data on descriptor 5. -/
def waiting (sink : SinkAdapter T) : Endpoint Handler T :=
  { eventLoop := none, fd := 5, armed := true, closeCallback := true, events := Read, readSink := some 0,
    readCallback := true, sinks := fun _ => sink, sources := fun _ => ⟨[], 0⟩ }

def lastBytes : Behaviour where
  read := ⟨.ok 2, .ok [2#8, 3#8], true⟩
  write := .ok 0

theorem deliversFirst_iff_sample :
    ∃ reached, fileDescriptorIo.untilClose 5 (Read ||| Hup) lastBytes (waiting { data := ([] : StringData) }) =
        .ok reached ∧
      (DeliversFirst (waiting { data := ([] : StringData) }) 0 [2#8, 3#8] reached ↔
        fileDescriptorIo = .fileDescriptorIo) :=
  ⟨_, rfl, deliversFirst_iff .fileDescriptorIo _ 5 (Read ||| Hup) lastBytes 0 _ _ (by decide) (by decide) rfl
    (List.cons_ne_nil _ _) rfl rfl rfl⟩

/-- Two bytes and a hang-up in one event: a `Socket` closes with an empty sink. -/
theorem socket_loses_data :
    ∃ reached, socket.untilClose 5 (Read ||| Hup) lastBytes (waiting { data := ([] : StringData) }) = .ok reached ∧
      reached.error = some 0 ∧
      (reached.io.sinks 0).contents = [] ∧ reached.notices = [] ∧
      ¬DeliversFirst (waiting { data := ([] : StringData) }) 0 [2#8, 3#8] reached := by
  refine ⟨_, rfl, rfl, rfl, rfl, ?_⟩
  rintro ⟨⟨headroom, hh, appended⟩, _⟩
  cases hh
  cases appended

end Implementation

end Hlib
