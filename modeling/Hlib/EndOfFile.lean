import Hlib.HangUp

namespace Hlib

open FlagMask (Meets)
open EventLoop (Read Write Error Hup)

/-- To resize an empty `T` to no size gives it no pointer, and takes none. -/
class NullData (T : Type) extends SinkData T where
  resize_null : ∀ {t alloc t'}, contents t = [] → resize t 0 alloc = .ok t' → null t' = null t

instance : NullData BufferData where
  resize_null {b alloc b'} _ h := by
    obtain ⟨_, _, h⟩ := bind_ok h
    cases h
    have within : b.1.resize 0 alloc = _ := Buffer.resize_within (Nat.zero_le _)
    show decide ((b.1.resize 0 alloc).2.data = none) = decide (b.1.data = none)
    rw [within]

instance : NullData StringData where
  resize_null _ _ := rfl

namespace Implementation

variable {T : Type} [NullData T] {io : Endpoint Handler T} {fd : Fd} {events : Events} {b : Behaviour}
  {id : SinkId} {reached : Reached T}

/-- There is nothing in the sink, and no pointer to it. -/
def Pointless (sink : SinkAdapter T) : Prop :=
  sink.contents = [] ∧ SinkData.null sink.data = true

/-- A sink that is to grow by nothing that there is has a null pointer just when it had. -/
theorem pointless_iff {sink grown : SinkAdapter T} {headroom : Nat} {alloc : Bool}
    (hh : sink.headroom 0 = .ok headroom) (hg : sink.resize (sink.size + headroom) alloc = .ok grown) :
    SinkData.null grown.data = true ↔ Pointless sink := by
  by_cases empty : sink.contents = []
  · have size : sink.size = 0 := congrArg List.length empty
    have zero : headroom = 0 := by
      unfold SinkAdapter.headroom at hh
      split at hh
      next =>
        cases hh
        omega
      next =>
        obtain ⟨_, _, hh⟩ := bind_ok hh
        cases hh
        omega
    rw [size, zero] at hg
    obtain ⟨data, hd, hg⟩ := bind_ok hg
    cases hg
    rw [show SinkData.null data = SinkData.null sink.data from NullData.resize_null empty hd]
    exact ⟨fun null => ⟨empty, null⟩, fun pointless => pointless.2⟩
  · refine iff_of_false ?_ fun pointless => empty pointless.1
    intro null
    have size := (SinkAdapter.resize_ok hg).2.1
    have none : grown.size = 0 := congrArg List.length (SinkData.null_contents null)
    have some : 0 < sink.size := List.length_pos_iff.mpr empty
    omega

/-- At the end of file the read half goes to `callbackAndClose` with what the sink's pointer tells. -/
theorem readReached_ends (kind : Implementation) (asked : Meets Read events) (pending : io.readSink = some id)
    (fionread : b.read.available = .ok 0) (received : b.read.received = .ok [])
    (h : readReached kind.perform events b io = .ok reached) :
    reached.io.closeCallback = io.closeCallback ∧
      (Pointless (io.sinks id) ∧ reached.error = some 12 ∧ reached.notices = [] ∨
        ¬Pointless (io.sinks id) ∧ reached.error = some 0 ∧
          reached.notices = if io.readCallback then [.onRead id] else []) := by
  unfold readReached at h
  rw [if_pos asked] at h
  obtain ⟨half, hr, h⟩ := bind_ok h
  obtain ⟨headroom, grown, hh, hg, pointer⟩ := Endpoint.readHalf_pointer hr pending fionread received
  have kept : half.io.closeCallback = io.closeCallback := by
    obtain ⟨_, _, ⟨_, _, rfl⟩ | ⟨_, _, _, _, ⟨_, same⟩ | ⟨_, completed⟩⟩⟩ := Endpoint.readHalf_ok hr
    · rfl
    · rw [same]
    · obtain ⟨_, same, _⟩ := Endpoint.completeRead_ok completed
      rw [same]
  rw [pointless_iff hh hg] at pointer
  obtain ⟨null, failed⟩ | ⟨null, ⟨_, eof⟩ | ⟨some, _⟩⟩ := pointer
  · rw [failed] at h
    cases h
    exact ⟨kept, Or.inl ⟨null, rfl, rfl⟩⟩
  · rw [eof] at h
    obtain ⟨called, hc, h⟩ := bind_ok h
    cases h
    refine ⟨(runCallback_kept kind hc).2.trans kept, Or.inr ⟨?_, rfl, rfl⟩⟩
    rw [← pointless_iff hh hg, null]
    exact Bool.false_ne_true
  · exact absurd List.take_nil some

omit [NullData T] in
theorem andThen_error {error : Errno} (h : reached.error = some error)
    (part : Endpoint Handler T → Checked (Reached T)) : reached.andThen part = .ok reached := by
  rw [Reached.andThen, h]

theorem untilClose_ends (kind : Implementation) (asked : Meets Read events)
    (calm : ¬Meets (Error ||| Hup) events) (pending : io.readSink = some id)
    (fionread : b.read.available = .ok 0) (received : b.read.received = .ok [])
    (h : kind.untilClose fd events b io = .ok reached) :
    readReached kind.perform events b io = .ok reached := by
  cases kind with
  | fileDescriptorIo =>
    obtain ⟨_, _, h⟩ := bind_ok h
    obtain ⟨read, hr, h⟩ := bind_ok h
    obtain ⟨written, hw, h⟩ := bind_ok h
    obtain ⟨error, ends⟩ : ∃ error, read.error = some error := by
      obtain ⟨_, ⟨_, ends, _⟩ | ⟨_, ends, _⟩⟩ :=
        readReached_ends .fileDescriptorIo asked pending fionread received hr
      · exact ⟨_, ends⟩
      · exact ⟨_, ends⟩
    rw [andThen_error ends] at hw
    cases hw
    rw [andThen_error ends] at h
    cases h
    exact hr
  | socket =>
    obtain ⟨_, _, h⟩ := bind_ok h
    obtain ⟨_, _, h⟩ := bind_ok h
    rw [if_neg calm] at h
    obtain ⟨read, hr, h⟩ := bind_ok h
    obtain ⟨error, ends⟩ : ∃ error, read.error = some error := by
      obtain ⟨_, ⟨_, ends, _⟩ | ⟨_, ends, _⟩⟩ := readReached_ends .socket asked pending fionread received hr
      · exact ⟨_, ends⟩
      · exact ⟨_, ends⟩
    rw [andThen_error ends] at h
    cases h
    exact hr

omit [NullData T] in
theorem finish_notices {perform : Call → Endpoint Handler T → Checked (Endpoint Handler T)}
    {calls : List Call} {error : Errno} {handled : Handled T} (ends : reached.error = some error)
    (h : reached.finish perform calls = .ok handled) :
    handled.notices = reached.notices ++ if reached.io.closeCallback then [.onClose error] else [] := by
  unfold Reached.finish at h
  rw [ends] at h
  obtain ⟨closed, hc, h⟩ := bind_ok h
  cases h
  obtain ⟨_, _, hc⟩ := bind_ok hc
  obtain ⟨_, _, hc⟩ := bind_ok hc
  cases hc
  rfl

/-- The read callback with the sink, and then the close callback with no error. -/
def ReportsEnd (io : Endpoint Handler T) (id : SinkId) (handled : Handled T) : Prop :=
  handled.notices = (if io.readCallback then [.onRead id] else []) ++
    if io.closeCallback then [.onClose 0] else []

/-- An orderly end of file is reported as such, unless the sink is empty, has no pointer, and there is
a callback to be told. -/
theorem reportsEnd_iff (kind : Implementation) (io : Endpoint Handler T) (fd : Fd) (events : Events)
    (b : Behaviour) (id : SinkId) (handled : Handled T) (asked : Meets Read events)
    (calm : ¬Meets (Error ||| Hup) events) (pending : io.readSink = some id)
    (fionread : b.read.available = .ok 0) (received : b.read.received = .ok [])
    (h : kind.onEvent fd events b io = .ok handled) :
    ReportsEnd io id handled ↔
      (Pointless (io.sinks id) → io.readCallback = false ∧ io.closeCallback = false) := by
  rw [onEvent_untilClose] at h
  obtain ⟨reached, hu, h⟩ := bind_ok h
  have hr := untilClose_ends kind asked calm pending fionread received hu
  obtain ⟨kept, ⟨null, ends, notices⟩ | ⟨pointer, ends, notices⟩⟩ :=
    readReached_ends kind asked pending fionread received hr
  · have told := finish_notices ends h
    rw [notices, kept, List.nil_append] at told
    unfold ReportsEnd
    rw [told]
    simp only [null, forall_const]
    cases io.readCallback with
    | true =>
      refine iff_of_false ?_ nofun
      cases io.closeCallback <;> nofun
    | false =>
      cases io.closeCallback with
      | true => exact iff_of_false (by simp) nofun
      | false => exact iff_of_true rfl ⟨rfl, rfl⟩
  · have told := finish_notices ends h
    rw [notices, kept] at told
    exact iff_of_true told fun null => absurd null pointer

def lastRead : Behaviour where
  read := ⟨.ok 0, .ok [], true⟩
  write := .ok 0

theorem reportsEnd_iff_sample :
    ∃ handled, socket.onEvent 5 Read lastRead (waiting { data := ([] : StringData) }) = .ok handled ∧
      (ReportsEnd (waiting { data := ([] : StringData) }) 0 handled ↔
        (Pointless { data := ([] : StringData) } → true = false ∧ true = false)) :=
  ⟨_, rfl, reportsEnd_iff .socket _ 5 Read lastRead 0 _ (by decide) (by decide) rfl rfl rfl rfl⟩

/-- A sink with a buffer that is empty makes `ENOMEM` of the end of file, and its read is not completed. -/
theorem end_without_memory :
    ∃ handled, socket.onEvent 5 Read lastRead (waiting { data := (⟨{}, Buffer.valid_empty⟩ : BufferData) }) =
        .ok handled ∧
      handled.notices = [.onClose 12] ∧
      ¬ReportsEnd (waiting { data := (⟨{}, Buffer.valid_empty⟩ : BufferData) }) 0 handled := by
  refine ⟨_, rfl, rfl, ?_⟩
  intro reports
  cases reports

end Implementation

end Hlib
