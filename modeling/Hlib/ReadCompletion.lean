import Hlib.EndpointTable
import Hlib.Handlers

namespace Hlib

open Function (update update_self)
open FlagMask (Meets)
open EventLoop (Read Write)

namespace Endpoint

variable {κ T : Type} [SinkData T] {io : Endpoint κ T} {call : ReadCall}

/-- The system delivers data, there is memory for it, and the data leaves the sink full. -/
def Completes (io : Endpoint κ T) (call : ReadCall) : Prop :=
  ∃ id available headroom bytes grown, io.readSink = some id ∧ call.available = .ok available ∧
    (io.sinks id).headroom available = .ok headroom ∧ call.received = .ok bytes ∧
    (io.sinks id).resize ((io.sinks id).size + headroom) call.alloc = .ok grown ∧
    bytes.take headroom ≠ [] ∧
    ((io.sinks id).maximum = 0 ∨
      (io.sinks id).size + (bytes.take headroom).length = (io.sinks id).maximum)

theorem completes_of_full {half : ReadHalf κ T} (h : io.readHalf call = .ok half) {id : SinkId}
    {callback : Bool} (full : half.outcome = .full id callback) : Completes io call := by
  obtain ⟨id', pending, ⟨_, _, rfl⟩ | ⟨available, sink, fionread, produced, _⟩⟩ := readHalf_ok h
  · cases full
  · obtain ⟨_, _, _, ⟨_, failed⟩ | ended⟩ | ⟨some, ⟨bytes, received, taken⟩, contents, filled⟩ :=
      produced.outcome
    · cases full.symm.trans failed
    · cases full.symm.trans ended
    · obtain ⟨_, more⟩ | ⟨isFull, _⟩ := filled
      · cases full.symm.trans more
      · obtain ⟨grown, hg⟩ := produced.grown
        refine ⟨id', available, half.requested, bytes, grown, pending, fionread, produced.headroom,
          received, hg, taken ▸ some, ?_⟩
        have size_eq : sink.size = (io.sinks id').size + half.returned.length := by
          rw [SinkAdapter.size, contents, List.length_append, List.length_map]
          rfl
        rw [← taken, ← size_eq, ← produced.maximum]
        exact of_decide_eq_true isFull

theorem headroom_fits {sink : SinkAdapter T} {limit headroom : Nat}
    (h : sink.headroom limit = .ok headroom) :
    sink.maximum = 0 ∨ sink.size + headroom ≤ sink.maximum := by
  unfold SinkAdapter.headroom at h
  split at h
  next dynamic => exact Or.inl dynamic
  next =>
    obtain ⟨_, within, h⟩ := bind_ok h
    have size_le := require_ok within
    cases Except.ok.inj h
    right
    omega

theorem full_of_completes (h : Completes io call) (known : io.Known)
    (held : io.armed = true → io.fd ≠ -1) :
    ∃ half id, io.readHalf call = .ok half ∧ half.outcome = .full id io.readCallback := by
  obtain ⟨id, available, headroom, bytes, grown, pending, fionread, hh, received, hg, some, filled⟩ := h
  have fits := headroom_fits hh
  have count : (bytes.take headroom).length ≤ headroom := List.length_take_le _ _
  have positive := List.length_pos_iff.mpr some
  obtain ⟨maximum, grown_size, _⟩ := SinkAdapter.resize_ok hg
  have pointer : SinkData.null grown.data = false := by
    by_contra null
    have empty := SinkData.null_contents (eq_true_of_ne_false null)
    have none : grown.size = 0 := congrArg List.length empty
    omega
  have produced : (io.sinks id).produce headroom call.alloc =
      .ok (Option.some (io.sinks id).size, grown) := by
    rw [SinkAdapter.produce, require_of fits, ok_bind, hg, ok_bind, pointer]
    rfl
  obtain ⟨stored, cut, hs, hc, cut_maximum, cut_size⟩ := grown.store_resize_succeeds call.alloc
    (show (io.sinks id).size + (bytes.take headroom).length ≤ grown.size by omega)
  have isFull : cut.full = true := by
    rw [SinkAdapter.full, cut_maximum, cut_size, maximum]
    exact decide_eq_true filled
  obtain ⟨completed, hd⟩ : ∃ completed,
      ({ io with sinks := update io.sinks id cut } : Endpoint κ T).completeRead = .ok completed :=
    completeRead_succeeds known held
  refine ⟨⟨completed, .full id io.readCallback, headroom, bytes.take headroom⟩, id, ?_, rfl⟩
  unfold readHalf
  rw [pending]
  dsimp only
  rw [fionread]
  dsimp only
  rw [hh, ok_bind, produced, ok_bind, received]
  dsimp only
  rw [if_neg some, hs, ok_bind, hc, ok_bind, if_pos isFull, ← pending, hd, ok_bind]

end Endpoint

end Hlib
