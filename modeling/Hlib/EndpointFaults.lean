import Hlib.FileDescriptorIo
import Hlib.Socket

namespace Hlib

open FlagMask (Meets)
open EventLoop (Read Write)

def OwnAssertion (fault : Fault) : Prop := fault = .nullSink ∨ fault = .emptyQueue

theorem assertion_foreign : ¬OwnAssertion .assertion := by simp [OwnAssertion]

theorem terminate_foreign : ¬OwnAssertion .terminate := by simp [OwnAssertion]

theorem outOfBounds_foreign : ¬OwnAssertion .outOfBounds := by simp [OwnAssertion]

namespace EventLoop

variable {κ : Type} (loop : EventLoop κ)

theorem add_avoids (fd : Fd) (events : Events) (callback : κ) (ctl : Option Errno) :
    Avoids OwnAssertion (loop.add fd events callback ctl) := by
  unfold add
  refine (avoids_require assertion_foreign).bind fun _ _ => ?_
  refine (avoids_require assertion_foreign).bind fun _ _ => ?_
  split <;> exact avoids_ok _

theorem modify_avoids (fd : Fd) (events : Events) :
    Avoids OwnAssertion (loop.modify fd events) := by
  unfold modify
  refine (avoids_require assertion_foreign).bind fun _ _ => ?_
  split <;> exact avoids_ok _

theorem remove_avoids (fd : Fd) : Avoids OwnAssertion (loop.remove fd) := by
  unfold remove
  split
  · exact avoids_ok _
  · refine (avoids_require assertion_foreign).bind fun _ _ => ?_
    exact (avoids_require assertion_foreign).bind fun _ _ => avoids_ok _

end EventLoop

namespace Endpoint

variable {κ T : Type} (io : Endpoint κ T)

theorem updateEventsLocked_avoids (events : Events) :
    Avoids OwnAssertion (io.updateEventsLocked events) := by
  unfold updateEventsLocked
  split
  · refine (EventLoop.modify_avoids _ _ _).bind fun result _ => ?_
    cases result with
    | error errno => exact avoids_error terminate_foreign
    | ok loop => exact avoids_ok _
  · exact avoids_ok _

theorem updated_avoids (c : Prop) [Decidable c] (events : Events) :
    Avoids OwnAssertion (if c then io.updateEventsLocked events else .ok io) := by
  split
  · exact updateEventsLocked_avoids _ _
  · exact avoids_ok _

theorem read_avoids (sink : Option SinkId) (callback : Bool) :
    Avoids OwnAssertion (io.read sink callback) := by
  exact (updated_avoids io _ _).bind fun _ _ => avoids_ok _

theorem write_avoids (source : SourceId) (callback : Bool) :
    Avoids OwnAssertion (io.write source callback) := by
  exact updated_avoids _ _ _

theorem close_avoids : Avoids OwnAssertion io.close := by
  unfold close
  split
  · exact avoids_ok _
  · refine Avoids.bind ?_ fun _ _ => avoids_ok _
    unfold withWeakPtrLocked
    split
    · exact avoids_ok _
    · exact (EventLoop.remove_avoids _ _).bind fun _ _ => avoids_ok _

theorem attach_avoids (fd : Fd) (events : Events) (callback : κ) (ctl : Option Errno) :
    Avoids OwnAssertion (io.attach fd events callback ctl) := by
  unfold attach
  split
  · exact avoids_ok _
  · refine (EventLoop.add_avoids _ _ _ _ _).bind fun result _ => ?_
    cases result with
    | error errno => exact avoids_error terminate_foreign
    | ok loop => exact avoids_ok _

theorem completeRead_avoids : Avoids OwnAssertion io.completeRead :=
  (updateEventsLocked_avoids io _).bind fun _ _ => avoids_ok _

theorem writeHalf_avoids_iff (call : Result Nat) :
    Avoids OwnAssertion (io.writeHalf call) ↔ io.writeQueue ≠ [] := by
  unfold writeHalf
  cases queued : io.writeQueue with
  | nil => exact iff_of_false (fun avoids => avoids _ rfl (Or.inr rfl)) (by simp)
  | cons front rest =>
    refine iff_of_true ?_ (by simp)
    refine Avoids.bind ((avoids_require assertion_foreign).bind fun _ _ => avoids_ok _) fun _ _ => ?_
    refine Avoids.bind ((avoids_require assertion_foreign).bind fun _ _ => avoids_ok _) fun _ _ => ?_
    cases call with
    | error errno => exact avoids_ok _
    | ok size =>
      refine Avoids.bind (Avoids.bind ((avoids_require assertion_foreign).bind
        fun _ _ => avoids_ok _) fun _ _ => avoids_ok _) fun _ _ => ?_
      refine Avoids.bind ((avoids_require assertion_foreign).bind fun _ _ => avoids_ok _) fun _ _ => ?_
      split
      · exact (updated_avoids _ _ _).bind fun _ _ => avoids_ok _
      · exact avoids_ok _

end Endpoint

section Sink

variable {T : Type} [SinkData T] (sink : SinkAdapter T)

theorem SinkAdapter.resize_avoids (size : Nat) (alloc : Bool) :
    Avoids OwnAssertion (sink.resize size alloc) := by
  refine Avoids.bind ?_ fun _ _ => avoids_ok _
  intro fault h
  rw [SinkData.resize_fault h]
  exact terminate_foreign

theorem SinkAdapter.headroom_avoids (limit : Nat) : Avoids OwnAssertion (sink.headroom limit) := by
  unfold headroom
  split
  · exact avoids_ok _
  · exact (avoids_require assertion_foreign).bind fun _ _ => avoids_ok _

theorem SinkAdapter.produce_avoids (size : Nat) (alloc : Bool) :
    Avoids OwnAssertion (sink.produce size alloc) :=
  (avoids_require assertion_foreign).bind fun _ _ =>
    (sink.resize_avoids _ alloc).bind fun _ _ => avoids_ok _

theorem SinkAdapter.store_avoids (offset : Nat) (bytes : List Byte) :
    Avoids OwnAssertion (sink.store offset bytes) := by
  refine Avoids.bind ?_ fun _ _ => avoids_ok _
  intro fault h
  rw [SinkData.store_fault h]
  exact outOfBounds_foreign

theorem Endpoint.readHalf_avoids_iff {κ : Type} (io : Endpoint κ T) (call : ReadCall) :
    Avoids OwnAssertion (io.readHalf call) ↔ io.readSink ≠ none := by
  unfold readHalf
  cases pending : io.readSink with
  | none => exact iff_of_false (fun avoids => avoids _ rfl (Or.inl rfl)) (by simp)
  | some id =>
    refine iff_of_true ?_ (by simp)
    cases call.available with
    | error errno => exact avoids_ok _
    | ok available =>
      refine (SinkAdapter.headroom_avoids _ _).bind fun _ _ => ?_
      refine (SinkAdapter.produce_avoids _ _ _).bind fun produced _ => ?_
      rcases produced with ⟨_ | ptr, grown⟩
      · exact avoids_ok _
      · cases call.received with
        | error errno => exact avoids_ok _
        | ok bytes =>
          dsimp only
          split
          · exact (completeRead_avoids _).bind fun _ _ => avoids_ok _
          · refine (SinkAdapter.store_avoids _ _ _).bind fun _ _ => ?_
            refine (SinkAdapter.resize_avoids _ _ _).bind fun _ _ => ?_
            split
            · exact (completeRead_avoids _).bind fun _ _ => avoids_ok _
            · exact avoids_ok _

end Sink

section Perform

variable {T : Type}

theorem FileDescriptorIo.perform_avoids (call : Call) (io : FileDescriptorIo T) :
    Avoids OwnAssertion (perform call io) := by
  cases call with
  | read sink callback => exact Endpoint.read_avoids _ _ _
  | write source callback => exact Endpoint.write_avoids _ _ _
  | «open» fd ctl socketError =>
    refine Avoids.bind ?_ fun _ _ => avoids_ok _
    refine (Endpoint.close_avoids _).bind fun _ _ => ?_
    exact (Endpoint.attach_avoids _ _ _ _ _).bind fun _ _ => avoids_ok _
  | close => exact Endpoint.close_avoids _

theorem Socket.close_avoids (socket : Socket T) : Avoids OwnAssertion socket.close :=
  (Endpoint.close_avoids _).bind fun _ _ => avoids_ok _

theorem Socket.perform_avoids (call : Call) (socket : Socket T) :
    Avoids OwnAssertion (perform call socket) := by
  cases call with
  | read sink callback => exact Endpoint.read_avoids _ _ _
  | write source callback => exact Endpoint.write_avoids _ _ _
  | «open» fd ctl socketError =>
    refine Avoids.bind ?_ fun _ _ => avoids_ok _
    refine (Socket.close_avoids _).bind fun _ _ => ?_
    refine (Endpoint.attach_avoids _ _ _ _ _).bind fun attached _ => ?_
    rcases attached with ⟨_ | _, opened⟩ <;> exact avoids_ok _
  | close => exact Socket.close_avoids _

end Perform

section Handlers

variable {T : Type} {perform : Call → Endpoint Handler T → Checked (Endpoint Handler T)}
  (avoids : ∀ call io, Avoids OwnAssertion (perform call io))

include avoids

theorem runCallback_avoids (present : Bool) (calls : List Call) (io : Endpoint Handler T) :
    Avoids OwnAssertion (runCallback perform present calls io) := by
  unfold runCallback runCalls
  split
  · induction calls generalizing io with
    | nil => exact avoids_ok _
    | cons call calls ih =>
      rw [List.foldlM_cons]
      exact (avoids call io).bind fun after _ => ih after
  · exact avoids_ok _

theorem callbackAndClose_avoids (calls : List Call) (error : Errno) (io : Endpoint Handler T) :
    Avoids OwnAssertion (callbackAndClose perform calls error io) :=
  (runCallback_avoids avoids _ calls io).bind fun _ _ =>
    (avoids .close _).bind fun _ _ => avoids_ok _

theorem onEventWrite_avoids_iff (events : Events) (b : Behaviour) (io : Endpoint Handler T) :
    Avoids OwnAssertion (onEventWrite perform events b io) ↔
      (Meets Write events → io.writeQueue ≠ []) := by
  unfold onEventWrite
  split
  next asked =>
    rw [← Endpoint.writeHalf_avoids_iff io b.write]
    constructor
    · exact fun whole _ => whole.left
    · intro half
      refine (half asked).bind fun half _ => ?_
      split
      · exact avoids_ok _
      · exact (runCallback_avoids avoids _ _ _).bind fun _ _ => avoids_ok _
      · exact callbackAndClose_avoids avoids _ _ _
  next unasked => exact iff_of_true (avoids_ok _) (fun asked => absurd asked unasked)

theorem onEventRead_avoids_iff [SinkData T] (events : Events) (b : Behaviour)
    (io : Endpoint Handler T) :
    Avoids OwnAssertion (onEventRead perform events b io) ↔
      (Meets Read events → io.readSink ≠ none) := by
  unfold onEventRead
  split
  next asked =>
    rw [← Endpoint.readHalf_avoids_iff io b.read]
    constructor
    · exact fun whole _ => whole.left
    · intro half
      refine (half asked).bind fun half _ => ?_
      split
      · exact avoids_ok _
      · exact (runCallback_avoids avoids _ _ _).bind fun _ _ => avoids_ok _
      · refine (runCallback_avoids avoids _ _ _).bind fun _ _ => ?_
        exact (callbackAndClose_avoids avoids _ _ _).bind fun _ _ => avoids_ok _
      · exact callbackAndClose_avoids avoids _ _ _
  next unasked => exact iff_of_true (avoids_ok _) (fun asked => absurd asked unasked)

end Handlers

end Hlib
