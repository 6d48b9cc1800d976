import Hlib.FileDescriptorIoLink
import Hlib.Framing
import Hlib.SerialRoundTrip

namespace Hlib

open Transition (Run Restrict)
open Framing (Fit parts_eq rest_follows rest_eq)

namespace FileDescriptorIo

variable {T U : Type} [SinkData U] {eventLoop eventLoop' : Option (EventLoop Handler)}
  {sources unused' : SourceId → Source} {sinks : SinkId → SinkAdapter U} {unused : SinkId → SinkAdapter T}
  {l : Link T U}

theorem linked_received : Received sinks (linked eventLoop eventLoop' sources sinks unused unused') where
  taken := Nat.zero_le _
  distinct := List.nodup_nil
  pending _ none := by cases none
  dynamic _ none := by cases none
  maximum _ := rfl
  bounded _ none := absurd none List.not_mem_nil
  held := rfl

theorem held_unread (written : InOrder sources l.writer) (read : Received sinks l) :
    held l ++ (l.unread ++ left l.writer.state.io).map some =
      (contents sources l.writer.submitted).map some := by
  rw [read.held, ← List.map_append, ← List.append_assoc, Link.unread, List.take_append_drop,
    accepted_left written]

/-- All sinks but the last one are full. -/
def Filled (l : Link T U) : Prop :=
  ∀ before last, l.requested = before ++ [last] → ∀ sink ∈ before, (l.reader.io.sinks sink).full = true

/-- Each sink that was asked for is as large as the source written in its turn, which is not empty. -/
def Sized (sources : SourceId → Source) (sinks : SinkId → SinkAdapter U) (l : Link T U) : Prop :=
  ∀ (i : Nat) (sink : SinkId) (entry : SendTuple), l.requested[i]? = some sink →
    l.writer.submitted[i]? = some entry →
    (sinks sink).maximum = (sources entry.source).remaining.length ∧ (sources entry.source).remaining ≠ []

def parts (l : Link T U) (requested : List SinkId) : List (List Cell) :=
  requested.map fun sink => (l.reader.io.sinks sink).contents

def messages (sources : SourceId → Source) (entries : List SendTuple) : List (List Cell) :=
  entries.map fun entry => (sources entry.source).remaining.map some

theorem messages_flatten (entries : List SendTuple) :
    (messages sources entries).flatten = (contents sources entries).map some := by
  rw [contents, List.map_flatten, List.map_map]
  rfl

theorem messages_apply {entries : List SendTuple} {i : Nat} {entry : SendTuple}
    (submitted : entries[i]? = some entry) :
    (messages sources entries)[i]? = some ((sources entry.source).remaining.map some) := by
  rw [messages, List.getElem?_map, submitted]
  rfl

theorem held_split {before : List SinkId} {last : SinkId} (requested : l.requested = before ++ [last]) :
    held l = (parts l before).flatten ++ (l.reader.io.sinks last).contents := by
  rw [held, requested, List.map_append, List.flatten_append, List.map_singleton, List.flatten_singleton]
  rfl

theorem full_iff (received : Received sinks l) {sink : SinkId} {bytes : List Byte}
    (size : (sinks sink).maximum = bytes.length) (some : bytes ≠ []) :
    (l.reader.io.sinks sink).full = true ↔ (l.reader.io.sinks sink).contents.length = bytes.length := by
  have limited : bytes.length ≠ 0 := fun none => some (List.length_eq_zero_iff.mp none)
  rw [SinkAdapter.full, decide_eq_true_iff, received.maximum, size]
  exact or_iff_right limited

theorem parts_fit (received : Received sinks l) (filled : Filled l) (sized : Sized sources sinks l)
    {before : List SinkId} {last : SinkId} (requested : l.requested = before ++ [last]) :
    Fit (parts l before) (messages sources l.writer.submitted) := by
  intro i part message at_part at_message
  rw [parts, List.getElem?_map, Option.map_eq_some_iff] at at_part
  rw [messages, List.getElem?_map, Option.map_eq_some_iff] at at_message
  obtain ⟨sink, at_sink, rfl⟩ := at_part
  obtain ⟨entry, at_entry, rfl⟩ := at_message
  have inside : i < before.length := (List.getElem?_eq_some_iff.mp at_sink).1
  have asked : l.requested[i]? = some sink := by
    rw [requested, List.getElem?_append_left inside]
    exact at_sink
  obtain ⟨size, some⟩ := sized i sink entry asked at_entry
  have full := filled before last requested sink (List.mem_of_getElem? at_sink)
  rw [List.length_map]
  exact (full_iff received size some).mp full

/-- The sink asked for in a source's turn holds a beginning of it, and all of it where nothing is left
to be read. -/
theorem frame_prefix (written : InOrder sources l.writer) (received : Received sinks l) (filled : Filled l)
    (sized : Sized sources sinks l) {i : Nat} {sink : SinkId} {entry : SendTuple}
    (asked : l.requested[i]? = some sink) (submitted : l.writer.submitted[i]? = some entry) :
    (l.reader.io.sinks sink).contents <+: (sources entry.source).remaining.map some ∧
      (l.unread = [] → left l.writer.state.io = [] →
        (l.reader.io.sinks sink).contents = (sources entry.source).remaining.map some) := by
  have whole := held_unread written received
  have message : (messages sources l.writer.submitted)[i]? = _ := messages_apply submitted
  obtain none | ⟨before, last, requested⟩ := l.requested.eq_nil_or_concat
  · rw [none] at asked
    cases asked
  · rw [List.concat_eq_append] at requested
    have fit := parts_fit received filled sized requested
    rw [held_split requested, ← messages_flatten] at whole
    have within : (parts l before).flatten ++ (l.reader.io.sinks last).contents <+:
        (messages sources l.writer.submitted).flatten := ⟨_, whole⟩
    rw [requested] at asked
    by_cases inside : i < before.length
    · rw [List.getElem?_append_left inside] at asked
      have part : (parts l before)[i]? = some (l.reader.io.sinks sink).contents := by
        rw [parts, List.getElem?_map, asked]
        rfl
      have same := parts_eq within fit i _ _ part message
      exact ⟨same ▸ List.prefix_rfl, fun _ _ => same⟩
    · rw [List.getElem?_append_right (Nat.le_of_not_lt inside), List.getElem?_singleton] at asked
      split at asked
      next at_end =>
        cases asked
        obtain rfl : i = (parts l before).length := by
          rw [parts, List.length_map]
          omega
        have bound : (l.reader.io.sinks sink).contents.length ≤
            ((sources entry.source).remaining.map some).length := by
          obtain ⟨size, some⟩ := sized before.length sink entry (by rw [requested]; simp)
            (by rw [parts, List.length_map] at submitted; exact submitted)
          have fits := received.bounded sink (by rw [requested]; simp)
          rw [size] at fits
          rw [List.length_map]
          exact fits fun none => some (List.length_eq_zero_iff.mp none)
        refine ⟨rest_follows within fit message bound, ?_⟩
        intro read sent
        rw [read, sent, List.nil_append, List.map_nil, List.append_nil] at whole
        exact rest_eq whole fit message bound
      next => cases asked

variable [SinkData T] {labels : List LinkLabel} {l' : Link T U} {label : LinkLabel}

theorem linked_inOrder (run : Run LinkStep (linked eventLoop eventLoop' sources sinks unused unused') labels l) :
    InOrder sources l.writer := by
  induction run with
  | start => exact initial_inOrder eventLoop unused sources
  | next _ hs ih =>
    cases hs with
    | writer hd => exact delivery_step ih hd
    | request | received | other => exact ih

/-- The reader asks for a sink only once those before it are full. -/
def InTurn (l : Link T U) : LinkLabel → Prop
  | .reader (.read (some _) _) => ∀ earlier ∈ l.requested, (l.reader.io.sinks earlier).full = true
  | label => label.Unbroken

omit [SinkData T] in
theorem turn_unbroken (turn : InTurn l label) : label.Unbroken := by
  cases label with
  | writer => trivial
  | reader label =>
    cases label with
    | readHalf => exact turn
    | _ => trivial

def byteCall : ReadCall := ⟨.ok 1, .ok [7#8], true⟩

/-- A writer that sends a byte to a reader with room for it. -/
def byteLabels : List LinkLabel :=
  [.writer (.attach 5 none), .reader (.attach 6 none), .writer (.write 0 true), .reader (.read (some 0) true),
    .writer (.event EventLoop.Write), .writer .skip, .writer (.writeHalf (.ok 1)),
    .reader (.event EventLoop.Read), .reader (.readHalf byteCall)]

def noEvents : EventLoop Handler := ⟨fun _ => none, fun _ => none⟩

def byteStart : Link StringData StringData :=
  linked (some noEvents) (some noEvents) (fun _ => ⟨[7#8], 0⟩) (fun _ => ⟨1, []⟩) (fun _ => { data := [] })
    fun _ => ⟨[], 0⟩

theorem byteCall_gives : Gives [7#8] 1 byteCall where
  available := by
    intro n available
    cases available
    exact Nat.le_refl 1
  received := by
    intro bytes received
    cases received
    exact List.prefix_rfl
  ended := by
    intro none
    cases none

theorem byteCall_unbroken : LinkLabel.Unbroken (.reader (.readHalf byteCall)) := by
  intro n errno _ failed
  cases failed

theorem byte_run : ∃ l, Run (Restrict InTurn LinkStep) byteStart byteLabels l ∧
    l.requested = [0] ∧ l.writer.submitted = [⟨0, true⟩] ∧ l.unread = [] ∧ left l.writer.state.io = [] := by
  refine ⟨_, ((((((((Run.start.next ⟨trivial, .writer (.other trivial (.attach rfl rfl))⟩).next
    ⟨trivial, .other trivial (.attach rfl rfl)⟩).next ⟨trivial, .writer (.write (by decide) rfl)⟩).next
    ⟨fun _ none => absurd none List.not_mem_nil, .request (by decide) rfl rfl⟩).next
    ⟨trivial, .writer (.other trivial .event)⟩).next
    ⟨trivial, .writer (.other trivial (.readSkip (by decide)))⟩).next
    ⟨trivial, .writer (.completed rfl (by decide) rfl rfl rfl)⟩).next ⟨trivial, .other trivial .event⟩).next
    ⟨byteCall_unbroken, .received rfl (by decide) rfl ?_⟩, rfl, rfl, rfl, rfl⟩
  exact byteCall_gives

/-- However the calls and the events of the two ends interleave, as long as no `::read` fails: what the
sinks hold in the order in which they were to be filled, what is in the FIFO and what the queued sources
have left are, one after the other, the bytes of the sources in the order of the calls of `write`. -/
theorem nothing_lost
    (run : Run (Restrict (fun _ => LinkLabel.Unbroken) LinkStep)
      (linked eventLoop eventLoop' sources sinks unused unused') labels l) :
    held l ++ (l.unread ++ left l.writer.state.io).map some =
      (contents sources l.writer.submitted).map some :=
  held_unread (linked_inOrder (run.mono fun hs => hs.2))
    (run.invariant linked_received fun h hs => link_step h hs.1 hs.2)

theorem nothing_lost_byte : ∃ l : Link StringData StringData,
    Run (Restrict (fun _ => LinkLabel.Unbroken) LinkStep) byteStart byteLabels l ∧ held l = [some 7#8] := by
  obtain ⟨l, run, _, submitted, read, sent⟩ := byte_run
  have calm : Run (Restrict (fun _ => LinkLabel.Unbroken) LinkStep) byteStart byteLabels l :=
    run.mono fun hs => ⟨turn_unbroken hs.1, hs.2⟩
  have whole := nothing_lost calm
  rw [read, sent, submitted, List.nil_append, List.map_nil, List.append_nil] at whole
  exact ⟨l, calm, whole⟩

theorem filled_step (received : Received sinks l) (h : Filled l) (turn : InTurn l label)
    (hs : LinkStep l label l') : Filled l' := by
  cases hs with
  | writer => exact h
  | other apart hs =>
    intro before last requested
    rw [(apart_step apart hs).1]
    exact h before last requested
  | request _ _ hr =>
    obtain ⟨_, _, rfl, _⟩ := Endpoint.read_ok hr
    intro before last requested
    obtain ⟨rfl, _⟩ := List.append_inj' requested rfl
    exact turn
  | received stage asked hr gives =>
    obtain ⟨id, pending, _⟩ := Endpoint.readHalf_ok hr
    obtain ⟨sink, appended⟩ := readHalf_appended hr pending gives turn (received.dynamic id pending)
    intro before last requested
    obtain ⟨before', requested'⟩ := received.pending id pending
    obtain ⟨rfl, same⟩ := List.append_inj' (requested.symm.trans requested') rfl
    have distinct := received.distinct
    rw [requested', List.nodup_append] at distinct
    intro earlier member
    have apart := distinct.2.2 earlier member id (List.mem_singleton_self id)
    rw [appended.sinks, Function.update_of_ne apart]
    exact h before last requested earlier member

theorem linked_filled (run : Run (Restrict InTurn LinkStep)
    (linked eventLoop eventLoop' sources sinks unused unused') labels l) : Received sinks l ∧ Filled l := by
  induction run with
  | start =>
    refine ⟨linked_received, ?_⟩
    intro before last none
    exact absurd (congrArg List.length none) (by simp [linked])
  | next _ hs ih =>
    obtain ⟨received, filled⟩ := ih
    exact ⟨link_step received (turn_unbroken hs.1) hs.2, filled_step received filled hs.1 hs.2⟩

/-- A reader that asks for one sink after the other, each as large as the source written in its turn,
gets of every source a beginning in its own sink, all of it once the sink is full, and all sinks are full
once everything that was written is read. -/
theorem frames_in_turn
    (run : Run (Restrict InTurn LinkStep) (linked eventLoop eventLoop' sources sinks unused unused') labels l)
    (sized : Sized sources sinks l) {i : Nat} {sink : SinkId} {entry : SendTuple}
    (asked : l.requested[i]? = some sink) (submitted : l.writer.submitted[i]? = some entry) :
    (l.reader.io.sinks sink).contents <+: (sources entry.source).remaining.map some ∧
      ((l.reader.io.sinks sink).full = true ↔
        (l.reader.io.sinks sink).contents = (sources entry.source).remaining.map some) ∧
      (l.unread = [] → left l.writer.state.io = [] → (l.reader.io.sinks sink).full = true) := by
  obtain ⟨received, filled⟩ := linked_filled run
  have written := linked_inOrder (run.mono fun hs => hs.2)
  obtain ⟨within, all⟩ := frame_prefix written received filled sized asked submitted
  obtain ⟨size, some⟩ := sized i sink entry asked submitted
  rw [full_iff received size some]
  refine ⟨within, ⟨?_, ?_⟩, ?_⟩
  · intro full
    exact within.eq_of_length (by rw [full, List.length_map])
  · intro same
    rw [same, List.length_map]
  · intro read sent
    rw [all read sent, List.length_map]

theorem frames_in_turn_byte : ∃ l : Link StringData StringData, Run (Restrict InTurn LinkStep) byteStart byteLabels l ∧
    (l.reader.io.sinks 0).contents = [some 7#8] := by
  obtain ⟨l, run, requested, submitted, read, sent⟩ := byte_run
  have sized : Sized (fun _ => ⟨[7#8], 0⟩) (fun _ => (⟨1, []⟩ : SinkAdapter StringData)) l := by
    intro i sink entry _ _
    exact ⟨rfl, List.cons_ne_nil _ _⟩
  have asked : l.requested[0]? = some 0 := by rw [requested]; rfl
  have written : l.writer.submitted[0]? = some ⟨0, true⟩ := by rw [submitted]; rfl
  obtain ⟨_, whole, full⟩ := frames_in_turn run sized asked written
  exact ⟨l, run, whole.mp (full read sent)⟩

section Records

open Serial

end Records

end FileDescriptorIo

end Hlib
