import Hlib.Source
import Hlib.Transition

namespace Hlib

namespace Source

/-- `SourceAdapter(SourceAdapter&& that)`: the adapter made, and `that`, in whose data `left` is left.
The base class of the new adapter is default constructed. -/
def moveConstruct (that : Source) (left : List Byte) : Source × Source :=
  ({ data := that.data }, { that with data := left })

/-- `operator=(SourceAdapter&& that)`. -/
def moveAssign (this that : Source) (left : List Byte) : Source × Source :=
  ({ this with data := that.data }, { that with data := left })

/-- Adapters of one type, the one that owns the bytes apart from the others, and the ranges that were
consumed through an owner. -/
structure Adapters where
  owner : Source
  others : List Source
  delivered : List Byte := []
  deriving DecidableEq, Repr

inductive Action
  | peek (size : Nat)
  | consume (size : Nat)
  | moveConstruct (left : List Byte)
  | moveAssign (target : Nat) (left : List Byte)
  | create (data : List Byte)
  | consumeOther (target : Nat) (size : Nat)
  deriving DecidableEq, Repr

def other (w : Adapters) (target : Nat) : Checked Source :=
  match w.others[target]? with
  | some source => .ok source
  | none => .error .outOfBounds

def execute (w : Adapters) : Action → Checked Adapters
  | .peek size => do
    let _ ← w.owner.peek size
    .ok w
  | .consume size => do
    let (data, owner) ← w.owner.consume size
    .ok { w with owner, delivered := w.delivered ++ data }
  | .moveConstruct left =>
    let (owner, that) := w.owner.moveConstruct left
    .ok { w with owner, others := that :: w.others }
  | .moveAssign target left => do
    let this ← other w target
    let (owner, that) := this.moveAssign w.owner left
    .ok { w with owner, others := w.others.set target that }
  | .create data => .ok { w with others := { data } :: w.others }
  | .consumeOther target size => do
    let source ← other w target
    let (_, source) ← source.consume size
    .ok { w with others := w.others.set target source }

def start (d : List Byte) (others : List Source) : Adapters := { owner := { data := d }, others }

/-- What was delivered is the front of the bytes, and the owner has the rest. -/
def DeliversOnce (d : List Byte) (w : Adapters) : Prop :=
  w.delivered <+: d ∧ w.owner.available = .ok (d.length - w.delivered.length)

/-- A move that keeps the position: nothing was consumed where it is lost, and as much where it is kept. -/
def KeepsPosition (w : Adapters) : Action → Prop
  | .moveConstruct _ => w.owner.progress = 0
  | .moveAssign target _ => ∀ this, w.others[target]? = some this → this.progress = w.owner.progress
  | _ => True

/-- The owner holds the bytes, and stands behind those delivered. -/
structure InPlace (d : List Byte) (w : Adapters) : Prop where
  data : w.owner.data = d
  inside : w.owner.progress ≤ d.length
  delivered : w.delivered = d.take w.owner.progress

theorem available_eq {s : Source} (h : s.progress ≤ s.data.length) :
    s.available = .ok (s.data.length - s.progress) := by
  have valid : s.progress ≤ s.size := h
  rw [available, require_of valid]
  rfl

theorem inPlace_iff {d : List Byte} {w : Adapters} (data : w.owner.data = d) :
    InPlace d w ↔ DeliversOnce d w := by
  constructor
  · rintro ⟨_, inside, delivered⟩
    have length : w.delivered.length = w.owner.progress := by
      rw [delivered, List.length_take, Nat.min_eq_left inside]
    constructor
    · rw [delivered]
      exact List.take_prefix _ _
    · rw [available_eq (by rw [data]; exact inside), data, length]
  · rintro ⟨front, available⟩
    obtain ⟨valid, rest⟩ := available_ok available
    have inside : w.owner.progress ≤ d.length := by
      have : w.owner.progress ≤ w.owner.data.length := valid
      rw [data] at this
      exact this
    rw [remaining_length, size, data] at rest
    have shorter := front.length_le
    have length : w.delivered.length = w.owner.progress := by omega
    refine ⟨data, inside, ?_⟩
    rw [← length]
    exact List.prefix_iff_eq_take.mp front

theorem other_ok {w : Adapters} {target : Nat} {source : Source} (h : other w target = .ok source) :
    w.others[target]? = some source := by
  unfold other at h
  split at h
  next found =>
    cases h
    exact found
  next => cases h

/-- Whatever is moved, the bytes are with their owner. -/
theorem execute_data {w w' : Adapters} {action : Action} (h : execute w action = .ok w') :
    w'.owner.data = w.owner.data := by
  cases action with
  | peek size =>
    obtain ⟨_, _, h⟩ := bind_ok h
    cases h
    rfl
  | consume size =>
    obtain ⟨_, taken, h⟩ := bind_ok h
    obtain ⟨_, _, taken⟩ := bind_ok taken
    cases taken
    cases h
    rfl
  | moveConstruct left =>
    cases h
    rfl
  | moveAssign target left =>
    obtain ⟨_, _, h⟩ := bind_ok h
    cases h
    rfl
  | create data =>
    cases h
    rfl
  | consumeOther target size =>
    obtain ⟨_, _, h⟩ := bind_ok h
    obtain ⟨_, _, h⟩ := bind_ok h
    cases h
    rfl

theorem inPlace_moved {d : List Byte} {w : Adapters} (h : InPlace d w) (progress : Nat)
    (others : List Source) :
    InPlace d { w with owner := { data := w.owner.data, progress }, others } ↔
      progress = w.owner.progress := by
  constructor
  · rintro ⟨_, inside, delivered⟩
    have lengths := congrArg List.length (h.delivered.symm.trans delivered)
    rw [List.length_take, List.length_take, Nat.min_eq_left h.inside, Nat.min_eq_left inside] at lengths
    exact lengths.symm
  · rintro rfl
    exact ⟨h.data, h.inside, h.delivered⟩

theorem execute_inPlace {d : List Byte} {w w' : Adapters} {action : Action} (h : InPlace d w)
    (taken : execute w action = .ok w') : InPlace d w' ↔ KeepsPosition w action := by
  cases action with
  | peek size =>
    obtain ⟨_, _, taken⟩ := bind_ok taken
    cases taken
    exact iff_of_true h trivial
  | consume size =>
    obtain ⟨⟨data, owner⟩, consumed, taken⟩ := bind_ok taken
    cases taken
    obtain ⟨_, peeked, consumed⟩ := bind_ok consumed
    cases consumed
    obtain ⟨_, room, peeked⟩ := bind_ok peeked
    cases peeked
    have room : w.owner.progress + size ≤ w.owner.data.length := require_ok room
    refine iff_of_true ⟨h.data, ?_, ?_⟩ trivial
    · show w.owner.progress + size ≤ d.length
      rw [← h.data]
      exact room
    · show w.delivered ++ (w.owner.data.drop w.owner.progress).take size =
        d.take (w.owner.progress + size)
      rw [h.delivered, h.data, ← List.take_add]
  | moveConstruct left =>
    cases taken
    have moved := inPlace_moved h 0 ({ w.owner with data := left } :: w.others)
    rw [eq_comm (a := 0)] at moved
    exact moved
  | moveAssign target left =>
    obtain ⟨this, found, taken⟩ := bind_ok taken
    cases taken
    have held := other_ok found
    have moved := inPlace_moved h this.progress (w.others.set target { w.owner with data := left })
    refine moved.trans ⟨?_, ?_⟩
    · intro same this' held'
      rw [held] at held'
      cases held'
      exact same
    · intro keeps
      exact keeps this held
  | create data =>
    cases taken
    exact iff_of_true ⟨h.data, h.inside, h.delivered⟩ trivial
  | consumeOther target size =>
    obtain ⟨_, _, taken⟩ := bind_ok taken
    obtain ⟨_, _, taken⟩ := bind_ok taken
    cases taken
    exact iff_of_true ⟨h.data, h.inside, h.delivered⟩ trivial

theorem foldlM_data {actions : List Action} {w w' : Adapters}
    (run : actions.foldlM execute w = .ok w') : w'.owner.data = w.owner.data := by
  induction actions generalizing w with
  | nil =>
    cases run
    rfl
  | cons action actions ih =>
    rw [List.foldlM_cons] at run
    obtain ⟨_, first, later⟩ := bind_ok run
    exact (ih later).trans (execute_data first)

/-- A source delivers each byte once in the runs in which every move keeps the position, and in no
other. -/
theorem deliversOnce_iff (d : List Byte) (others : List Source) (actions : List Action) {final : Adapters}
    (run : actions.foldlM execute (start d others) = .ok final) :
    (∀ done rest w, actions = done ++ rest → done.foldlM execute (start d others) = .ok w →
        DeliversOnce d w) ↔
      ∀ done action rest w, actions = done ++ action :: rest →
        done.foldlM execute (start d others) = .ok w → KeepsPosition w action := by
  have first : InPlace d (start d others) := ⟨rfl, Nat.zero_le _, rfl⟩
  have along := Transition.foldlM_along_iff (fun h taken => execute_inPlace h taken) first run
  refine Iff.trans ⟨?_, ?_⟩ along
  · intro all done rest w split reached
    exact (inPlace_iff (foldlM_data reached)).mpr (all done rest w split reached)
  · intro all done rest w split reached
    exact (inPlace_iff (foldlM_data reached)).mp (all done rest w split reached)

theorem deliversOnce_iff_sample :
    (∀ done rest w, [Action.consume 1, .moveAssign 0 [], .consume 1] = done ++ rest →
        done.foldlM execute (start [1, 2] [{ data := [7, 8], progress := 1 }]) = .ok w →
        DeliversOnce [1, 2] w) ↔
      ∀ done action rest w, [Action.consume 1, .moveAssign 0 [], .consume 1] = done ++ action :: rest →
        done.foldlM execute (start [1, 2] [{ data := [7, 8], progress := 1 }]) = .ok w →
        KeepsPosition w action :=
  deliversOnce_iff [1, 2] [{ data := [7, 8], progress := 1 }]
    [.consume 1, .moveAssign 0 [], .consume 1] rfl

theorem moved_byte_repeats :
    (([.consume 1, .moveConstruct [], .consume 1] : List Action).foldlM execute (start [1, 2] [])).map
        Adapters.delivered = .ok [1, 1] ∧
      ¬([1, 1] : List Byte) <+: [1, 2] := by
  constructor
  · rfl
  · decide

end Source

end Hlib
