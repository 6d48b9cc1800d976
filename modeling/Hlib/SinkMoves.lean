import Hlib.SerialRoundTrip
import Hlib.Transition

namespace Hlib

open Overwrite

/-- What the constructor of a `SinkAdapter<T>` uses of its `T` besides. -/
class ReserveData (T : Type) extends SinkData T where
  /-- `reserve(capacity)`; without memory the exception ends in the constructor's `noexcept`. -/
  reserve : T → Nat → Bool → Checked T
  reserve_contents : ∀ {t capacity alloc t'}, reserve t capacity alloc = .ok t' →
    contents t' = contents t

namespace BufferData

theorem reserve_grown {b : Buffer} (hv : b.Valid) (capacity : Nat) (alloc : Bool) :
    (b.reserve capacity alloc).2.Valid ∧ (b.reserve capacity alloc).2.contents = b.contents := by
  have size_le := hv.size_le
  have length := hv.block_length
  unfold Buffer.reserve
  rcases Buffer.realloc_grow_cases hv capacity alloc with same | ⟨grown, done, hg, _⟩
  · rw [same]
    exact ⟨hv, rfl⟩
  · rw [done]
    refine ⟨hg.valid, ?_⟩
    show grown.block.take grown.size = b.block.take b.size
    rw [hg.size, hg.block, List.take_append_of_le_length (by omega)]

def reserve (b : BufferData) (capacity : Nat) (alloc : Bool) : Checked BufferData := do
  let _ ← Buffer.orThrow capacity (b.1.reserve capacity alloc)
  .ok ⟨(b.1.reserve capacity alloc).2, (reserve_grown b.2 capacity alloc).1⟩

instance : ReserveData BufferData where
  reserve := reserve
  reserve_contents {b capacity alloc b'} h := by
    obtain ⟨_, _, h⟩ := bind_ok h
    cases h
    exact (reserve_grown b.2 capacity alloc).2

end BufferData

namespace StringData

def reserve (s : StringData) (capacity : Nat) (alloc : Bool) : Checked StringData :=
  if s.length < capacity ∧ alloc = false then .error .terminate else .ok s

instance : ReserveData StringData where
  reserve := reserve
  reserve_contents h := by
    unfold reserve at h
    split at h <;> cases h
    rfl

end StringData

namespace SinkAdapter

variable {T : Type} [ReserveData T]

/-- `SinkAdapter(maximum, data)`; `InfiniteCapacity` is not reserved. -/
def create (maximum : Nat) (data : T) (alloc : Bool) : Checked (SinkAdapter T) :=
  if 2 ^ 64 - 1 ≠ maximum then do
    let data ← ReserveData.reserve data maximum alloc
    .ok { maximum, data }
  else .ok { maximum, data }

/-- `SinkAdapter(SinkAdapter&& that)`: the adapter made, and `that`, in which `left` is left. The base
class of the new adapter is default constructed. -/
def moveConstruct (that : SinkAdapter T) (left : T) : SinkAdapter T × SinkAdapter T :=
  ({ data := that.data }, { that with data := left })

/-- `operator=(SinkAdapter&& that)`. -/
def moveAssign (this that : SinkAdapter T) (left : T) : SinkAdapter T × SinkAdapter T :=
  ({ this with data := that.data }, { that with data := left })

/-- Adapters of one type, the one that owns the data apart from the others, and the blocks that were
produced through an owner. -/
structure Adapters (T : Type) where
  owner : SinkAdapter T
  others : List (SinkAdapter T)
  produced : List Cell := []

/-- `produce` copies its data; after `produceRoom` the caller stores some at the pointer it got. -/
inductive Action (T : Type)
  | produce (data : List Byte) (alloc : Bool)
  | produceRoom (size : Nat) (data : List Byte) (alloc : Bool)
  | headroom (limit : Nat)
  | moveConstruct (left : T)
  | moveAssign (target : Nat) (left : T)
  | create (maximum : Nat) (data : T) (alloc : Bool)
  | produceOther (target : Nat) (data : List Byte) (alloc : Bool)

def other (w : Adapters T) (target : Nat) : Checked (SinkAdapter T) :=
  match w.others[target]? with
  | some sink => .ok sink
  | none => .error .outOfBounds

/-- `produce(size)`, which asks for at most `headroom()`, and the caller's bytes in what it gave. -/
def fill (s : SinkAdapter T) (size : Nat) (data : List Byte) (alloc : Bool) : Checked (SinkAdapter T) := do
  let room ← Serial.headroom s
  require (size ≤ room) .assertion
  let (ptr, s) ← s.produce size alloc
  match ptr with
  | none => .ok s
  | some offset => do
    require (data.length ≤ size) .outOfBounds
    s.store offset data

/-- `produce(data, size)`, which asks for at most `headroom()`. -/
def append (s : SinkAdapter T) (data : List Byte) (alloc : Bool) : Checked (SinkAdapter T) := do
  let room ← Serial.headroom s
  require (data.length ≤ room) .assertion
  Serial.produce s data alloc

def execute (w : Adapters T) : Action T → Checked (Adapters T)
  | .produce data alloc => do
    let owner ← w.owner.append data alloc
    .ok { w with owner, produced := w.produced ++ data.map some }
  | .produceRoom size data alloc => do
    let owner ← w.owner.fill size data alloc
    .ok { w with owner, produced := w.produced ++ owner.contents.drop w.owner.size }
  | .headroom limit => do
    let _ ← w.owner.headroom limit
    .ok w
  | .moveConstruct left =>
    let (owner, that) := w.owner.moveConstruct left
    .ok { w with owner, others := that :: w.others }
  | .moveAssign target left => do
    let this ← other w target
    let (owner, that) := this.moveAssign w.owner left
    .ok { w with owner, others := w.others.set target that }
  | .create maximum data alloc => do
    let sink ← create maximum data alloc
    .ok { w with others := sink :: w.others }
  | .produceOther target data alloc => do
    let sink ← other w target
    let sink ← sink.append data alloc
    .ok { w with others := w.others.set target sink }

/-- What a bound of `m` on the owner means, as its members tell it. -/
structure Bounded (m : Nat) (w : Adapters T) : Prop where
  size_le : w.owner.size ≤ m
  headroom : Serial.headroom w.owner = .ok (m - w.owner.size)
  headroom_limit : ∀ limit, w.owner.headroom limit = .ok (min (m - w.owner.size) limit)
  full : w.owner.full ↔ w.owner.size = m
  contents : w.owner.contents = w.produced

/-- A move that keeps the maximum: none that constructs, and an assignment where it is the same. -/
def KeepsMaximum (m : Nat) (w : Adapters T) : Action T → Prop
  | .moveConstruct _ => False
  | .moveAssign target _ => ∀ this, w.others[target]? = some this → this.maximum = m
  | _ => True

/-- The owner has the bound, and the blocks, within it. -/
structure Within (m : Nat) (w : Adapters T) : Prop where
  maximum : w.owner.maximum = m
  inside : w.owner.size ≤ m
  contents : w.owner.contents = w.produced

theorem within_iff {m : Nat} (positive : 0 < m) {w : Adapters T} : Within m w ↔ Bounded m w := by
  constructor
  · intro h
    have bounded : w.owner.maximum ≠ 0 := by rw [h.maximum]; omega
    have inside : w.owner.size ≤ w.owner.maximum := by rw [h.maximum]; exact h.inside
    have room := Serial.headroom_ok bounded inside
    refine ⟨h.inside, ?_, ?_, ?_, h.contents⟩
    · rw [room, h.maximum]
    · intro limit
      rw [SinkAdapter.headroom, if_neg bounded, require_of inside, ok_bind, h.maximum]
    · rw [SinkAdapter.full, decide_eq_true_iff, h.maximum]
      omega
  · intro h
    obtain ⟨_, bounded, room⟩ := bind_ok h.headroom
    obtain ⟨_, inside, room⟩ := bind_ok room
    have inside : w.owner.size ≤ w.owner.maximum := require_ok inside
    have equal : w.owner.maximum - w.owner.size = m - w.owner.size := Except.ok.inj room
    have size_le := h.size_le
    exact ⟨by omega, size_le, h.contents⟩

theorem headroom_inv {s : SinkAdapter T} {room : Nat} (h : Serial.headroom s = .ok room) :
    s.size ≤ s.maximum ∧ room = s.maximum - s.size := by
  obtain ⟨_, _, h⟩ := bind_ok h
  obtain ⟨_, inside, h⟩ := bind_ok h
  exact ⟨require_ok inside, (Except.ok.inj h).symm⟩

theorem append_ok {s t : SinkAdapter T} {data : List Byte} {alloc : Bool}
    (h : s.append data alloc = .ok t) :
    t.maximum = s.maximum ∧ t.contents = s.contents ++ data.map some ∧ t.size ≤ t.maximum := by
  obtain ⟨room, space, h⟩ := bind_ok h
  obtain ⟨_, fits, h⟩ := bind_ok h
  have fits := require_ok fits
  have inside := headroom_inv space
  have bound : s.size + data.length ≤ s.maximum := by omega
  rcases Serial.produce_bytes_cases bound alloc with ⟨t', done, maximum, contents⟩ | ⟨failed, _⟩
  · cases h.symm.trans done
    refine ⟨maximum, contents, ?_⟩
    rw [size, contents, List.length_append, List.length_map, maximum]
    exact bound
  · cases h.symm.trans failed

theorem fill_ok {s t : SinkAdapter T} {n : Nat} {data : List Byte} {alloc : Bool}
    (h : s.fill n data alloc = .ok t) :
    t.maximum = s.maximum ∧ t.contents = s.contents ++ t.contents.drop s.size ∧ t.size ≤ t.maximum := by
  obtain ⟨room, space, h⟩ := bind_ok h
  obtain ⟨_, fits, h⟩ := bind_ok h
  obtain ⟨⟨ptr, grown⟩, made, h⟩ := bind_ok h
  have fits := require_ok fits
  have inside := headroom_inv space
  obtain ⟨_, maximum, ⟨junk, contents, length⟩, at_end⟩ := produce_ok made
  have grown_size : grown.size = s.size + n := by
    rw [size, contents, List.length_append, length]
    rfl
  cases ptr with
  | none =>
    cases h
    refine ⟨maximum, ?_, ?_⟩
    · rw [contents, List.drop_left']
      rfl
    · omega
  | some offset =>
    obtain rfl : offset = s.size := by
      rcases at_end with ⟨null, _⟩ | here
      · cases null
      · exact Option.some.inj here
    obtain ⟨_, given, h⟩ := bind_ok h
    have given := require_ok given
    have stays : s.size + data.length ≤ grown.size := by omega
    obtain ⟨t', stored, kept, after⟩ := store_within stays
    cases h.symm.trans stored
    have cells : s.size + (data.map some).length ≤ grown.contents.length := by
      rw [List.length_map]
      exact stays
    refine ⟨kept.trans maximum, ?_, ?_⟩
    · have front : t.contents.take s.size = s.contents := by
        have keeps : grown.contents.take s.size = s.contents := by
          rw [contents]
          exact List.take_left
        rw [after, overwrite, keeps, List.append_assoc]
        exact List.take_left
      conv_lhs => rw [← List.take_append_drop s.size t.contents, front]
    · have same : t.size = grown.size := by
        rw [size, after, overwrite_length cells]
        rfl
      omega

omit [ReserveData T] in
theorem other_ok {w : Adapters T} {target : Nat} {sink : SinkAdapter T}
    (h : other w target = .ok sink) : w.others[target]? = some sink := by
  unfold other at h
  split at h
  next found =>
    cases h
    exact found
  next => cases h

theorem create_ok {m : Nat} {data : T} {alloc : Bool} {s : SinkAdapter T}
    (h : create m data alloc = .ok s) : s.maximum = m ∧ s.contents = SinkData.contents data := by
  unfold create at h
  split at h
  next =>
    obtain ⟨reserved, made, h⟩ := bind_ok h
    cases h
    exact ⟨rfl, ReserveData.reserve_contents made⟩
  next =>
    cases h
    exact ⟨rfl, rfl⟩

/-- Within the bound, a step leads to a state within it exactly if it keeps the maximum. -/
theorem execute_within {m : Nat} (positive : 0 < m) {w w' : Adapters T} {action : Action T} (h : Within m w)
    (taken : execute w action = .ok w') : Within m w' ↔ KeepsMaximum m w action := by
  cases action with
  | produce data alloc =>
    obtain ⟨owner, appended, taken⟩ := bind_ok taken
    cases taken
    obtain ⟨maximum, contents, inside⟩ := append_ok appended
    have kept : owner.maximum = m := maximum.trans h.maximum
    refine iff_of_true ⟨kept, kept ▸ inside, ?_⟩ trivial
    show owner.contents = w.produced ++ data.map some
    rw [contents, h.contents]
  | produceRoom size data alloc =>
    obtain ⟨owner, filled, taken⟩ := bind_ok taken
    cases taken
    obtain ⟨maximum, contents, inside⟩ := fill_ok filled
    have kept : owner.maximum = m := maximum.trans h.maximum
    refine iff_of_true ⟨kept, kept ▸ inside, ?_⟩ trivial
    show owner.contents = w.produced ++ owner.contents.drop w.owner.size
    rw [← h.contents]
    exact contents
  | headroom limit =>
    obtain ⟨_, _, taken⟩ := bind_ok taken
    cases taken
    exact iff_of_true h trivial
  | moveConstruct left =>
    cases taken
    constructor
    · intro moved
      have default : 0 = m := moved.maximum
      omega
    · intro keeps
      exact keeps.elim
  | moveAssign target left =>
    obtain ⟨this, found, taken⟩ := bind_ok taken
    cases taken
    have held := other_ok found
    constructor
    · intro moved this' held'
      cases held.symm.trans held'
      exact moved.maximum
    · intro keeps
      exact ⟨keeps this held, h.inside, h.contents⟩
  | create maximum data alloc =>
    obtain ⟨_, _, taken⟩ := bind_ok taken
    cases taken
    exact iff_of_true ⟨h.maximum, h.inside, h.contents⟩ trivial
  | produceOther target data alloc =>
    obtain ⟨_, _, taken⟩ := bind_ok taken
    obtain ⟨_, _, taken⟩ := bind_ok taken
    cases taken
    exact iff_of_true ⟨h.maximum, h.inside, h.contents⟩ trivial

def start (owner : SinkAdapter T) (others : List (SinkAdapter T)) : Adapters T := { owner, others }

/-- A bounded sink stays bounded in the runs in which every move keeps the maximum, and in no other. -/
theorem bounded_iff {m : Nat} (positive : 0 < m) {data : T} (empty : SinkData.contents data = [])
    {alloc : Bool} {owner : SinkAdapter T} (created : create m data alloc = .ok owner)
    (others : List (SinkAdapter T)) (actions : List (Action T)) {final : Adapters T}
    (run : actions.foldlM execute (start owner others) = .ok final) :
    (∀ done rest w, actions = done ++ rest → done.foldlM execute (start owner others) = .ok w →
        Bounded m w) ↔
      ∀ done action rest w, actions = done ++ action :: rest →
        done.foldlM execute (start owner others) = .ok w → KeepsMaximum m w action := by
  obtain ⟨maximum, contents⟩ := create_ok created
  have held : owner.contents = [] := contents.trans empty
  have inside : owner.size ≤ m := by
    rw [size, held]
    exact Nat.zero_le m
  have first : Within m (start owner others) := ⟨maximum, inside, held⟩
  have along := Transition.foldlM_along_iff (fun h taken => execute_within positive h taken) first run
  refine Iff.trans ⟨?_, ?_⟩ along
  · intro all done rest w split reached
    exact (within_iff positive).mpr (all done rest w split reached)
  · intro all done rest w split reached
    exact (within_iff positive).mp (all done rest w split reached)

theorem bounded_iff_sample :
    (∀ done rest w, [Action.produce [7] true, .moveAssign 0 [], .headroom 4] = done ++ rest →
        done.foldlM execute (start ({ maximum := 2, data := [] } : SinkAdapter StringData)
          [{ maximum := 3, data := [1] }]) = .ok w → Bounded 2 w) ↔
      ∀ done action rest w,
        [Action.produce [7] true, .moveAssign 0 [], .headroom 4] = done ++ action :: rest →
        done.foldlM execute (start ({ maximum := 2, data := [] } : SinkAdapter StringData)
          [{ maximum := 3, data := [1] }]) = .ok w → KeepsMaximum 2 w action :=
  @bounded_iff StringData _ 2 (by decide) [] rfl true _ rfl [{ maximum := 3, data := [1] }]
    [.produce [7] true, .moveAssign 0 [], .headroom 4] _ rfl

/-- Moved into a new adapter, the sink asserts in `headroom()`, and is full with one byte of two. -/
theorem moved_unbounded :
    ∃ w, ([Action.produce [7] true, .moveConstruct []] : List (Action StringData)).foldlM execute
        (start { maximum := 2, data := [] } []) = .ok w ∧
      Serial.headroom w.owner = .error .assertion ∧ w.owner.headroom 4 = .ok 5 ∧
      w.owner.full = true ∧ w.owner.size = 1 ∧ ¬Bounded 2 w := by
  refine ⟨_, rfl, rfl, rfl, rfl, rfl, ?_⟩
  intro h
  cases h.headroom

end SinkAdapter

end Hlib
