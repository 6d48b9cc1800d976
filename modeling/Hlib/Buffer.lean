import Hlib.Memory
import Hlib.Overwrite

namespace Hlib

open Overwrite

inductive ReallocType
  | shrink
  | grow
  | growZeroed
  deriving DecidableEq, Repr

/-- `Buffer`: `data` is the block behind `m_data`, `none` for a null pointer. -/
structure Buffer where
  data : Option (List Cell) := none
  maximum : Nat := 2 ^ 64 - 1
  capacity : Nat := 0
  size : Nat := 0
  deriving DecidableEq, Repr

/-- `::realloc`, which gives memory only if `alloc` says so. -/
def heapRealloc (data : Option (List Cell)) (capacity : Nat) (alloc : Bool) : Option (List Cell) :=
  if alloc then
    some ((data.getD []).take capacity ++
      List.replicate (capacity - (data.getD []).length) none)
  else none

namespace Buffer

def realloc (b : Buffer) (capacity : Nat) (type : ReallocType) (alloc : Bool) : Bool × Buffer :=
  if type ≠ .shrink ∧ capacity ≤ b.capacity then (true, b)
  else if capacity > b.maximum then (false, b)
  else if capacity > 0 then
    match heapRealloc b.data capacity alloc with
    | none => (false, b)
    | some block =>
      let block := if type = .growZeroed ∧ capacity > b.capacity then
        overwrite block b.capacity (List.replicate (capacity - b.capacity) (some 0)) else block
      (true, { b with data := some block, capacity := capacity, size := min b.size capacity })
  else (true, { b with data := none, capacity := 0, size := 0 })

/-- `static_cast<std::uint8_t*>(m_data) + offset`; `none` is a null pointer. -/
def address (b : Buffer) (offset : Nat) : Option Nat :=
  if b.data = none ∧ offset = 0 then none else some offset

/-- `reserve(capacity, std::nothrow)`. -/
def reserve (b : Buffer) (capacity : Nat) (alloc : Bool) : Option Nat × Buffer :=
  match b.realloc capacity .grow alloc with
  | (false, b) => (none, b)
  | (true, b) => (b.address 0, b)

/-- `extend(capacity, std::nothrow)`: the address of the first byte behind the contents. -/
def extend (b : Buffer) (capacity : Nat) (alloc : Bool) : Option Nat × Buffer :=
  if 0 < capacity then
    match b.realloc (sizeT (b.size + capacity)) .grow alloc with
    | (false, b) => (none, b)
    | (true, b) => (b.address b.size, b)
  else (b.address b.size, b)

/-- `resize(size, std::nothrow)`. -/
def resize (b : Buffer) (size : Nat) (alloc : Bool) : Option Nat × Buffer :=
  if 0 < size then
    match b.realloc size .grow alloc with
    | (false, b) => (none, b)
    | (true, b) => (b.address 0, { b with size := size })
  else (b.address 0, { b with size := size })

/-- The overloads without `std::nothrow` throw `std::bad_alloc`; every caller modelled here
is `noexcept`. -/
def orThrow (n : Nat) (call : Option Nat × Buffer) : Checked (Option Nat × Buffer) :=
  if call.1 = none ∧ 0 < n then .error .terminate else .ok call

/-- Bytes stored through a pointer into the block. -/
def store (b : Buffer) (offset : Nat) (bytes : List Byte) : Checked Buffer :=
  match bytes with
  | [] => .ok b
  | _ :: _ =>
    match b.data with
    | none => .error .outOfBounds
    | some block =>
      if offset + bytes.length ≤ block.length then
        .ok { b with data := some (overwrite block offset (bytes.map some)) }
      else .error .outOfBounds

def block (b : Buffer) : List Cell := b.data.getD []

/-- The bytes from `data()` up to `size()`. -/
def contents (b : Buffer) : List Cell := b.block.take b.size

/-- `to_string(Buffer const&)`. -/
def toString (b : Buffer) : Checked (List Byte) :=
  match b.contents.mapM id with
  | some bytes => .ok bytes
  | none => .error .uninitialised

structure Valid (b : Buffer) : Prop where
  null : b.data = none ↔ b.capacity = 0
  block_length : b.block.length = b.capacity
  size_le : b.size ≤ b.capacity
  capacity_le : b.capacity ≤ b.maximum
  maximum_lt : b.maximum < 2 ^ 64

/-- A sound buffer whose contents are the bytes `p`. -/
structure Holds (b : Buffer) (p : List Byte) : Prop where
  valid : b.Valid
  contents : b.contents = p.map some

theorem valid_empty : ({} : Buffer).Valid := by
  constructor <;> simp [block]

theorem holds_empty : ({} : Buffer).Holds [] :=
  ⟨valid_empty, by simp [Buffer.contents]⟩

theorem contents_length {b : Buffer} (hv : b.Valid) : b.contents.length = b.size := by
  rw [Buffer.contents, List.length_take, hv.block_length]
  exact Nat.min_eq_left hv.size_le

theorem Holds.size {b : Buffer} {p : List Byte} (h : b.Holds p) : b.size = p.length := by
  rw [← contents_length h.valid, h.contents, List.length_map]

theorem Valid.present {b : Buffer} (hv : b.Valid) (h : 0 < b.capacity) : b.data ≠ none := by
  intro null
  have := hv.null.mp null
  omega

/-- What a growing `realloc` that reports success leaves behind. -/
structure Grown (b b' : Buffer) (capacity : Nat) : Prop where
  valid : b'.Valid
  size : b'.size = b.size
  maximum : b'.maximum = b.maximum
  block : b'.block = b.block ++ List.replicate (capacity - b.capacity) none
  data : b.data ≠ none → b'.data ≠ none

theorem Grown.capacity {b b' : Buffer} {capacity : Nat} (hv : b.Valid)
    (h : Grown b b' capacity) : b'.capacity = max b.capacity capacity := by
  rw [← h.valid.block_length, h.block, List.length_append, List.length_replicate, hv.block_length]
  omega

theorem Grown.refl {b : Buffer} {capacity : Nat} (hv : b.Valid) (h : capacity ≤ b.capacity) :
    Grown b b capacity :=
  ⟨hv, rfl, rfl, by simp [Nat.sub_eq_zero_of_le h], id⟩

theorem realloc_grow_cases {b : Buffer} (hv : b.Valid) (capacity : Nat) (alloc : Bool) :
    b.realloc capacity .grow alloc = (false, b) ∨
      ∃ b', b.realloc capacity .grow alloc = (true, b') ∧ Grown b b' capacity ∧
        (0 < capacity → b'.data ≠ none) := by
  unfold realloc
  by_cases fits : capacity ≤ b.capacity
  · right
    refine ⟨b, by simp [fits], Grown.refl hv fits, ?_⟩
    intro positive null
    have := hv.null.mp null
    omega
  · by_cases large : capacity > b.maximum
    · left
      simp [fits, large]
    · have positive : 0 < capacity := by omega
      cases alloc with
      | false => left; simp [fits, large, positive, heapRealloc]
      | true =>
        right
        refine ⟨_, by simp [fits, large, positive, heapRealloc]; rfl, ?_, by simp⟩
        have taken : b.block.take capacity = b.block :=
          List.take_of_length_le (by rw [hv.block_length]; omega)
        have size_le := hv.size_le
        constructor
        · constructor
          · simp only [reduceCtorEq, false_iff]; omega
          · simp only [Buffer.block, Option.getD_some]
            change (b.block.take capacity ++ List.replicate (capacity - b.block.length) none).length = _
            rw [taken, List.length_append, List.length_replicate, hv.block_length]
            omega
          · exact Nat.min_le_right _ _
          · exact Nat.le_of_not_lt large
          · exact hv.maximum_lt
        · exact Nat.min_eq_left (by omega)
        · rfl
        · simp only [Buffer.block, Option.getD_some]
          change b.block.take capacity ++ List.replicate (capacity - b.block.length) none = _
          rw [taken, hv.block_length]
          rfl
        · simp

theorem realloc_grow_succeeds {b : Buffer} {capacity : Nat} (h : capacity ≤ b.maximum) :
    (b.realloc capacity .grow true).1 = true := by
  unfold realloc heapRealloc
  by_cases fits : capacity ≤ b.capacity
  · simp [fits]
  · simp [fits, Nat.not_lt.mpr h, show 0 < capacity by omega]

def extended (b : Buffer) (capacity : Nat) : Nat :=
  if 0 < capacity then sizeT (b.size + capacity) else 0

theorem extend_cases {b : Buffer} (hv : b.Valid) (capacity : Nat) (alloc : Bool) :
    b.extend capacity alloc = (none, b) ∨
      ∃ b', b.extend capacity alloc = (some b.size, b') ∧ Grown b b' (b.extended capacity) := by
  unfold extend extended
  by_cases positive : 0 < capacity
  · simp only [positive, ↓reduceIte]
    rcases realloc_grow_cases hv (sizeT (b.size + capacity)) alloc with he | ⟨b', he, grown, hd⟩
    · exact Or.inl (by rw [he])
    · rw [he]
      by_cases null : b'.data = none ∧ b'.size = 0
      · left
        have old : b.data = none := by
          by_contra hb
          exact grown.data hb null.1
        have small : ¬0 < sizeT (b.size + capacity) := fun h => hd h null.1
        have same : b' = b := by
          have := congrArg Prod.snd he
          unfold realloc at this
          simpa [show sizeT (b.size + capacity) ≤ b.capacity by omega] using this.symm
        rw [same] at null
        simp [address, null, same]
      · right
        refine ⟨b', ?_, grown⟩
        rw [grown.size] at null
        simp only [address, grown.size, if_neg null]
  · simp only [positive, ↓reduceIte]
    by_cases null : b.data = none ∧ b.size = 0
    · exact Or.inl (by simp [address, null])
    · exact Or.inr ⟨b, by simp only [address, if_neg null], Grown.refl hv (Nat.zero_le _)⟩

theorem extend_succeeds {b : Buffer} (hv : b.Valid) {capacity : Nat} (positive : 0 < capacity)
    (room : b.size + capacity ≤ b.maximum) :
    ∃ b', b.extend capacity true = (some b.size, b') ∧ Grown b b' (b.size + capacity) := by
  have exactSum : sizeT (b.size + capacity) = b.size + capacity :=
    sizeT_of_lt (Nat.lt_of_le_of_lt room hv.maximum_lt)
  rcases realloc_grow_cases hv (b.size + capacity) true with he | ⟨b', he, grown, hd⟩
  · have := realloc_grow_succeeds room
    simp [he] at this
  · refine ⟨b', ?_, grown⟩
    have present : b'.data ≠ none := hd (by omega)
    simp [extend, positive, exactSum, he, address, present, grown.size]

theorem extend_unbounded {b : Buffer} (hv : b.Valid) (unbounded : b.maximum = 2 ^ 64 - 1)
    {capacity : Nat} (positive : 0 < capacity) (small : capacity < 2 ^ 64) :
    ∃ b', b.extend capacity true = (some b.size, b') ∧ Grown b b' (b.extended capacity) ∧
      b'.data ≠ none := by
  have fits : sizeT (b.size + capacity) ≤ b.maximum := by
    have := Nat.mod_lt (b.size + capacity) (show 0 < 2 ^ 64 by omega)
    rw [unbounded, sizeT]
    omega
  rcases realloc_grow_cases hv (sizeT (b.size + capacity)) true with he | ⟨b', he, grown, hd⟩
  · have := realloc_grow_succeeds fits
    simp [he] at this
  · have present : b'.data ≠ none := by
      by_cases empty : b.size = 0
      · exact hd (by rwa [empty, Nat.zero_add, sizeT_of_lt small])
      · have := hv.size_le
        exact grown.data (hv.present (by omega))
    refine ⟨b', ?_, by rwa [extended, if_pos positive], present⟩
    simp [extend, positive, he, address, present, grown.size]

theorem resize_cases {b : Buffer} (hv : b.Valid) (size : Nat) (alloc : Bool) :
    b.resize size alloc = (none, b) ∨
      ∃ grown, Grown b grown size ∧
        b.resize size alloc = (grown.address 0, { grown with size := size }) ∧
        ({ grown with size := size } : Buffer).Valid := by
  unfold resize
  by_cases positive : 0 < size
  · simp only [positive, ↓reduceIte]
    rcases realloc_grow_cases hv size alloc with he | ⟨b', he, grown, hd⟩
    · exact Or.inl (by rw [he])
    · right
      have capacity := grown.capacity hv
      refine ⟨b', grown, by rw [he], ?_⟩
      exact ⟨grown.valid.null, grown.valid.block_length, by show size ≤ b'.capacity; omega,
        grown.valid.capacity_le, grown.valid.maximum_lt⟩
  · right
    refine ⟨b, Grown.refl hv (by omega), by simp [positive], ?_⟩
    exact ⟨hv.null, hv.block_length, by show size ≤ b.capacity; omega, hv.capacity_le, hv.maximum_lt⟩

theorem resize_valid {b : Buffer} (hv : b.Valid) (size : Nat) (alloc : Bool) :
    (b.resize size alloc).2.Valid := by
  rcases resize_cases hv size alloc with he | ⟨grown, _, he, valid⟩ <;> rw [he]
  · exact hv
  · exact valid

theorem resize_within {b : Buffer} {size : Nat} {alloc : Bool} (h : size ≤ b.capacity) :
    b.resize size alloc = (b.address 0, { b with size := size }) := by
  unfold resize realloc
  by_cases positive : 0 < size
  · simp [positive, h, address]
  · simp [positive]

theorem store_within {b : Buffer} (hv : b.Valid) {offset : Nat} {bytes : List Byte}
    (room : offset + bytes.length ≤ b.capacity) (present : b.data ≠ none) :
    b.store offset bytes =
      .ok { b with data := some (overwrite b.block offset (bytes.map some)) } := by
  cases hd : b.data with
  | none => exact absurd hd present
  | some cells =>
    have hb : b.block = cells := by simp [Buffer.block, hd]
    have length := hv.block_length
    rw [hb] at length
    cases bytes with
    | nil => simp [store, hb, ← hd]
    | cons byte bytes =>
      rw [← length] at room
      simp only [store, hd, if_pos room, hb]

theorem store_ok {b b' : Buffer} (hv : b.Valid) {offset : Nat} {bytes : List Byte}
    (h : b.store offset bytes = .ok b') :
    bytes = [] ∧ b' = b ∨ offset + bytes.length ≤ b.capacity ∧
      b' = { b with data := some (overwrite b.block offset (bytes.map some)) } := by
  cases bytes with
  | nil => left; exact ⟨rfl, (Except.ok.inj h).symm⟩
  | cons byte bytes =>
    right
    cases hd : b.data with
    | none => simp [store, hd] at h
    | some cells =>
      have hb : b.block = cells := by simp [Buffer.block, hd]
      have length := hv.block_length
      rw [hb] at length
      simp only [store, hd] at h
      split at h
      next room => exact ⟨length ▸ room, by rw [hb]; exact (Except.ok.inj h).symm⟩
      next => cases h

theorem store_fault {b : Buffer} {offset : Nat} {bytes : List Byte} {fault : Fault}
    (h : b.store offset bytes = .error fault) : fault = .outOfBounds := by
  unfold store at h
  split at h
  next => cases h
  next =>
    split at h
    next => cases h; rfl
    next => split at h <;> cases h; rfl

theorem valid_store {b : Buffer} (hv : b.Valid) {offset : Nat} {cells : List Cell}
    (room : offset + cells.length ≤ b.capacity) (present : b.data ≠ none) :
    ({ b with data := some (overwrite b.block offset cells) } : Buffer).Valid := by
  have nonzero : ¬b.capacity = 0 := fun h => present (hv.null.mpr h)
  refine ⟨by simp [nonzero], ?_, hv.size_le, hv.capacity_le, hv.maximum_lt⟩
  simp only [Buffer.block, Option.getD_some]
  exact (overwrite_length (by rw [show (b.data.getD []).length = b.capacity from hv.block_length]; exact room)).trans
    hv.block_length

theorem store_valid {b b' : Buffer} (hv : b.Valid) {offset : Nat} {bytes : List Byte}
    (h : b.store offset bytes = .ok b') : b'.Valid := by
  cases bytes with
  | nil =>
    cases Except.ok.inj h
    exact hv
  | cons byte bytes =>
    have present : b.data ≠ none := by
      intro null
      simp [store, null] at h
    obtain ⟨nil, _⟩ | ⟨room, rfl⟩ := store_ok hv h
    · cases nil
    · exact valid_store hv (by simpa using room) present

def written (b : Buffer) (offset : Nat) (bytes : List Byte) : Buffer :=
  { b with data := some (overwrite b.block offset (bytes.map some)) }

theorem written_nil {b : Buffer} (present : b.data ≠ none) (offset : Nat) :
    b.written offset [] = b := by
  obtain ⟨cells, hd⟩ := Option.ne_none_iff_exists'.mp present
  cases b
  cases hd
  simp [written, block]

theorem written_valid {b : Buffer} (hv : b.Valid) (present : b.data ≠ none) {offset : Nat}
    {bytes : List Byte} (room : offset + bytes.length ≤ b.capacity) :
    (b.written offset bytes).Valid :=
  valid_store hv (by simpa using room) present

theorem store_next {b : Buffer} (hv : b.Valid) (present : b.data ≠ none) {offset next : Nat}
    {bytes more : List Byte} (hn : next = offset + bytes.length)
    (room : offset + bytes.length + more.length ≤ b.capacity) :
    (b.written offset bytes).store next more = .ok (b.written offset (bytes ++ more)) := by
  subst next
  have length := hv.block_length
  rw [store_within (written_valid hv present (by omega)) room (by simp [written])]
  have joined := overwrite_append b.block (bytes.map some) (more.map some) offset
    (by simpa [length] using room)
  simp only [List.length_map, block] at joined
  simp only [written, block, Option.getD_some, List.map_append, joined]

theorem Grown.take_block {b b' : Buffer} {capacity : Nat} (hv : b.Valid)
    (grown : Grown b b' capacity) : b'.block.take b.size = b.contents := by
  rw [grown.block, contents, List.take_append_of_le_length (hv.block_length ▸ hv.size_le)]

/-- The contents after bytes were stored behind the old ones and the size was moved to `extra`
bytes behind those; these last bytes are what the block happens to hold. -/
theorem Holds.contents_stored {b b' : Buffer} {p bytes : List Byte} {capacity : Nat}
    (h : b.Holds p) (grown : Grown b b' capacity) (extra : Nat)
    (room : b.size + bytes.length + extra ≤ b'.capacity) :
    ({ b'.written b.size bytes with size := b.size + bytes.length + extra } : Buffer).contents =
      (p ++ bytes).map some ++ (b'.block.drop (b.size + bytes.length)).take extra := by
  have fits : b.size + (bytes.map some).length ≤ b'.block.length := by
    rw [grown.valid.block_length, List.length_map]
    omega
  have front := overwrite_take fits
  have rest := overwrite_drop fits
  rw [List.length_map] at front rest
  change (overwrite b'.block b.size (bytes.map some)).take _ = _
  rw [List.take_add, front, rest, grown.take_block h.valid, h.contents, List.map_append]

theorem Holds.append {b b' : Buffer} {p bytes : List Byte} {capacity : Nat} (h : b.Holds p)
    (grown : Grown b b' capacity) (present : b'.data ≠ none)
    (room : b.size + bytes.length ≤ b'.capacity) :
    ({ b'.written b.size bytes with size := b.size + bytes.length } : Buffer).Holds (p ++ bytes) := by
  have hv := written_valid grown.valid present room
  refine ⟨⟨hv.null, hv.block_length, room, hv.capacity_le, hv.maximum_lt⟩, ?_⟩
  simpa using h.contents_stored grown 0 room

theorem mapM_stored (bytes : List Byte) : (bytes.map some).mapM id = some bytes := by
  induction bytes with
  | nil => rfl
  | cons byte bytes ih =>
    rw [List.map_cons, List.mapM_cons, ih]
    rfl

theorem toString_of_contents {b : Buffer} {bytes : List Byte} (h : b.contents = bytes.map some) :
    b.toString = .ok bytes := by
  rw [toString, h, mapM_stored]

end Buffer

end Hlib
