import Hlib.BufferCalls
import Hlib.BufferContents

namespace Hlib

open Function Transition

namespace Buffer

section Framed

/-- What every call keeps, whatever the size is: all of `Valid` but `size_le`. -/
structure Framed (b : Buffer) : Prop where
  null : b.data = none ↔ b.capacity = 0
  block_length : b.block.length = b.capacity
  capacity_le : b.capacity ≤ b.maximum
  maximum_lt : b.maximum < 2 ^ 64

theorem Valid.framed {b : Buffer} (hv : b.Valid) : b.Framed :=
  ⟨hv.null, hv.block_length, hv.capacity_le, hv.maximum_lt⟩

theorem Framed.valid {b : Buffer} (hf : b.Framed) (h : b.size ≤ b.capacity) : b.Valid :=
  ⟨hf.null, hf.block_length, h, hf.capacity_le, hf.maximum_lt⟩

theorem Framed.withSize {b : Buffer} (hf : b.Framed) (size : Nat) :
    ({ b with size := size } : Buffer).Framed :=
  ⟨hf.null, hf.block_length, hf.capacity_le, hf.maximum_lt⟩

theorem Framed.clear_valid {b : Buffer} (hf : b.Framed) : b.clear.Valid :=
  (hf.withSize 0).valid (Nat.zero_le _)

theorem Framed.reset_valid {b : Buffer} (hf : b.Framed) : b.reset.Valid :=
  ⟨iff_of_true rfl rfl, rfl, Nat.le_refl _, Nat.zero_le _, hf.maximum_lt⟩

theorem Framed.withBlock {b : Buffer} (hf : b.Framed) {block : List Cell} (given : b.data ≠ none)
    (length : block.length = b.capacity) : ({ b with data := some block } : Buffer).Framed := by
  have nonzero : b.capacity ≠ 0 := fun zero => given (hf.null.mpr zero)
  exact ⟨iff_of_false nofun nonzero, length, hf.capacity_le, hf.maximum_lt⟩

/-- How `realloc` goes, in any of its modes. -/
structure Reallocated (b : Buffer) (capacity : Nat) (done : Bool) (b' : Buffer) : Prop where
  framed : b'.Framed
  failed : done = false → b' = b
  room : done = true → capacity ≤ b'.capacity
  size_le : b.size ≤ b.capacity → b'.size ≤ b'.capacity

theorem heapRealloc_length {data : Option (List Cell)} {capacity : Nat} {alloc : Bool}
    {block : List Cell} (h : heapRealloc data capacity alloc = some block) :
    block.length = capacity := by
  unfold heapRealloc at h
  split at h
  next =>
    rw [← Option.some.inj h, List.length_append, List.length_take, List.length_replicate]
    omega
  next => cases h

theorem reallocated {b : Buffer} (hf : b.Framed) (capacity : Nat) (type : ReallocType) (alloc : Bool) :
    Reallocated b capacity (b.realloc capacity type alloc).1 (b.realloc capacity type alloc).2 := by
  unfold realloc
  split
  next fits => exact ⟨hf, fun _ => rfl, fun _ => fits.2, id⟩
  next =>
    split
    next => exact ⟨hf, fun _ => rfl, nofun, id⟩
    next within =>
      split
      next positive =>
        split
        next => exact ⟨hf, fun _ => rfl, nofun, id⟩
        next block hr =>
          have length := heapRealloc_length hr
          refine ⟨⟨iff_of_false nofun (Nat.ne_of_gt positive), ?_, Nat.le_of_not_lt within, hf.maximum_lt⟩,
            nofun, fun _ => Nat.le_refl _, fun _ => Nat.min_le_right _ _⟩
          change (if _ then _ else block).length = capacity
          split
          next grown =>
            have zeroed : b.capacity + (List.replicate (capacity - b.capacity) (some (0 : Byte))).length ≤
                block.length := by
              rw [List.length_replicate]
              omega
            rw [Overwrite.overwrite_length zeroed, length]
          next => exact length
      next zero =>
        exact ⟨hf.reset_valid.framed, nofun, fun _ => Nat.le_of_not_lt zero, fun _ => Nat.le_refl _⟩

/-- A growing `realloc` leaves the size alone. -/
theorem realloc_size {b : Buffer} (h : b.size ≤ b.capacity) (type : ReallocType) (grows : type ≠ .shrink)
    (capacity : Nat) (alloc : Bool) : (b.realloc capacity type alloc).2.size = b.size := by
  unfold realloc
  split
  next => rfl
  next larger =>
    have above : b.capacity < capacity := by
      by_contra fits
      exact larger ⟨grows, Nat.le_of_not_lt fits⟩
    split
    next => rfl
    next =>
      split
      next =>
        split
        next => rfl
        next => exact Nat.min_eq_left (by omega)
      next => omega

/-- A growing `realloc` that leaves no block had nothing to do. -/
theorem realloc_null (b : Buffer) (type : ReallocType) (grows : type ≠ .shrink) (capacity : Nat)
    (alloc : Bool) (null : (b.realloc capacity type alloc).2.data = none) :
    (b.realloc capacity type alloc).2 = b := by
  unfold realloc at null ⊢
  split
  next => rfl
  next larger =>
    rw [if_neg larger] at null
    split
    next => rfl
    next within =>
      rw [if_neg within] at null
      split
      next positive =>
        rw [if_pos positive] at null
        split
        next => rfl
        next block hr =>
          rw [hr] at null
          cases null
      next zero =>
        exfalso
        exact larger ⟨grows, by omega⟩

end Framed

section Steps

theorem storeCells_framed {b b' : Buffer} {offset : Nat} {cells : List Cell}
    (h : b.storeCells offset cells = .ok b') (hf : b.Framed) :
    b'.Framed ∧ b'.size = b.size ∧ b'.capacity = b.capacity := by
  unfold storeCells at h
  split at h
  next =>
    cases h
    exact ⟨hf, rfl, rfl⟩
  next =>
    split at h
    next => cases h
    next block hd =>
      split at h
      next room =>
        cases h
        have same : b.block = block := by
          rw [Buffer.block, hd]
          rfl
        have length := hf.block_length
        rw [same] at length
        refine ⟨hf.withBlock (by simp [hd]) ?_, rfl, rfl⟩
        rw [Overwrite.overwrite_length room, length]
      next => cases h

theorem memmove_framed {b b' : Buffer} {target offset count : Nat}
    (h : b.memmove target offset count = .ok b') (hf : b.Framed) :
    b'.Framed ∧ b'.size = b.size ∧ b'.capacity = b.capacity := by
  obtain ⟨_, _, stored⟩ := bind_ok h
  exact storeCells_framed stored hf

theorem memcpy_framed {b b' : Buffer} {target count : Nat} {data : List Cell}
    (h : b.memcpy target data count = .ok b') (hf : b.Framed) :
    b'.Framed ∧ b'.size = b.size ∧ b'.capacity = b.capacity := by
  obtain ⟨_, _, stored⟩ := bind_ok h
  exact storeCells_framed stored hf

/-- The ways in which `insert` returns. -/
theorem insert_ok {b b' : Buffer} {offset : Nat} {data : Pointer} {size : Nat} {alloc done : Bool}
    (h : b.insert offset data size alloc = .ok (done, b')) (hf : b.Framed) :
    b.size ≤ b.capacity ∧ (done = false ∧ b' = b ∨ done = true ∧ b'.Valid ∧
      (size = 0 ∨ ∀ cells, data = some cells → size ≤ cells.length)) := by
  obtain ⟨_, _, h⟩ := bind_ok h
  obtain ⟨_, hs, h⟩ := bind_ok h
  have size_le := require_ok hs
  refine ⟨size_le, ?_⟩
  split at h
  next zero =>
    cases h
    exact Or.inr ⟨rfl, hf.valid size_le, Or.inl zero⟩
  next =>
    have grown := reallocated hf (sizeT (b.size + size)) .grow alloc
    have kept := realloc_size size_le .grow nofun (sizeT (b.size + size)) alloc
    split at h
    next call =>
      cases h
      rw [call] at grown
      exact Or.inl ⟨rfl, grown.failed rfl⟩
    next g call =>
      rw [call] at grown kept
      obtain ⟨moved, hm, h⟩ := bind_ok h
      obtain ⟨framed, size_eq, capacity_eq⟩ := memmove_framed hm grown.framed
      have room := grown.room rfl
      right
      cases data with
      | none =>
        cases h
        refine ⟨rfl, (framed.withSize _).valid ?_, Or.inr nofun⟩
        change sizeT (moved.size + size) ≤ moved.capacity
        rw [size_eq, capacity_eq, kept]
        exact room
      | some cells =>
        obtain ⟨filled, hc, h⟩ := bind_ok h
        cases h
        obtain ⟨framed', size_eq', capacity_eq'⟩ := memcpy_framed hc framed
        refine ⟨rfl, (framed'.withSize _).valid ?_, Or.inr ?_⟩
        · change sizeT (filled.size + size) ≤ filled.capacity
          rw [size_eq', capacity_eq', size_eq, capacity_eq, kept]
          exact room
        · intro others he
          cases he
          obtain ⟨_, hr, _⟩ := bind_ok hc
          exact require_ok hr

/-- The ways in which `assign` returns. -/
theorem assign_ok {b b' : Buffer} {data : Pointer} {size : Nat} {alloc done : Bool}
    (h : b.assign data size alloc = .ok (done, b')) (hf : b.Framed) :
    done = false ∧ b' = b.clear ∨ done = true ∧ b'.Valid ∧
      (size = 0 ∨ ∀ cells, data = some cells → size ≤ cells.length) :=
  (insert_ok h (hf.withSize 0)).2

/-- What `memmove` moves lies in the block, before and after. -/
theorem memmove_inside {b b' : Buffer} {target offset count : Nat} (h : b.memmove target offset count = .ok b') :
    count = 0 ∨ offset + count ≤ b.block.length ∧ target + count ≤ b.block.length := by
  obtain ⟨_, hr, stored⟩ := bind_ok h
  by_cases nothing_moved : count = 0
  · exact Or.inl nothing_moved
  · have readable := (require_ok hr).resolve_left nothing_moved
    refine Or.inr ⟨readable, ?_⟩
    have moved : ((b.block.drop offset).take count).length = count := by
      rw [List.length_take, List.length_drop]
      omega
    unfold storeCells at stored
    split at stored
    next empty =>
      rw [empty, List.length_nil] at moved
      exact absurd moved.symm nothing_moved
    next =>
      split at stored
      next => cases stored
      next block hd =>
        split at stored
        next room =>
          rw [moved] at room
          rw [Buffer.block, hd]
          exact room
        next => cases stored

/-- What `erase` asks for to keep the size within the capacity: a range whose end is a value of
`std::size_t`, or room behind the offset for all that is moved from where the end wraps around to. -/
def Erasable (b : Buffer) (offset size : Nat) : Prop :=
  offset + size < 2 ^ 64 ∨ offset + (b.size - sizeT (offset + size)) ≤ b.capacity

theorem sizeT_wrap {n : Nat} (wraps : 2 ^ 64 ≤ n) (below : n < 2 ^ 64 + 2 ^ 64) : sizeT n = n - 2 ^ 64 := by
  unfold sizeT
  omega

theorem erase_ok {b b' : Buffer} {offset size : Nat} (h : b.erase offset size = .ok b')
    (hf : b.Framed) (ho : offset < 2 ^ 64) (hs : size < 2 ^ 64) :
    b'.Framed ∧ (b'.size ≤ b'.capacity ↔ b.Erasable offset size) := by
  obtain ⟨_, ha, h⟩ := bind_ok h
  obtain ⟨_, hc, h⟩ := bind_ok h
  obtain ⟨moved, hm, h⟩ := bind_ok h
  cases h
  have inside := require_ok ha
  have size_le := require_ok hc
  have capacity_le := hf.capacity_le
  have maximum_lt := hf.maximum_lt
  obtain ⟨framed, size_eq, capacity_eq⟩ := memmove_framed hm hf
  refine ⟨framed.withSize _, ?_⟩
  change sizeDiff moved.size size ≤ moved.capacity ↔ _
  rw [size_eq, capacity_eq]
  unfold Erasable
  by_cases sum : offset + size < 2 ^ 64
  · rw [sizeT_of_lt sum] at inside
    have difference : sizeDiff b.size size = b.size - size := sizeDiff_of_le (by omega) (by omega)
    rw [difference]
    exact iff_of_true (by omega) (Or.inl sum)
  · have wrapped := sizeT_wrap (Nat.le_of_not_lt sum) (by omega)
    have count : sizeDiff b.size (sizeT (offset + size)) = b.size - sizeT (offset + size) :=
      sizeDiff_of_le (by omega) inside
    have stays := memmove_inside hm
    rw [count, hf.block_length] at stays
    rw [or_iff_right sum]
    -- The size becomes where the moved bytes end, unless they were moved in front of the block.
    rcases stays with nothing_moved | ⟨_, room⟩
    · have shifted : sizeDiff b.size size = offset := by
        unfold sizeDiff sizeT
        omega
      rw [shifted, nothing_moved, Nat.add_zero]
    · have shifted : sizeDiff b.size size = offset + (b.size - sizeT (offset + size)) := by
        unfold sizeDiff
        rw [sizeT_of_lt (by omega)]
        omega
      rw [shifted]

/-- An `erase` whose assertions hold goes well just when it is one that keeps the size. -/
theorem erase_sound_iff {b : Buffer} (hv : b.Valid) {offset size : Nat} (ho : offset < 2 ^ 64)
    (hs : size < 2 ^ 64) (inside : sizeT (offset + size) ≤ b.size) :
    (∃ b', b.erase offset size = .ok b' ∧ b'.size ≤ b'.capacity) ↔ b.Erasable offset size := by
  constructor
  · rintro ⟨b', he, within⟩
    exact (erase_ok he hv.framed ho hs).2.mp within
  · intro erasable
    have size_le := hv.size_le
    have capacity_le := hv.capacity_le
    have maximum_lt := hv.maximum_lt
    have count : sizeDiff b.size (sizeT (offset + size)) = b.size - sizeT (offset + size) :=
      sizeDiff_of_le (by omega) inside
    have room : offset + (b.size - sizeT (offset + size)) ≤ b.capacity := by
      rcases erasable with sum | room
      · rw [sizeT_of_lt sum] at inside ⊢
        omega
      · exact room
    have moves : ∃ moved, b.memmove offset (sizeT (offset + size)) (b.size - sizeT (offset + size)) = .ok moved := by
      by_cases null : b.data = none
      · have empty := hv.null.mp null
        have nothing_moved : b.size - sizeT (offset + size) = 0 := by omega
        rw [nothing_moved]
        exact ⟨b, memmove_nothing b _ _⟩
      · exact ⟨_, memmove_within hv null (by omega) room⟩
    obtain ⟨moved, hm⟩ := moves
    have he : b.erase offset size = .ok { moved with size := sizeDiff moved.size size } := by
      unfold erase
      rw [require_of inside, ok_bind, require_of size_le, ok_bind, count, hm]
      rfl
    exact ⟨_, he, (erase_ok he hv.framed ho hs).2.mpr erasable⟩

/-- What an `assign` from a buffer has read can be erased from it. -/
theorem erasable_of_read {b b' : Buffer} (hf : b.Framed) {offset size : Nat} (ho : offset < 2 ^ 64)
    (hs : size < 2 ^ 64) (h : size = 0 ∨ ∀ cells, b.pointer offset = some cells → size ≤ cells.length) :
    b'.Erasable offset size := by
  left
  have capacity_le := hf.capacity_le
  have maximum_lt := hf.maximum_lt
  have length := hf.block_length
  rcases h with rfl | readable
  · exact ho
  · unfold pointer at readable
    unfold Buffer.block at length
    split at readable
    next null =>
      by_cases first : offset = 0
      · omega
      · have nothing_read := readable [] (if_neg first)
        rw [List.length_nil] at nothing_read
        omega
    next block hd =>
      have within := readable _ rfl
      rw [hd, Option.getD_some] at length
      rw [List.length_drop] at within
      omega

theorem address_null {b : Buffer} {offset : Nat} (h : b.address offset = none) :
    b.data = none ∧ offset = 0 := by
  unfold address at h
  split at h
  next null => exact null
  next => cases h

section Overloads

variable {b b' : Buffer} {alloc done : Bool}

/-- A growing `realloc` that fails, or leaves no block, leaves the buffer as it was. -/
theorem grown_ok {type : ReallocType} (alloc : Bool) (grows : type ≠ .shrink) (hf : b.Framed) (h : b.size ≤ b.capacity)
    (capacity : Nat) :
    (b.realloc capacity type alloc).2.Valid ∧
      ((b.realloc capacity type alloc).1 = false → (b.realloc capacity type alloc).2 = b) ∧
      ∀ offset, (b.realloc capacity type alloc).2.address offset = none →
        (b.realloc capacity type alloc).2 = b := by
  have grown := reallocated hf capacity type alloc
  refine ⟨grown.framed.valid (grown.size_le h), grown.failed, ?_⟩
  intro offset null
  exact realloc_null b type grows capacity alloc (address_null null).1

theorem reserveWith_ok {capacity : Nat} (type : ReallocType) (grows : type ≠ .shrink)
    (h : pointing (b.reserveWith type capacity alloc) = .ok (done, b')) (hf : b.Framed) :
    b'.Valid ∧ (done = false → b' = b) := by
  obtain ⟨_, hr, h⟩ := bind_ok h
  cases h
  obtain ⟨_, hs, hr⟩ := bind_ok hr
  obtain ⟨valid, failed, null⟩ := grown_ok alloc grows hf (require_ok hs) capacity
  split at hr
  next call =>
    cases hr
    rw [call] at valid failed
    exact ⟨valid, fun _ => failed rfl⟩
  next call =>
    cases hr
    rw [call] at valid null
    exact ⟨valid, fun unheld => null _ (by simpa using unheld)⟩

theorem extendWith_ok {capacity : Nat} (type : ReallocType) (grows : type ≠ .shrink)
    (h : pointing (b.extendWith type capacity alloc) = .ok (done, b')) (hf : b.Framed) :
    b'.Valid ∧ (done = false → b' = b) := by
  obtain ⟨_, hr, h⟩ := bind_ok h
  cases h
  obtain ⟨_, hs, hr⟩ := bind_ok hr
  have size_le := require_ok hs
  obtain ⟨valid, failed, null⟩ := grown_ok alloc grows hf size_le (sizeT (b.size + capacity))
  split at hr
  next =>
    split at hr
    next call =>
      cases hr
      rw [call] at valid failed
      exact ⟨valid, fun _ => failed rfl⟩
    next call =>
      cases hr
      rw [call] at valid null
      exact ⟨valid, fun unheld => null _ (by simpa using unheld)⟩
  next =>
    cases hr
    exact ⟨hf.valid size_le, fun _ => rfl⟩

theorem resizeWith_ok {size : Nat} (type : ReallocType)
    (h : pointing (b.resizeWith type size alloc) = .ok (done, b')) (hf : b.Framed) :
    b'.Valid ∧ (done = false → b' = b) := by
  obtain ⟨_, hr, h⟩ := bind_ok h
  cases h
  obtain ⟨_, hs, hr⟩ := bind_ok hr
  have size_le := require_ok hs
  have grown := reallocated hf size type alloc
  split at hr
  next positive =>
    split at hr
    next call =>
      cases hr
      rw [call] at grown
      exact ⟨grown.framed.valid (grown.size_le size_le), fun _ => grown.failed rfl⟩
    next g call =>
      cases hr
      rw [call] at grown
      have room := grown.room rfl
      refine ⟨(grown.framed.withSize size).valid room, fun null => ?_⟩
      have zero := grown.framed.null.mp (address_null (by simpa using null)).1
      omega
  next zero =>
    cases hr
    have empty : size = 0 := by omega
    rw [empty]
    refine ⟨hf.clear_valid, fun null => ?_⟩
    have capacity := hf.null.mp (address_null (by simpa using null)).1
    have nothing_held : b.size = 0 := by omega
    rw [← nothing_held]

theorem shrink_ok (h : b.shrink alloc = .ok b') (hf : b.Framed) : b'.Valid := by
  obtain ⟨_, hs, h⟩ := bind_ok h
  have size_le := require_ok hs
  split at h
  next =>
    cases h
    exact hf.reset_valid
  next =>
    cases h
    have shrunk := reallocated hf b.size .shrink alloc
    exact shrunk.framed.valid (shrunk.size_le size_le)

end Overloads

theorem constructWith_ok {constructor : Constructor} {alloc done : Bool} {b : Buffer}
    (h : constructWith alloc constructor = .ok (done, b)) (sized : constructor.Sized) : b.Valid := by
  cases constructor with
  | default =>
    cases h
    exact valid_empty
  | maximum reservation maximum =>
    cases h
    exact (construct_holds sized.2 reservation alloc).valid
  | reservation reservation =>
    cases h
    exact (reserve_holds holds_empty reservation alloc).valid
  | data data size =>
    rcases assign_ok h valid_empty.framed with ⟨_, rfl⟩ | ⟨_, valid, _⟩
    · exact valid_empty.framed.clear_valid
    · exact valid

def Call.Meets (b : Buffer) : Call → Prop
  | .erase offset size => b.Erasable offset size
  | _ => True

theorem call_ok {b b' : Buffer} {c : Call} {alloc done : Bool} (h : b.call alloc c = .ok (done, b'))
    (hf : b.Framed) (sized : c.Sized) :
    b'.Framed ∧ (b'.size ≤ b'.capacity ↔ c.Meets b) := by
  have sound : b'.Valid → b'.Framed ∧ (b'.size ≤ b'.capacity ↔ True) :=
    fun valid => ⟨valid.framed, iff_of_true valid.size_le trivial⟩
  cases c with
  | reset =>
    cases h
    exact sound hf.reset_valid
  | clear =>
    cases h
    exact sound hf.clear_valid
  | shrink =>
    obtain ⟨_, hc, h⟩ := bind_ok h
    cases h
    exact sound (shrink_ok hc hf)
  | reserve capacity => exact sound (reserveWith_ok .grow nofun h hf).1
  | reserveZeroed capacity => exact sound (reserveWith_ok .growZeroed nofun h hf).1
  | extend capacity => exact sound (extendWith_ok .grow nofun h hf).1
  | extendZeroed capacity => exact sound (extendWith_ok .growZeroed nofun h hf).1
  | resize size => exact sound (resizeWith_ok .grow h hf).1
  | resizeZeroed size => exact sound (resizeWith_ok .growZeroed h hf).1
  | assign data size =>
    apply sound
    rcases assign_ok h hf with ⟨_, rfl⟩ | ⟨_, valid, _⟩
    · exact hf.clear_valid
    · exact valid
  | append data size =>
    apply sound
    obtain ⟨size_le, ⟨_, rfl⟩ | ⟨_, valid, _⟩⟩ := insert_ok h hf
    · exact hf.valid size_le
    · exact valid
  | insert offset data size =>
    apply sound
    obtain ⟨size_le, ⟨_, rfl⟩ | ⟨_, valid, _⟩⟩ := insert_ok h hf
    · exact hf.valid size_le
    · exact valid
  | erase offset size =>
    obtain ⟨_, hc, h⟩ := bind_ok h
    cases h
    exact erase_ok hc hf sized.1 sized.2

end Steps

section Transfers

theorem sizeT_lt (n : Nat) : sizeT n < 2 ^ 64 := Nat.mod_lt n (Nat.two_pow_pos 64)

theorem sentinelSize_lt (offset position : Nat) (sentinel : List Byte) (includeSentinel : Bool) :
    sentinelSize offset position sentinel includeSentinel < 2 ^ 64 := by
  unfold sentinelSize
  split
  · exact sizeT_lt _
  · exact sizeT_lt _

variable {b b' buffer buffer' : Buffer} {alloc done : Bool}

/-- The ways in which an `assign` from a buffer, followed by an `erase` from it, returns. -/
theorem assign_erase_ok {offset size : Nat} (hb : b.Framed) (hf : buffer.Framed) (ho : offset < 2 ^ 64)
    (hs : size < 2 ^ 64)
    (h : (do
      match ← buffer.assign (b.pointer offset) size alloc with
      | (false, buffer) => return (false, b, buffer)
      | (true, buffer) => return (true, ← b.erase offset size, buffer) :
        Checked (Bool × Buffer × Buffer)) = .ok (done, b', buffer')) :
    done = false ∧ b' = b ∧ buffer' = buffer.clear ∨
      done = true ∧ b'.Valid ∧ buffer'.Valid := by
  obtain ⟨⟨filled, result⟩, ha, h⟩ := bind_ok h
  rcases assign_ok ha hf with ⟨rfl, rfl⟩ | ⟨rfl, valid, read⟩
  · cases h
    exact Or.inl ⟨rfl, rfl, rfl⟩
  · obtain ⟨erased, he, h⟩ := bind_ok h
    cases h
    obtain ⟨framed, within⟩ := erase_ok he hb ho hs
    exact Or.inr ⟨rfl, framed.valid (within.mpr (erasable_of_read hb ho hs read)), valid⟩

/-- The same where the buffer is given to itself. -/
theorem assign_erase_self_ok {offset size : Nat} (hb : b.Framed) (ho : offset < 2 ^ 64)
    (hs : size < 2 ^ 64)
    (h : (do
      match ← b.assign (b.pointer offset) size alloc with
      | (false, b) => return (false, b)
      | (true, b) => return (true, ← b.erase offset size) : Checked (Bool × Buffer)) = .ok (done, b')) :
    done = false ∧ b' = b.clear ∨ done = true ∧ b'.Valid := by
  obtain ⟨⟨filled, result⟩, ha, h⟩ := bind_ok h
  rcases assign_ok ha hb with ⟨rfl, rfl⟩ | ⟨rfl, valid, read⟩
  · cases h
    exact Or.inl ⟨rfl, rfl⟩
  · obtain ⟨erased, he, h⟩ := bind_ok h
    cases h
    obtain ⟨framed, within⟩ := erase_ok he valid.framed ho hs
    exact Or.inr ⟨rfl, framed.valid (within.mpr (erasable_of_read hb ho hs read))⟩

/-- The ways in which a transfer between two buffers returns. -/
theorem transfer_ok {t : Transfer} {garbage : Nat → Byte}
    (h : b.transfer buffer alloc garbage t = .ok (done, b', buffer')) (hb : b.Framed)
    (hf : buffer.Framed) (sized : t.Sized) :
    done = false ∧ b' = b ∧ buffer' = buffer.clear ∨
      done = true ∧ (b' = b ∨ b'.Valid) ∧ buffer'.Valid := by
  cases t with
  | copy =>
    obtain ⟨⟨filled, result⟩, ha, h⟩ := bind_ok h
    cases h
    rcases assign_ok ha hf with ⟨rfl, rfl⟩ | ⟨rfl, valid, _⟩
    · exact Or.inl ⟨rfl, rfl, rfl⟩
    · exact Or.inr ⟨rfl, Or.inl rfl, valid⟩
  | copyRange offset size =>
    obtain ⟨⟨filled, result⟩, hc, h⟩ := bind_ok h
    cases h
    obtain ⟨_, _, ha⟩ := bind_ok hc
    rcases assign_ok ha hf with ⟨rfl, rfl⟩ | ⟨rfl, valid, _⟩
    · exact Or.inl ⟨rfl, rfl, rfl⟩
    · exact Or.inr ⟨rfl, Or.inl rfl, valid⟩
  | extract offset size =>
    obtain ⟨_, _, he⟩ := bind_ok h
    exact (assign_erase_ok hb hf sized.1 sized.2 he).imp_right fun moved =>
      ⟨moved.1, Or.inr moved.2.1, moved.2.2⟩
  | extractSentinel offset sentinel includeSentinel =>
    obtain ⟨_, _, h⟩ := bind_ok h
    obtain ⟨view, _, h⟩ := bind_ok h
    split at h
    next position _ =>
      obtain ⟨_, _, he⟩ := bind_ok h
      have size := sentinelSize_lt offset position sentinel includeSentinel
      exact (assign_erase_ok hb hf sized.1 size he).imp_right fun moved =>
        ⟨moved.1, Or.inr moved.2.1, moved.2.2⟩
    next =>
      cases h
      exact Or.inr ⟨rfl, Or.inl rfl, hf.clear_valid⟩

theorem transferSelf_ok {t : Transfer} {garbage : Nat → Byte}
    (h : b.transferSelf alloc garbage t = .ok (done, b')) (hb : b.Framed) (sized : t.Sized) :
    done = false ∧ b' = b.clear ∨ done = true ∧ b'.Valid := by
  cases t with
  | copy => exact (assign_ok h hb).imp_right fun filled => ⟨filled.1, filled.2.1⟩
  | copyRange offset size =>
    obtain ⟨_, _, ha⟩ := bind_ok h
    exact (assign_ok ha hb).imp_right fun filled => ⟨filled.1, filled.2.1⟩
  | extract offset size =>
    obtain ⟨_, _, he⟩ := bind_ok h
    exact assign_erase_self_ok hb sized.1 sized.2 he
  | extractSentinel offset sentinel includeSentinel =>
    obtain ⟨_, _, h⟩ := bind_ok h
    obtain ⟨view, _, h⟩ := bind_ok h
    split at h
    next position _ =>
      obtain ⟨_, _, he⟩ := bind_ok h
      exact assign_erase_self_ok hb sized.1 (sentinelSize_lt offset position sentinel includeSentinel) he
    next =>
      cases h
      exact Or.inr ⟨rfl, hb.clear_valid⟩

end Transfers

section Runs

variable {ι : Type} [DecidableEq ι] {s t : Objects ι}

def Everywhere (good : Buffer → Prop) (s : Objects ι) : Prop := ∀ i b, s i = some b → good b

theorem Everywhere.put {good : Buffer → Prop} (h : Everywhere good s) (i : ι) {b : Buffer} (hb : good b) :
    Everywhere good (update s i (some b)) := by
  intro k b' hk
  by_cases same : k = i
  · rw [same, update_self] at hk
    cases hk
    exact hb
  · rw [update_of_ne same] at hk
    exact h k b' hk

theorem Everywhere.remove {good : Buffer → Prop} (h : Everywhere good s) (i : ι) :
    Everywhere good (update s i none) := by
  intro k b' hk
  by_cases same : k = i
  · rw [same, update_self] at hk
    cases hk
  · rw [update_of_ne same] at hk
    exact h k b' hk

omit [DecidableEq ι] in
theorem object_ok {i : ι} {b : Buffer} (h : object s i = .ok b) : s i = some b := by
  unfold object at h
  split at h
  next hb =>
    cases h
    exact hb
  next => cases h

theorem act_call {i : ι} {b : Buffer} (hb : s i = some b) (alloc nothrow : Bool) (garbage : Nat → Byte) (c : Call) :
    act s alloc garbage (.call i nothrow c) = b.call alloc c >>= fun result =>
      .ok (report nothrow c.throws result.1, update s i (some result.2)) := by
  have here : object s i = .ok b := by
    unfold object
    rw [hb]
  show (object s i >>= fun b => b.call alloc c >>= _) = _
  rw [here, ok_bind]
  rfl

/-- A buffer that is valid, or has been there before. -/
def Renewed (s : Objects ι) (b : Buffer) : Prop := b.Valid ∨ ∃ j, s j = some b

omit [DecidableEq ι] in
/-- What is left of a buffer that has been read from. -/
theorem renewed_rest {i : ι} {b b' : Buffer} (here : s i = some b) (rest : b' = b ∨ b'.Valid) : Renewed s b' := by
  rcases rest with rfl | valid
  · exact Or.inr ⟨i, here⟩
  · exact Or.inl valid

/-- An action leaves behind valid buffers and such as were there before, unless it is an `erase`. -/
theorem performs_cases {action : Action ι} {report : Report} (hs : Everywhere Framed s)
    (h : Performs s action report t) :
    Everywhere (Renewed s) t ∨ ∃ i nothrow offset size b b',
      action = .call i nothrow (.erase offset size) ∧ s i = some b ∧ b.erase offset size = .ok b' ∧
        t = update s i (some b') := by
  obtain ⟨sized, alloc, garbage, h⟩ := h
  have old : Everywhere (Renewed s) s := fun j b hj => Or.inr ⟨j, hj⟩
  cases action with
  | construct i constructor =>
    left
    obtain ⟨_, _, h⟩ := bind_ok h
    obtain ⟨⟨done, b⟩, hc, h⟩ := bind_ok h
    cases h
    split
    · exact old.put i (Or.inl (constructWith_ok hc sized))
    · exact old
  | destroy i =>
    left
    obtain ⟨_, _, h⟩ := bind_ok h
    cases h
    exact old.remove i
  | call i nothrow c =>
    obtain ⟨b, hb, h⟩ := bind_ok h
    obtain ⟨⟨done, b'⟩, hc, h⟩ := bind_ok h
    cases h
    have here := object_ok hb
    obtain ⟨framed, within⟩ := call_ok hc (hs i b here) sized
    cases c with
    | erase offset size =>
      right
      obtain ⟨_, he, hc⟩ := bind_ok hc
      cases hc
      exact ⟨i, nothrow, offset, size, b, b', rfl, here, he, rfl⟩
    | _ =>
      left
      exact old.put i (Or.inl (framed.valid (within.mpr trivial)))
  | transfer i nothrow t j =>
    left
    obtain ⟨b, hb, h⟩ := bind_ok h
    obtain ⟨buffer, hj, h⟩ := bind_ok h
    have first := object_ok hb
    have second := object_ok hj
    split at h
    next =>
      obtain ⟨⟨done, b'⟩, ht, h⟩ := bind_ok h
      cases h
      apply old.put
      rcases transferSelf_ok ht (hs i b first) sized with ⟨_, rfl⟩ | ⟨_, valid⟩
      · exact Or.inl (hs i b first).clear_valid
      · exact Or.inl valid
    next =>
      obtain ⟨⟨done, b', buffer'⟩, ht, h⟩ := bind_ok h
      cases h
      rcases transfer_ok ht (hs i b first) (hs j buffer second) sized with ⟨_, rfl, rfl⟩ | ⟨_, rest, valid⟩
      · exact (old.put i (old i _ first)).put j (Or.inl (hs j buffer second).clear_valid)
      · exact (old.put i (renewed_rest first rest)).put j (Or.inl valid)
  | transferNew i t j =>
    left
    obtain ⟨b, hb, h⟩ := bind_ok h
    obtain ⟨_, _, h⟩ := bind_ok h
    obtain ⟨⟨done, b', buffer'⟩, ht, h⟩ := bind_ok h
    cases h
    have first := object_ok hb
    rcases transfer_ok ht (hs i b first) valid_empty.framed sized with ⟨rfl, rfl, _⟩ | ⟨rfl, rest, valid⟩
    · exact old.put i (old i _ first)
    · exact (old.put i (renewed_rest first rest)).put j (Or.inl valid)
  | moveConstruct i j =>
    left
    obtain ⟨that, hj, h⟩ := bind_ok h
    obtain ⟨_, _, h⟩ := bind_ok h
    cases h
    have second := object_ok hj
    exact (old.put j (Or.inl (hs j that second).reset_valid)).put i (old j that second)
  | moveAssign i j =>
    left
    obtain ⟨b, hb, h⟩ := bind_ok h
    obtain ⟨that, hj, h⟩ := bind_ok h
    have first := object_ok hb
    have second := object_ok hj
    split at h
    next =>
      cases h
      exact old.put i (Or.inl (hs i b first).reset_valid)
    next =>
      cases h
      exact (old.put j (Or.inl (hs j that second).reset_valid)).put i (old j that second)

theorem performed_framed {action : Action ι} (hs : Everywhere Framed s) (h : Performed s action t) :
    Everywhere Framed t := by
  obtain ⟨report, h⟩ := h
  rcases performs_cases hs h with renewed | ⟨i, _, offset, size, b, b', rfl, hb, he, rfl⟩
  · intro k b hk
    rcases renewed k b hk with valid | ⟨j, hj⟩
    · exact valid.framed
    · exact hs j b hj
  · exact hs.put i (erase_ok he (hs i b hb) h.1.1 h.1.2).1

/-- The condition on an action under which no size leaves its capacity. -/
def Action.Meets (s : Objects ι) : Action ι → Prop
  | .call i _ c => ∀ b, s i = some b → c.Meets b
  | _ => True

theorem performed_valid_iff {action : Action ι} (hs : Everywhere Valid s) (h : Performed s action t) :
    Everywhere Valid t ↔ action.Meets s := by
  obtain ⟨report, h⟩ := h
  have framed : Everywhere Framed s := fun i b hb => (hs i b hb).framed
  by_cases erases : ∃ i nothrow offset size, action = .call i nothrow (.erase offset size)
  · obtain ⟨i, nothrow, offset, size, rfl⟩ := erases
    obtain ⟨sized, alloc, garbage, h⟩ := h
    obtain ⟨b, hb, h⟩ := bind_ok h
    obtain ⟨⟨done, b'⟩, hc, h⟩ := bind_ok h
    cases h
    have here := object_ok hb
    obtain ⟨kept, within⟩ := call_ok hc (framed i b here) sized
    constructor
    · intro valid b₀ hb₀
      rw [here] at hb₀
      cases hb₀
      exact within.mp (valid i b' (update_self i (some b') s)).size_le
    · intro meets
      exact hs.put i (kept.valid (within.mpr (meets b here)))
  · refine iff_of_true ?_ ?_
    · rcases performs_cases framed h with renewed | ⟨i, nothrow, offset, size, _, _, rfl, _⟩
      · intro k b hk
        rcases renewed k b hk with valid | ⟨j, hj⟩
        · exact valid
        · exact hs j b hj
      · exact absurd ⟨i, nothrow, offset, size, rfl⟩ erases
    · cases action with
      | call i nothrow c =>
        cases c with
        | erase offset size => exact absurd ⟨i, nothrow, offset, size, rfl⟩ erases
        | _ => exact fun _ _ => trivial
      | _ => exact trivial

structure Invariant (b : Buffer) : Prop where
  size_le : b.size ≤ b.capacity
  capacity_le : b.capacity ≤ b.maximum
  null : b.data = none ↔ b.capacity = 0

def Start : Objects ι := fun _ => none

omit [DecidableEq ι] in
theorem everywhere_start (good : Buffer → Prop) : Everywhere good (Start : Objects ι) := nofun

theorem framed_of_run {labels : List (Action ι)} (run : Run Performed Start labels s) :
    Everywhere Framed s :=
  run.invariant (everywhere_start _) performed_framed

omit [DecidableEq ι] in
theorem invariant_valid_iff (hf : Everywhere Framed s) : Everywhere Invariant s ↔ Everywhere Valid s := by
  constructor
  · intro h i b hb
    exact (hf i b hb).valid (h i b hb).size_le
  · intro h i b hb
    exact ⟨(h i b hb).size_le, (h i b hb).capacity_le, (h i b hb).null⟩

/-- In a run in which every `erase` meets the condition the invariant holds of all buffers, and a further
action that returns keeps it if and only if it meets the condition too; an `erase` whose assertions hold
returns, and keeps it, just then. -/
theorem invariant_iff {labels : List (Action ι)}
    (run : Run (Restrict (fun s action => action.Meets s) Performed) Start labels s) :
    Everywhere Invariant s ∧
      (∀ action t, Performed s action t → (Everywhere Invariant t ↔ action.Meets s)) ∧
        ∀ i nothrow offset size b, s i = some b → offset < 2 ^ 64 → size < 2 ^ 64 →
          sizeT (offset + size) ≤ b.size →
          ((∃ t, Performed s (.call i nothrow (.erase offset size)) t ∧ Everywhere Invariant t) ↔
            b.Erasable offset size) := by
  have valid : Everywhere Valid s := by
    refine run.invariant (everywhere_start _) ?_
    rintro s action t hs ⟨meets, h⟩
    exact (performed_valid_iff hs h).mpr meets
  have framed : Everywhere Framed s := fun i b hb => (valid i b hb).framed
  have kept {action : Action ι} {t : Objects ι} (h : Performed s action t) :
      Everywhere Invariant t ↔ action.Meets s := by
    rw [invariant_valid_iff (performed_framed framed h)]
    exact performed_valid_iff valid h
  refine ⟨(invariant_valid_iff framed).mpr valid, fun action t h => kept h, ?_⟩
  intro i nothrow offset size b hb ho hs inside
  constructor
  · rintro ⟨t, h, sound⟩
    exact (kept h).mp sound b hb
  · intro erasable
    obtain ⟨b', he, _⟩ := (erase_sound_iff (valid i b hb) ho hs inside).mpr erasable
    have h : Performed s (.call i nothrow (.erase offset size)) (update s i (some b')) := by
      refine ⟨report nothrow false true, ⟨ho, hs⟩, true, fun _ => 0, ?_⟩
      rw [act_call hb, call, he]
      rfl
    refine ⟨_, h, (kept h).mpr fun b₀ hb₀ => ?_⟩
    cases hb.symm.trans hb₀
    exact erasable

def filled : Buffer := { data := some [some 97, some 98], capacity := 2, size := 2 }

theorem construct_performed :
    Performed Start (.construct () (.data (some [some 97, some 98]) 2)) (update Start () (some filled)) := by
  refine ⟨.returned true, ?_, true, fun _ => 0, rfl⟩
  change 2 < 2 ^ 64
  omega

/-- `Buffer b("ab"); b.erase(3, SIZE_MAX);` The end of the range wraps around to the size: nothing is moved,
and the size grows to 3. -/
theorem erase_wraps :
    ¬∀ (labels : List (Action Unit)) (s : Objects Unit), Run Performed Start labels s →
      Everywhere Invariant s := by
  intro h
  have wraps : Performed (update Start () (some filled)) (.call () true (.erase 3 (2 ^ 64 - 1)))
      (update (update Start () (some filled)) () (some { filled with size := 3 })) := by
    refine ⟨.returned true, ⟨?_, ?_⟩, true, fun _ => 0, rfl⟩
    · omega
    · omega
  have run := (Run.start.next construct_performed).next wraps
  have within := (h _ _ run () { filled with size := 3 } (update_self () _ _)).size_le
  have beyond : ¬3 ≤ 2 := by decide
  exact beyond within

theorem invariant_iff_erase :
    ∃ (labels : List (Action Unit)) (s : Objects Unit),
      Run (Restrict (fun s action => action.Meets s) Performed) Start labels s ∧
        Everywhere Invariant s ∧ s () = some { filled with data := some [some 98, some 98], size := 1 } := by
  have erases : Performed (update Start () (some filled)) (.call () true (.erase 0 1))
      (update (update Start () (some filled)) ()
        (some { filled with data := some [some 98, some 98], size := 1 })) := by
    refine ⟨.returned true, ⟨?_, ?_⟩, true, fun _ => 0, rfl⟩
    · exact Nat.two_pow_pos 64
    · omega
  have meets : (Action.call () true (.erase 0 1)).Meets (update Start () (some filled)) :=
    fun b _ => Or.inl (by omega)
  have constructed : (Action.construct () (.data (some [some 97, some 98]) 2)).Meets Start := trivial
  have run : Run (Restrict (fun s action => action.Meets s) Performed) Start _ _ :=
    (Run.start.next ⟨constructed, construct_performed⟩).next ⟨meets, erases⟩
  exact ⟨_, _, run, (invariant_iff run).1, update_self () _ _⟩

end Runs

end Buffer

end Hlib
