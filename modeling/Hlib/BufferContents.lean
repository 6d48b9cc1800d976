import Hlib.BufferEdit

namespace Hlib

open Overwrite Delimiter

namespace Buffer

section Store

def stored (b : Buffer) (offset : Nat) (cells : List Cell) : Buffer :=
  { b with data := some (overwrite b.block offset cells) }

theorem storeCells_within {b : Buffer} (hv : b.Valid) (present : b.data ≠ none) {offset : Nat}
    {cells : List Cell} (room : offset + cells.length ≤ b.capacity) :
    b.storeCells offset cells = .ok (b.stored offset cells) := by
  obtain ⟨block, hd⟩ := Option.ne_none_iff_exists'.mp present
  have same : b.block = block := by
    rw [Buffer.block, hd]
    rfl
  have length := hv.block_length
  rw [same] at length
  rw [← length] at room
  unfold storeCells stored
  rw [same]
  cases cells with
  | nil => rw [overwrite_nil, ← hd]
  | cons cell cells => simp only [hd, if_pos room]

theorem memmove_within {b : Buffer} (hv : b.Valid) (present : b.data ≠ none) {target offset count : Nat}
    (source : offset + count ≤ b.capacity) (room : target + count ≤ b.capacity) :
    b.memmove target offset count = .ok (b.stored target ((b.block.drop offset).take count)) := by
  have length := hv.block_length
  have moved : ((b.block.drop offset).take count).length = count := by
    rw [List.length_take, List.length_drop]
    omega
  have readable : count = 0 ∨ offset + count ≤ b.block.length := by
    right
    omega
  unfold memmove
  rw [require_of readable, ok_bind]
  exact storeCells_within hv present (by omega)

theorem memcpy_within {b : Buffer} (hv : b.Valid) (present : b.data ≠ none) {target count : Nat}
    {data : List Cell} (source : count ≤ data.length) (room : target + count ≤ b.capacity) :
    b.memcpy target data count = .ok (b.stored target (data.take count)) := by
  have copied : (data.take count).length = count := by
    rw [List.length_take]
    omega
  unfold memcpy
  rw [require_of source, ok_bind]
  exact storeCells_within hv present (by omega)

end Store

theorem Holds.length_lt {b : Buffer} {p : List Byte} (h : b.Holds p) : p.length < 2 ^ 64 := by
  have size := h.size
  have size_le := h.valid.size_le
  have capacity_le := h.valid.capacity_le
  have maximum_lt := h.valid.maximum_lt
  omega

section Insert

/-- A pointer behind which the bytes can be read. -/
def Supplies (data : Pointer) (bytes : List Byte) : Prop :=
  bytes ≠ [] → ∃ cells, data = some cells ∧ bytes.map some <+: cells

theorem supplies_bytes (bytes : List Byte) : Supplies (some (bytes.map some)) bytes :=
  fun _ => ⟨_, rfl, List.prefix_refl _⟩

theorem supplies_pointer {b : Buffer} {p : List Byte} (h : b.Holds p) {offset size : Nat}
    (inside : offset + size ≤ p.length) : Supplies (b.pointer offset) ((p.drop offset).take size) := by
  intro given
  have positive : 0 < size := by
    apply Nat.pos_of_ne_zero
    rintro rfl
    exact given List.take_zero
  have size_le := h.valid.size_le
  have present : b.data ≠ none := by
    apply h.valid.present
    have := h.size
    omega
  obtain ⟨block, hd⟩ := Option.ne_none_iff_exists'.mp present
  have same : b.block = block := by
    rw [Buffer.block, hd]
    rfl
  refine ⟨block.drop offset, ?_, ?_⟩
  · unfold pointer
    rw [hd]
  · have contents := h.contents
    rw [Buffer.contents, same, h.size] at contents
    have cut : ((p.drop offset).take size).map some = (block.drop offset).take size := by
      rw [List.map_take, List.map_drop, ← contents, List.drop_take, List.take_take,
        Nat.min_eq_left (by omega)]
    rw [cut]
    exact List.take_prefix _ _

/-- What `insert` does once there is room: it moves the tail up and copies the bytes. -/
theorem insert_stored {b : Buffer} {p : List Byte} (h : b.Holds p) {grown : Buffer} {offset : Nat}
    {bytes : List Byte} (inside : offset ≤ p.length) (grows : Grown b grown (b.size + bytes.length))
    (present : grown.data ≠ none) (small : b.size + bytes.length < 2 ^ 64) :
    ∃ moved, grown.memmove (offset + bytes.length) offset (sizeDiff grown.size offset) = .ok moved ∧
      moved.Valid ∧ moved.data ≠ none ∧ moved.size = b.size ∧ moved.capacity = grown.capacity ∧
      ({ moved.stored offset (bytes.map some) with size := b.size + bytes.length } : Buffer).Holds
        (p.take offset ++ bytes ++ p.drop offset) := by
  have size := h.size
  have size_le := h.valid.size_le
  have capacity := grows.capacity h.valid
  have difference : sizeDiff grown.size offset = b.size - offset := by
    rw [grows.size]
    exact sizeDiff_of_le (by omega) (by omega)
  have length := grows.valid.block_length
  have cellCount : (bytes.map some).length = bytes.length := List.length_map _
  have source : offset + (b.size - offset) ≤ grown.capacity := by omega
  have target : offset + bytes.length + (b.size - offset) ≤ grown.capacity := by omega
  have move := memmove_within grows.valid present source target
  have valid : (grown.stored (offset + bytes.length) ((grown.block.drop offset).take (b.size - offset))).Valid := by
    refine valid_store grows.valid ?_ present
    rw [List.length_take, List.length_drop]
    omega
  refine ⟨_, by rw [difference]; exact move, valid, nofun, grows.size, rfl, ?_⟩
  have gap : offset + (bytes.map some).length ≤ grown.capacity := by omega
  have stored := valid_store valid gap nofun
  refine ⟨⟨stored.null, stored.block_length, ?_, stored.capacity_le, stored.maximum_lt⟩, ?_⟩
  · change b.size + bytes.length ≤ grown.capacity
    omega
  · have room : b.size + (bytes.map some).length ≤ grown.block.length := by omega
    have below : offset ≤ b.size := by omega
    have spliced := overwrite_splice below room
    rw [cellCount, grows.take_block h.valid, h.contents] at spliced
    rw [List.map_append, List.map_append, List.map_take, List.map_drop]
    exact spliced

theorem insert_cases {b : Buffer} {p : List Byte} (h : b.Holds p) {offset : Nat}
    (inside : offset ≤ p.length) {data : Pointer} {bytes : List Byte} (supplies : Supplies data bytes)
    (small : p.length + bytes.length < 2 ^ 64) (alloc : Bool) :
    b.insert offset data bytes.length alloc = .ok (false, b) ∨
      ∃ b', b.insert offset data bytes.length alloc = .ok (true, b') ∧
        b'.Holds (p.take offset ++ bytes ++ p.drop offset) := by
  have size := h.size
  have size_le := h.valid.size_le
  rw [← size] at small
  have below : offset ≤ b.size := by omega
  unfold insert
  rw [require_of below, ok_bind, require_of size_le, ok_bind]
  by_cases empty : bytes = []
  · right
    refine ⟨b, if_pos (by rw [empty]; rfl), ?_⟩
    rwa [empty, List.append_nil, List.take_append_drop]
  · have positive : bytes.length ≠ 0 := fun zero => empty (List.length_eq_zero_iff.mp zero)
    rw [if_neg positive, sizeT_of_lt small]
    rcases realloc_grow_cases h.valid (b.size + bytes.length) alloc with failed | ⟨grown, done, grows, room⟩
    · left
      rw [failed]
      rfl
    · right
      rw [done]
      have capacity := grows.capacity h.valid
      have filled : grown.data ≠ none := room (by omega)
      obtain ⟨cells, hd, before⟩ := supplies empty
      obtain ⟨moved, move, valid, present, hs, hc, holds⟩ :=
        insert_stored h inside grows filled small
      have read := before.length_le
      have copied : cells.take bytes.length = bytes.map some := by
        rw [List.prefix_iff_eq_take.mp before, List.length_map]
      rw [List.length_map] at read
      have ends : sizeT (offset + bytes.length) = offset + bytes.length := sizeT_of_lt (by omega)
      refine ⟨_, ?_, holds⟩
      simp only [hd]
      rw [ends, move, ok_bind, memcpy_within valid present read (by omega), ok_bind, copied]
      have last : sizeT ((moved.stored offset (bytes.map some)).size + bytes.length) =
          b.size + bytes.length := by
        change sizeT (moved.size + bytes.length) = _
        rw [hs, sizeT_of_lt small]
      rw [last]
      rfl

theorem append_cases {b : Buffer} {p : List Byte} (h : b.Holds p) {data : Pointer} {bytes : List Byte}
    (supplies : Supplies data bytes) (small : p.length + bytes.length < 2 ^ 64) (alloc : Bool) :
    b.append data bytes.length alloc = .ok (false, b) ∨
      ∃ b', b.append data bytes.length alloc = .ok (true, b') ∧ b'.Holds (p ++ bytes) := by
  have size := h.size
  have inside : b.size ≤ p.length := by omega
  rcases insert_cases h inside supplies small alloc with failed | ⟨b', done, holds⟩
  · exact Or.inl failed
  · right
    refine ⟨b', done, ?_⟩
    rwa [size, List.take_length, List.drop_length, List.append_nil] at holds

theorem clear_holds {b : Buffer} (hv : b.Valid) : b.clear.Holds [] :=
  ⟨⟨hv.null, hv.block_length, Nat.zero_le _, hv.capacity_le, hv.maximum_lt⟩, rfl⟩

theorem reset_holds {b : Buffer} (hv : b.Valid) : b.reset.Holds [] :=
  ⟨⟨iff_of_true rfl rfl, rfl, Nat.le_refl _, Nat.zero_le _, hv.maximum_lt⟩, rfl⟩

theorem assign_cases {b : Buffer} (hv : b.Valid) {data : Pointer} {bytes : List Byte}
    (supplies : Supplies data bytes) (small : bytes.length < 2 ^ 64) (alloc : Bool) :
    b.assign data bytes.length alloc = .ok (false, b.clear) ∨
      ∃ b', b.assign data bytes.length alloc = .ok (true, b') ∧ b'.Holds bytes := by
  have fits : ([] : List Byte).length + bytes.length < 2 ^ 64 := by
    rw [List.length_nil]
    omega
  exact append_cases (clear_holds hv) supplies fits alloc

end Insert

section Erase

theorem memmove_nothing (b : Buffer) (target offset : Nat) : b.memmove target offset 0 = .ok b := by
  unfold memmove
  rw [require_of (Or.inl rfl), ok_bind, List.take_zero]
  rfl

theorem erase_holds {b : Buffer} {p : List Byte} (h : b.Holds p) {offset size : Nat}
    (inside : offset + size ≤ p.length) :
    ∃ b', b.erase offset size = .ok b' ∧ b'.Holds (p.take offset ++ p.drop (offset + size)) := by
  have hs := h.size
  have size_le := h.valid.size_le
  have capacity_le := h.valid.capacity_le
  have maximum_lt := h.valid.maximum_lt
  have sum : sizeT (offset + size) = offset + size := sizeT_of_lt (by omega)
  have below : offset + size ≤ b.size := by omega
  have shorter : sizeDiff b.size size = b.size - size := sizeDiff_of_le (by omega) (by omega)
  unfold erase
  rw [sum, require_of below, ok_bind, require_of size_le, ok_bind, sizeDiff_of_le (by omega) below]
  by_cases null : b.data = none
  · have capacity := h.valid.null.mp null
    have nothing_left : b.size - (offset + size) = 0 := by omega
    have empty : p = [] := List.length_eq_zero_iff.mp (by omega)
    have same : b.size - size = b.size := by omega
    rw [nothing_left, memmove_nothing, ok_bind, shorter, same]
    refine ⟨b, rfl, ?_⟩
    rw [empty] at h ⊢
    rwa [List.take_nil, List.drop_nil]
  · have source : offset + size + (b.size - (offset + size)) ≤ b.capacity := by omega
    have target : offset + (b.size - (offset + size)) ≤ b.capacity := by omega
    have length := h.valid.block_length
    rw [memmove_within h.valid null source target, ok_bind]
    refine ⟨{ b.stored offset _ with size := b.size - size }, by rw [← shorter]; rfl, ?_⟩
    have room : offset + ((b.block.drop (offset + size)).take (b.size - (offset + size))).length ≤
        b.capacity := by
      rw [List.length_take, List.length_drop]
      omega
    have stored := valid_store h.valid room null
    refine ⟨⟨stored.null, stored.block_length, ?_, stored.capacity_le, stored.maximum_lt⟩, ?_⟩
    · change b.size - size ≤ b.capacity
      omega
    · have deleted := overwrite_delete below (by omega : b.size ≤ b.block.length)
      have contents := h.contents
      rw [Buffer.contents] at contents
      rw [contents] at deleted
      rw [List.map_append, List.map_take, List.map_drop]
      exact deleted

end Erase

section Capacity

theorem Grown.holds {b b' : Buffer} {p : List Byte} {capacity : Nat} (h : b.Holds p)
    (grown : Grown b b' capacity) : b'.Holds p := by
  refine ⟨grown.valid, ?_⟩
  rw [Buffer.contents, grown.size, grown.take_block h.valid, h.contents]

theorem realloc_grow_holds {b : Buffer} {p : List Byte} (h : b.Holds p) (capacity : Nat) (alloc : Bool) :
    (b.realloc capacity .grow alloc).2.Holds p := by
  rcases realloc_grow_cases h.valid capacity alloc with failed | ⟨b', done, grown, _⟩
  · rwa [failed]
  · rw [done]
    exact grown.holds h

theorem reserve_holds {b : Buffer} {p : List Byte} (h : b.Holds p) (capacity : Nat) (alloc : Bool) :
    (b.reserve capacity alloc).2.Holds p := by
  have grown := realloc_grow_holds h capacity alloc
  unfold reserve
  split
  next call => rwa [call] at grown
  next call => rwa [call] at grown

theorem extend_holds {b : Buffer} {p : List Byte} (h : b.Holds p) (capacity : Nat) (alloc : Bool) :
    (b.extend capacity alloc).2.Holds p := by
  have grown := realloc_grow_holds h (sizeT (b.size + capacity)) alloc
  unfold extend
  split
  next =>
    split
    next call => rwa [call] at grown
    next call => rwa [call] at grown
  next => exact h

theorem realloc_shrink_holds {b : Buffer} {p : List Byte} (h : b.Holds p) (given : 0 < b.size)
    (alloc : Bool) : (b.realloc b.size .shrink alloc).2.Holds p := by
  have size_le := h.valid.size_le
  have capacity_le := h.valid.capacity_le
  have length := h.valid.block_length
  unfold realloc
  rw [if_neg (fun both => both.1 rfl), if_neg (by omega), if_pos given]
  cases alloc with
  | false => exact h
  | true =>
    have missing : b.size - b.block.length = 0 := by omega
    have kept : heapRealloc b.data b.size true = some b.contents := by
      change some (b.block.take b.size ++ List.replicate (b.size - b.block.length) none) = _
      rw [missing, List.replicate_zero, List.append_nil]
      rfl
    have count := contents_length h.valid
    rw [kept]
    refine ⟨⟨?_, count, Nat.min_le_right _ _, ?_, h.valid.maximum_lt⟩, ?_⟩
    · exact iff_of_false nofun (Nat.ne_of_gt given)
    · change b.size ≤ b.maximum
      omega
    · change b.contents.take (min b.size b.size) = _
      rw [Nat.min_self, List.take_of_length_le (by omega), h.contents]

theorem shrink_holds {b : Buffer} {p : List Byte} (h : b.Holds p) (alloc : Bool) :
    ∃ b', b.shrink alloc = .ok b' ∧ b'.Holds p := by
  unfold shrink
  rw [require_of h.valid.size_le, ok_bind]
  split
  next nothing =>
    have empty : p = [] := by
      apply List.length_eq_zero_iff.mp
      have size_le := h.valid.size_le
      rw [← h.size]
      rcases nothing with null | nothing_left
      · have := h.valid.null.mp null
        omega
      · exact nothing_left
    refine ⟨_, rfl, ?_⟩
    rw [empty]
    exact reset_holds h.valid
  next something_left =>
    have given : 0 < b.size := Nat.pos_of_ne_zero fun zero => something_left (Or.inr zero)
    exact ⟨_, rfl, realloc_shrink_holds h given alloc⟩

theorem construct_holds {maximum : Nat} (h : maximum < 2 ^ 64) (reservation : Nat) (alloc : Bool) :
    (construct reservation maximum alloc).2.Holds [] := by
  have empty : ({ maximum := maximum } : Buffer).Holds [] :=
    ⟨⟨iff_of_true rfl rfl, rfl, Nat.le_refl _, Nat.zero_le _, h⟩, rfl⟩
  exact reserve_holds empty _ alloc

end Capacity

section Find

theorem find_some {view sentinel : List Byte} {offset position : Nat}
    (h : find view sentinel offset = some position) :
    ∃ before after, position = offset + before.length ∧
      FirstAt sentinel (view.drop offset) before after := by
  obtain ⟨found, inside, first⟩ := List.find?_range_eq_some.mp h
  simp only [decide_eq_true_eq] at found
  obtain ⟨low, here⟩ := found
  rw [List.mem_range] at inside
  have count : ((view.drop offset).take (position - offset)).length = position - offset := by
    rw [List.length_take, List.length_drop]
    omega
  refine ⟨(view.drop offset).take (position - offset), view.drop (position + sentinel.length), ?_, ?_, ?_⟩
  · omega
  · have behind := List.prefix_iff_eq_append.mp here
    rw [List.drop_drop] at behind
    have joined := List.take_append_drop (position - offset) (view.drop offset)
    rw [List.drop_drop, Nat.add_sub_cancel' low] at joined
    rw [behind]
    exact joined.symm
  · intro n hn earlier
    rw [count] at hn
    rw [List.drop_drop] at earlier
    have skipped := first (offset + n) (by omega)
    simp [earlier] at skipped

theorem find_none {view sentinel : List Byte} {offset : Nat} (inside : offset ≤ view.length)
    (h : find view sentinel offset = none) : cutAt sentinel (view.drop offset) = none := by
  apply cutAt_none
  intro n hn here
  rw [List.length_drop] at hn
  rw [List.drop_drop] at here
  have missed := List.find?_range_eq_none.mp h (offset + n) (by omega)
  simp [here] at missed

end Find

section Extract

/-- What one buffer loses to another. -/
theorem assign_range_cases {b buffer : Buffer} {p : List Byte} (h : b.Holds p) (hv : buffer.Valid)
    {offset size : Nat} (inside : offset + size ≤ p.length) (alloc : Bool) :
    (∃ emptied, buffer.assign (b.pointer offset) size alloc = .ok (false, emptied)) ∨
      ∃ b' buffer', buffer.assign (b.pointer offset) size alloc = .ok (true, buffer') ∧
        b.erase offset size = .ok b' ∧ b'.Holds (p.take offset ++ p.drop (offset + size)) ∧
          buffer'.Holds ((p.drop offset).take size) := by
  have bound := h.length_lt
  have count : ((p.drop offset).take size).length = size := by
    rw [List.length_take, List.length_drop]
    omega
  have cases := assign_cases hv (supplies_pointer h inside) (by omega) alloc
  rw [count] at cases
  rcases cases with failed | ⟨buffer', done, copied⟩
  · exact Or.inl ⟨_, failed⟩
  · obtain ⟨b', erased, rest⟩ := erase_holds h inside
    exact Or.inr ⟨b', buffer', done, erased, rest, copied⟩

theorem copy_cases {b buffer : Buffer} {p : List Byte} (h : b.Holds p) (hv : buffer.Valid) (alloc : Bool) :
    (∃ emptied, b.copy buffer alloc = .ok (false, emptied)) ∨
      ∃ buffer', b.copy buffer alloc = .ok (true, buffer') ∧ buffer'.Holds p := by
  have size := h.size
  have inside : 0 + b.size ≤ p.length := by omega
  rcases assign_range_cases h hv inside alloc with failed | ⟨_, buffer', done, _, _, copied⟩
  · exact Or.inl failed
  · rw [size, List.drop_zero, List.take_length] at copied
    exact Or.inr ⟨buffer', done, copied⟩

theorem copyRange_cases {b buffer : Buffer} {p : List Byte} (h : b.Holds p) (hv : buffer.Valid)
    {offset size : Nat} (inside : offset + size ≤ p.length) (alloc : Bool) :
    (∃ emptied, b.copyRange offset size buffer alloc = .ok (false, emptied)) ∨
      ∃ buffer', b.copyRange offset size buffer alloc = .ok (true, buffer') ∧
        buffer'.Holds ((p.drop offset).take size) := by
  have bound := h.length_lt
  have below : sizeT (offset + size) ≤ b.size := by
    rw [sizeT_of_lt (by omega), h.size]
    exact inside
  unfold copyRange
  rw [require_of below, ok_bind]
  rcases assign_range_cases h hv inside alloc with failed | ⟨_, buffer', done, _, _, copied⟩
  · exact Or.inl failed
  · exact Or.inr ⟨buffer', done, copied⟩

theorem extract_cases {b buffer : Buffer} {p : List Byte} (h : b.Holds p) (hv : buffer.Valid)
    {offset size : Nat} (inside : offset + size ≤ p.length) (alloc : Bool) :
    (∃ emptied, b.extract offset size buffer alloc = .ok (false, emptied)) ∨
      ∃ b' buffer', b.extract offset size buffer alloc = .ok (true, b', buffer') ∧
        b'.Holds (p.take offset ++ p.drop (offset + size)) ∧ buffer'.Holds ((p.drop offset).take size) := by
  have bound := h.length_lt
  have below : sizeT (offset + size) ≤ b.size := by
    rw [sizeT_of_lt (by omega), h.size]
    exact inside
  unfold extract
  rw [require_of below, ok_bind]
  rcases assign_range_cases h hv inside alloc with ⟨emptied, failed⟩ | ⟨b', buffer', done, erased, kept, copied⟩
  · left
    rw [failed]
    exact ⟨_, rfl⟩
  · right
    refine ⟨b', buffer', ?_, kept, copied⟩
    rw [done, ok_bind]
    simp only [erased]
    rfl

theorem extractSentinel_missing {b buffer : Buffer} {p sentinel : List Byte} (h : b.Holds p)
    {offset : Nat} (inside : offset ≤ p.length) (missing : cutAt sentinel (p.drop offset) = none)
    (includeSentinel alloc : Bool) :
    b.extractSentinel offset sentinel includeSentinel buffer alloc = .ok (true, b, buffer.clear) := by
  have below : offset ≤ b.size := by
    rwa [h.size]
  unfold extractSentinel
  rw [require_of below, ok_bind, toString_of_contents h.contents, ok_bind]
  cases found : find p sentinel offset with
  | none => rfl
  | some position =>
    obtain ⟨_, _, _, first⟩ := find_some found
    rw [first.cut] at missing
    cases missing

/-- The piece that is extracted: up to the sentinel, or up to its end. -/
def piece (before sentinel : List Byte) (includeSentinel : Bool) : List Byte :=
  if includeSentinel then before ++ sentinel else before

def rest (sentinel after : List Byte) (includeSentinel : Bool) : List Byte :=
  if includeSentinel then after else sentinel ++ after

theorem piece_rest (before sentinel after : List Byte) (includeSentinel : Bool) :
    piece before sentinel includeSentinel ++ rest sentinel after includeSentinel =
      before ++ (sentinel ++ after) := by
  cases includeSentinel with
  | false => rfl
  | true => exact List.append_assoc before sentinel after

theorem piece_length {before sentinel : List Byte} (small : before.length + sentinel.length < 2 ^ 64)
    (includeSentinel : Bool) :
    (if includeSentinel then sizeT (before.length + sentinel.length) else before.length) =
      (piece before sentinel includeSentinel).length := by
  cases includeSentinel with
  | false => rfl
  | true =>
    rw [if_pos rfl, piece, if_pos rfl, List.length_append]
    exact sizeT_of_lt small

theorem cut_piece {p piece rest : List Byte} {offset : Nat} (whole : p.drop offset = piece ++ rest) :
    (p.drop offset).take piece.length = piece ∧ p.drop (offset + piece.length) = rest := by
  rw [← List.drop_drop, whole]
  exact ⟨List.take_left, List.drop_left⟩

theorem extractSentinel_found {b buffer : Buffer} {p sentinel before after : List Byte} (h : b.Holds p)
    (hv : buffer.Valid) {offset : Nat} (inside : offset ≤ p.length)
    (found : cutAt sentinel (p.drop offset) = some (before, after)) (includeSentinel alloc : Bool) :
    (∃ emptied, b.extractSentinel offset sentinel includeSentinel buffer alloc = .ok (false, b, emptied)) ∨
      ∃ b' buffer', b.extractSentinel offset sentinel includeSentinel buffer alloc =
          .ok (true, b', buffer') ∧
        b'.Holds (p.take offset ++ rest sentinel after includeSentinel) ∧
        buffer'.Holds (piece before sentinel includeSentinel) := by
  have below : offset ≤ b.size := by
    rwa [h.size]
  unfold extractSentinel
  rw [require_of below, ok_bind, toString_of_contents h.contents, ok_bind]
  cases search : find p sentinel offset with
  | none =>
    rw [find_none inside search] at found
    cases found
  | some position =>
    obtain ⟨before, after, rfl, first⟩ := find_some search
    rw [first.cut] at found
    cases found
    have bound := h.length_lt
    have whole := first.whole
    have length := congrArg List.length whole
    rw [List.length_drop, List.length_append, List.length_append] at length
    have gap : sizeDiff (offset + before.length) offset = before.length := by
      rw [sizeDiff_of_le (by omega) (by omega), Nat.add_sub_cancel_left]
    have low : offset + before.length ≥ offset := Nat.le_add_right _ _
    have size := piece_length (by omega : before.length + sentinel.length < 2 ^ 64) includeSentinel
    rw [← piece_rest _ _ _ includeSentinel] at whole
    obtain ⟨taken, dropped⟩ := cut_piece whole
    have fits : offset + (piece before sentinel includeSentinel).length ≤ p.length := by
      rw [← size]
      split
      next =>
        rw [sizeT_of_lt (by omega)]
        omega
      next => omega
    rcases assign_range_cases h hv fits alloc with ⟨emptied, failed⟩ | ⟨b', buffer', done, erased, kept, cut⟩
    · left
      refine ⟨emptied, ?_⟩
      simp only [require_of low, ok_bind, gap, size]
      rw [failed]
      rfl
    · right
      refine ⟨b', buffer', ?_, ?_, ?_⟩
      · simp only [require_of low, ok_bind, gap, size]
        rw [done, ok_bind]
        simp only [erased]
        rfl
      · rwa [dropped] at kept
      · rwa [taken] at cut

/-- A list without the piece that is extracted at a sentinel, and the piece. -/
def cutSentinel (p : List Byte) (offset : Nat) (sentinel : List Byte) (includeSentinel : Bool) :
    List Byte × List Byte :=
  match cutAt sentinel (p.drop offset) with
  | none => (p, [])
  | some (before, after) =>
    (p.take offset ++ rest sentinel after includeSentinel, piece before sentinel includeSentinel)

theorem extractSentinel_cases {b buffer : Buffer} {p : List Byte} (h : b.Holds p) (hv : buffer.Valid)
    {offset : Nat} (inside : offset ≤ p.length) (sentinel : List Byte) (includeSentinel alloc : Bool) :
    (∃ emptied, b.extractSentinel offset sentinel includeSentinel buffer alloc = .ok (false, emptied)) ∨
      ∃ b' buffer', b.extractSentinel offset sentinel includeSentinel buffer alloc =
          .ok (true, b', buffer') ∧
        b'.Holds (cutSentinel p offset sentinel includeSentinel).1 ∧
        buffer'.Holds (cutSentinel p offset sentinel includeSentinel).2 := by
  unfold cutSentinel
  cases found : cutAt sentinel (p.drop offset) with
  | none =>
    right
    refine ⟨b, buffer.clear, ?_, h, clear_holds hv⟩
    exact extractSentinel_missing h inside found includeSentinel alloc
  | some cut =>
    rcases extractSentinel_found h hv inside found includeSentinel alloc with ⟨emptied, failed⟩ | done
    · exact Or.inl ⟨_, failed⟩
    · exact Or.inr done

end Extract

end Buffer

end Hlib
