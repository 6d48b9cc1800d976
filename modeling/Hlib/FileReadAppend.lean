import Hlib.FileRead

namespace Hlib

open Overwrite

theorem Buffer.Grown.block_stored {b b' : Buffer} {capacity : Nat} (grown : b.Grown b' capacity)
    (i : Nat) (v : Byte) : b'.block[i]? = some (some v) ↔ b.block[i]? = some (some v) := by
  rw [grown.block]
  by_cases old : i < b.block.length
  · rw [List.getElem?_append_left old]
  · rw [List.getElem?_append_right (by omega), List.getElem?_eq_none (l := b.block) (by omega)]
    simp [List.getElem?_replicate]

namespace File

/-- The call stays inside the buffer, and where it reports success it appended `d` and counted
its bytes. -/
def Appends (p d : List Byte) : Checked (Result Nat × Buffer) → Prop
  | .error _ => False
  | .ok (.error _, _) => True
  | .ok (.ok count, b) => b.contents = (p ++ d).map some ∧ count = d.length

/-- The bytes of the block behind the contents read as `d` once `d` itself lies another
`size` bytes further on. -/
def Echoed (b : Buffer) (d : List Byte) : Prop :=
  ∀ i < d.length, if i < b.size then b.block[b.size + i]? = some d[i]? else d[i - b.size]? = d[i]?

/-- There is room for `d` at twice the size. -/
def RoomTwice (b : Buffer) (size : Nat) (d : List Byte) : Prop :=
  b.size + b.size + d.length ≤ max b.capacity (b.extended size)

def Harmless (b : Buffer) (p d : List Byte) (size : Nat) (alloc ferror : Bool) : Prop :=
  p = [] ∨ d = [] ∨ (b.extend size alloc).1 = none ∨
    RoomTwice b size d ∧ (ferror = true ∨ Echoed b d)

theorem echoed_of_empty {b : Buffer} {d : List Byte} (h : b.size = 0) : Echoed b d := by
  intro i _
  simp [h]

theorem contents_shifted_iff {b b' : Buffer} {p d : List Byte} {capacity : Nat} (h : b.Holds p)
    (grown : b.Grown b' capacity) (room : b.size + b.size + d.length ≤ b'.capacity) :
    ({ b'.written (b.size + b.size) d with size := b.size + d.length } : Buffer).contents =
      (p ++ d).map some ↔ Echoed b d := by
  have hs := h.size
  have blockLength := grown.valid.block_length
  have fits : b.size + b.size + (d.map some).length ≤ b'.block.length := by
    rw [List.length_map, blockLength]
    exact room
  have front : b'.block.take b.size = p.map some := (grown.take_block h.valid).trans h.contents
  change (overwrite b'.block (b.size + b.size) (d.map some)).take (b.size + d.length) = _ ↔ _
  -- What is read at `b.size + i`.
  have behind : ∀ i < d.length,
      ((overwrite b'.block (b.size + b.size) (d.map some)).take (b.size + d.length))[b.size + i]? =
        if i < b.size then b'.block[b.size + i]? else some d[i - b.size]? := by
    intro i hi
    rw [List.getElem?_take_of_lt (by omega)]
    split
    next near => exact overwrite_before fits (by omega)
    next far =>
      rw [overwrite_inside fits (by omega) (by rw [List.length_map]; omega), List.getElem?_map,
        show b.size + i - (b.size + b.size) = i - b.size by omega,
        List.getElem?_eq_getElem (show i - b.size < d.length by omega)]
      rfl
  have wanted : ∀ i < d.length, ((p ++ d).map some)[b.size + i]? = some d[i]? := by
    intro i hi
    rw [hs, List.getElem?_map, List.getElem?_append_right (Nat.le_add_right _ _),
      Nat.add_sub_cancel_left, List.getElem?_eq_getElem hi]
    rfl
  constructor
  · intro same i hi
    have entry := behind i hi
    rw [same, wanted i hi] at entry
    split
    next near =>
      rw [if_pos near] at entry
      rw [List.getElem?_eq_getElem hi] at entry ⊢
      exact (grown.block_stored _ _).mp entry.symm
    next far =>
      rw [if_neg far] at entry
      exact (Option.some.inj entry).symm
  · intro echoed
    apply List.ext_getElem?
    intro k
    by_cases low : k < b.size
    · rw [List.getElem?_take_of_lt (by omega), overwrite_before fits (by omega), List.map_append,
        List.getElem?_append_left (by rw [List.length_map]; omega), ← front,
        List.getElem?_take_of_lt low]
    · obtain ⟨i, rfl⟩ := Nat.exists_eq_add_of_le (Nat.le_of_not_lt low)
      by_cases hi : i < d.length
      · have entry := echoed i hi
        rw [behind i hi, wanted i hi]
        split
        next near =>
          rw [if_pos near] at entry
          rw [List.getElem?_eq_getElem hi] at entry ⊢
          exact (grown.block_stored _ _).mpr entry
        next far =>
          rw [if_neg far] at entry
          rw [entry]
      · rw [List.getElem?_eq_none (by rw [List.length_take]; omega),
          List.getElem?_eq_none (by simp only [List.length_map, List.length_append]; omega)]

/-- Storing a batch into the extended buffer, in all its outcomes. -/
theorem storeBatch_cases {b b' : Buffer} {capacity : Nat} {d : List Byte} (alloc : Bool)
    (hv : b.Valid) (grown : b.Grown b' capacity) :
    d = [] ∧ storeBatch b' b.size d alloc = .ok (b'.address 0, { b' with size := b.size }) ∨
    d ≠ [] ∧ b'.capacity < b.size + b.size + d.length ∧
      storeBatch b' b.size d alloc = .error .outOfBounds ∨
    d ≠ [] ∧ b.size + b.size + d.length ≤ b'.capacity ∧
      storeBatch b' b.size d alloc =
        .ok (some 0, { b'.written (b.size + b.size) d with size := b.size + d.length }) := by
  have size_le := hv.size_le
  have capacity_eq := grown.capacity hv
  have capacity_lt := Nat.lt_of_le_of_lt grown.valid.capacity_le grown.valid.maximum_lt
  by_cases nil : d = []
  · left
    subst d
    simp only [storeBatch, Buffer.store, List.length_nil, Nat.add_zero, ok_bind, true_and, grown.size]
    rw [sizeT_of_lt (by omega), Buffer.resize_within (by omega)]
  · right
    have positive := List.length_pos_iff.mpr nil
    by_cases room : b.size + b.size + d.length ≤ b'.capacity
    · right
      refine ⟨nil, room, ?_⟩
      have present : b'.data ≠ none := grown.valid.present (by omega)
      rw [storeBatch, grown.size, Buffer.store_within grown.valid room present, ok_bind]
      change Except.ok ((b'.written (b.size + b.size) d).resize (sizeT (b'.size + d.length)) alloc) = _
      rw [grown.size, sizeT_of_lt (by omega), Buffer.resize_within (by show _ ≤ b'.capacity; omega)]
      simp [Buffer.address, Buffer.written]
    · left
      refine ⟨nil, by omega, ?_⟩
      obtain ⟨byte, bytes, rfl⟩ := List.exists_cons_of_ne_nil nil
      rw [storeBatch, grown.size]
      unfold Buffer.store
      cases hd : b'.data with
      | none => rfl
      | some cells =>
        have hb : cells.length = b'.capacity := by
          rw [← grown.valid.block_length, Buffer.block, hd, Option.getD_some]
        simp only [hb, if_neg room]
        rfl

theorem appends_iff_of_grown {b b' : Buffer} {p d : List Byte} {size : Nat} {alloc : Bool}
    (later ferror : Bool) (h : b.Holds p) (hs : size < 2 ^ 64) (hd : d.length ≤ size)
    (he : b.extend size alloc = (some b.size, b')) (grown : b.Grown b' (b.extended size))
    (errno : Errno) :
    (Appends p d do
      match ← storeBatch b' b.size d later with
      | (none, b) => .ok (.error errno, b)
      | (some _, b) => if ferror then .ok (.error errno, b) else .ok (.ok d.length, b)) ↔
    Harmless b p d size alloc ferror := by
  have capacity_eq := grown.capacity h.valid
  have size_eq := h.size
  unfold Harmless RoomTwice
  rw [he, ← capacity_eq]
  simp only [reduceCtorEq, false_or]
  rcases storeBatch_cases later h.valid grown with
    ⟨nil, hc⟩ | ⟨nil, room, hc⟩ | ⟨nil, room, hc⟩ <;> rw [hc]
  · subst d
    simp only [ok_bind, or_true, true_or, iff_true]
    cases b'.address 0 with
    | none => trivial
    | some _ =>
      cases ferror with
      | true => trivial
      | false =>
        refine ⟨?_, rfl⟩
        rw [List.append_nil, ← h.contents, ← grown.take_block h.valid]
        rfl
  · have positive := List.length_pos_iff.mpr nil
    have used : p ≠ [] := by
      intro empty
      subst p
      rw [List.length_nil] at size_eq
      have asked : b.extended size = size := by
        rw [Buffer.extended, if_pos (by omega), size_eq, Nat.zero_add, sizeT_of_lt hs]
      omega
    simp only [used, nil, Nat.not_le.mpr room, false_and, or_self, iff_false]
    exact id
  · simp only [nil, room, true_and, false_or, ok_bind]
    cases ferror with
    | true => simp [Appends]
    | false =>
      simp only [Bool.false_eq_true, if_false, false_or, Appends, and_true]
      rw [contents_shifted_iff h grown room]
      constructor
      · exact Or.inr
      · rintro (empty | echoed)
        · exact echoed_of_empty (by rw [size_eq, empty, List.length_nil])
        · exact echoed

theorem readFile_appends_iff {b : Buffer} {p : List Byte} (h : b.Holds p) {size : Nat}
    (hs : size < 2 ^ 64) (bytes : List Byte) (ferror : Bool) (alloc : Nat → Bool) (errno : Errno) :
    Appends p (bytes.take size) (readFile b size bytes ferror alloc errno) ↔
      Harmless b p (bytes.take size) size (alloc 0) ferror := by
  have hd : (bytes.take size).length ≤ size := by rw [List.length_take]; omega
  rcases Buffer.extend_cases h.valid size (alloc 0) with he | ⟨b', he, grown⟩
  · simp [readFile, he, Harmless, Appends]
  · rw [← appends_iff_of_grown (alloc 1) ferror h hs hd he grown errno]
    unfold readFile
    rewrite [he]
    exact Iff.rfl

theorem readFd_appends_iff {b : Buffer} {p : List Byte} (h : b.Holds p) {size : Nat}
    (hs : size < 2 ^ 64) (bytes : List Byte) (alloc : Nat → Bool) (errno : Errno) :
    Appends p (bytes.take size) (readFd b size (.ok bytes) alloc errno) ↔
      Harmless b p (bytes.take size) size (alloc 0) false := by
  rw [← readFile_appends_iff h hs bytes false alloc errno]
  rcases Buffer.extend_cases h.valid size (alloc 0) with he | ⟨b', he, grown⟩
  · simp only [readFd, readFile, he]
  · simp only [readFd, readFile, he, Bool.false_eq_true, if_false]

end File

end Hlib
