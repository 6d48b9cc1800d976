import Hlib.Buffer

namespace Hlib

open Overwrite

/-- What a `SinkAdapter<T>` uses of its `T`. -/
class SinkData (T : Type) where
  /-- The bytes from `data()` up to `size()`. -/
  contents : T → List Cell
  /-- `nullptr == data()`. -/
  null : T → Bool
  /-- `resize(size)`; without memory the exception ends in the adapter's `noexcept`. -/
  resize : T → Nat → Bool → Checked T
  /-- Bytes stored through `data()`. -/
  store : T → Nat → List Byte → Checked T
  null_contents : ∀ {t}, null t = true → contents t = []
  resize_length : ∀ {t size alloc t'}, resize t size alloc = .ok t' → (contents t').length = size
  resize_contents : ∀ {t size alloc t'}, resize t size alloc = .ok t' →
    (contents t').take (contents t).length = (contents t).take size
  resize_within : ∀ {t size} (alloc), size ≤ (contents t).length →
    ∃ t', resize t size alloc = .ok t'
  resize_fault : ∀ {t size alloc fault}, resize t size alloc = .error fault → fault = .terminate
  store_fault : ∀ {t offset bytes fault}, store t offset bytes = .error fault → fault = .outOfBounds
  store_within : ∀ {t offset bytes}, offset + bytes.length ≤ (contents t).length →
    ∃ t', store t offset bytes = .ok t' ∧ contents t' = overwrite (contents t) offset (bytes.map some)

/-- A sound `Buffer`, as sinks keep it. -/
abbrev BufferData := { b : Buffer // b.Valid }

namespace BufferData

def resize (b : BufferData) (size : Nat) (alloc : Bool) : Checked BufferData := do
  let _ ← Buffer.orThrow size (b.1.resize size alloc)
  .ok ⟨(b.1.resize size alloc).2, Buffer.resize_valid b.2 size alloc⟩

def store (b : BufferData) (offset : Nat) (bytes : List Byte) : Checked BufferData :=
  match h : b.1.store offset bytes with
  | .error fault => .error fault
  | .ok stored => .ok ⟨stored, Buffer.store_valid b.2 h⟩

theorem resize_ok {b b' : BufferData} {size : Nat} {alloc : Bool} (h : b.resize size alloc = .ok b') :
    b'.1.size = size ∧ b'.1.contents.take b.1.size = b.1.contents.take size := by
  obtain ⟨call, hc, h⟩ := bind_ok h
  have size_le := b.2.size_le
  rcases Buffer.resize_cases b.2 size alloc with he | ⟨grown, hg, he, valid⟩ <;> cases Except.ok.inj h
  · simp only [he, Buffer.orThrow, true_and] at hc
    split at hc
    next => cases hc
    next zero =>
      have hs : size = 0 := by omega
      subst hs
      have kept : ({ b.1 with size := 0 } : Buffer) = b.1 := congrArg Prod.snd he
      have empty : (0 : Nat) = b.1.size := congrArg Buffer.size kept
      simp [he, ← empty]
  · refine ⟨by simp only [he], ?_⟩
    simp only [he]
    change (grown.block.take size).take b.1.size = (b.1.block.take b.1.size).take size
    rw [List.take_take, List.take_take, Nat.min_comm, hg.block,
      List.take_append_of_le_length (by rw [b.2.block_length]; omega)]

theorem store_within {b : BufferData} {offset : Nat} {bytes : List Byte}
    (room : offset + bytes.length ≤ b.1.size) :
    ∃ b', b.store offset bytes = .ok b' ∧
      b'.1.contents = overwrite b.1.contents offset (bytes.map some) := by
  have size_le := b.2.size_le
  have length := b.2.block_length
  cases bytes with
  | nil => exact ⟨b, rfl, by simp⟩
  | cons byte bytes =>
    have within : offset + (byte :: bytes).length ≤ b.1.capacity := by omega
    have positive : 0 < b.1.capacity := by simp only [List.length_cons] at within; omega
    have hs := Buffer.store_within b.2 within (b.2.present positive)
    refine ⟨⟨_, Buffer.store_valid b.2 hs⟩, ?_, ?_⟩
    · unfold store
      split
      next failed => cases hs.symm.trans failed
      next stored => exact congrArg Except.ok (Subtype.ext (Except.ok.inj (stored.symm.trans hs)))
    · exact overwrite_take_of_le (by simpa using room) (by show b.1.size ≤ _; omega)

theorem null_contents {b : BufferData} (h : decide (b.1.data = none) = true) : b.1.contents = [] := by
  have null : b.1.data = none := of_decide_eq_true h
  simp [Buffer.contents, Buffer.block, null]

theorem resize_length {b b' : BufferData} {size : Nat} {alloc : Bool} (h : b.resize size alloc = .ok b') :
    b'.1.contents.length = size :=
  (Buffer.contents_length b'.2).trans (resize_ok h).1

theorem resize_contents {b b' : BufferData} {size : Nat} {alloc : Bool} (h : b.resize size alloc = .ok b') :
    b'.1.contents.take b.1.contents.length = b.1.contents.take size := by
  rw [Buffer.contents_length b.2]
  exact (resize_ok h).2

theorem resize_within {b : BufferData} {size : Nat} (alloc : Bool) (h : size ≤ b.1.contents.length) :
    ∃ b', b.resize size alloc = .ok b' := by
  have size_le := b.2.size_le
  rw [Buffer.contents_length b.2] at h
  have within : b.1.resize size alloc = _ := Buffer.resize_within (by omega)
  have allowed : Buffer.orThrow size (b.1.resize size alloc) = .ok (b.1.resize size alloc) := by
    by_cases positive : 0 < size
    · have present : b.1.data ≠ none := b.2.present (by omega)
      rw [Buffer.orThrow, within, if_neg (by simp [Buffer.address, present])]
    · rw [Buffer.orThrow, if_neg (by omega)]
  exact ⟨_, by rw [resize, allowed, ok_bind]⟩

theorem resize_fault {b : BufferData} {size : Nat} {alloc : Bool} {fault : Fault}
    (h : b.resize size alloc = .error fault) : fault = .terminate := by
  rw [resize, Buffer.orThrow] at h
  split at h <;> cases h
  rfl

theorem store_fault {b : BufferData} {offset : Nat} {bytes : List Byte} {fault : Fault}
    (h : b.store offset bytes = .error fault) : fault = .outOfBounds := by
  unfold store at h
  split at h <;> cases h
  next failed => exact Buffer.store_fault failed

theorem store_contents {b : BufferData} {offset : Nat} {bytes : List Byte}
    (room : offset + bytes.length ≤ b.1.contents.length) :
    ∃ b', b.store offset bytes = .ok b' ∧
      b'.1.contents = overwrite b.1.contents offset (bytes.map some) := by
  rw [Buffer.contents_length b.2] at room
  exact store_within room

instance : SinkData BufferData where
  contents b := b.1.contents
  null b := b.1.data = none
  resize := resize
  store := store
  null_contents := null_contents
  resize_length := resize_length
  resize_contents := resize_contents
  resize_within := resize_within
  resize_fault := resize_fault
  store_fault := store_fault
  store_within := store_contents

end BufferData

/-- A `std::string`, which fills up with zeros and never has a null `data()`. -/
abbrev StringData := List Byte

namespace StringData

def resize (s : StringData) (size : Nat) (alloc : Bool) : Checked StringData :=
  if s.length < size ∧ alloc = false then .error .terminate
  else .ok (s.take size ++ List.replicate (size - s.length) 0)

def store (s : StringData) (offset : Nat) (bytes : List Byte) : Checked StringData :=
  if offset + bytes.length ≤ s.length then .ok (overwrite s offset bytes) else .error .outOfBounds

theorem resize_ok {s s' : StringData} {size : Nat} {alloc : Bool} (h : s.resize size alloc = .ok s') :
    s' = s.take size ++ List.replicate (size - s.length) 0 := by
  unfold resize at h
  split at h
  next => cases h
  next => exact (Except.ok.inj h).symm

instance : SinkData StringData where
  contents s := s.map some
  null _ := false
  resize := resize
  store := store
  null_contents h := by cases h
  resize_length h := by
    rw [resize_ok h, List.length_map, List.length_append, List.length_take, List.length_replicate]
    omega
  resize_contents {s size alloc s'} h := by
    rw [resize_ok h, List.length_map, ← List.map_take, ← List.map_take]
    by_cases shrunk : size ≤ s.length
    · simp [Nat.sub_eq_zero_of_le shrunk, List.take_take, Nat.min_eq_right shrunk]
    · rw [List.take_of_length_le (show s.length ≤ size by omega), List.take_left']
      rfl
  resize_within {s size} alloc h := by
    rw [List.length_map] at h
    exact ⟨_, if_neg (by omega)⟩
  resize_fault {s size alloc fault} h := by
    unfold resize at h
    split at h <;> cases h
    rfl
  store_fault {s offset bytes fault} h := by
    unfold store at h
    split at h <;> cases h
    rfl
  store_within {s offset bytes} h := by
    rw [List.length_map] at h
    refine ⟨_, if_pos h, ?_⟩
    simp [overwrite]

end StringData

/-- `SinkAdapter<T>`; a maximum of zero stands for `MinimalCapacity`. -/
structure SinkAdapter (T : Type) where
  maximum : Nat := 0
  data : T

namespace SinkAdapter

variable {T : Type} [SinkData T]

def contents (s : SinkAdapter T) : List Cell := SinkData.contents s.data

def size (s : SinkAdapter T) : Nat := s.contents.length

def full (s : SinkAdapter T) : Bool := s.maximum = 0 ∨ s.size = s.maximum

/-- `headroom(limit)`. -/
def headroom (s : SinkAdapter T) (limit : Nat) : Checked Nat :=
  if s.maximum = 0 then .ok (s.size + limit)
  else do
    require (s.size ≤ s.maximum) .assertion
    .ok (min (s.maximum - s.size) limit)

def resize (s : SinkAdapter T) (size : Nat) (alloc : Bool) : Checked (SinkAdapter T) := do
  let data ← SinkData.resize s.data size alloc
  .ok { s with data := data }

/-- `produce(size)`: the offset of the new bytes, `none` for a null pointer. -/
def produce (s : SinkAdapter T) (size : Nat) (alloc : Bool) :
    Checked (Option Nat × SinkAdapter T) := do
  require (s.maximum = 0 ∨ s.size + size ≤ s.maximum) .assertion
  let grown ← s.resize (s.size + size) alloc
  .ok (if SinkData.null grown.data then none else some s.size, grown)

def store (s : SinkAdapter T) (offset : Nat) (bytes : List Byte) : Checked (SinkAdapter T) := do
  let data ← SinkData.store s.data offset bytes
  .ok { s with data := data }

theorem resize_ok {s s' : SinkAdapter T} {size : Nat} {alloc : Bool}
    (h : s.resize size alloc = .ok s') :
    s'.maximum = s.maximum ∧ s'.size = size ∧ s'.contents.take s.size = s.contents.take size := by
  obtain ⟨data, hd, h⟩ := bind_ok h
  cases Except.ok.inj h
  exact ⟨rfl, SinkData.resize_length hd, SinkData.resize_contents hd⟩

theorem resize_within {s : SinkAdapter T} {size : Nat} (alloc : Bool) (h : size ≤ s.size) :
    ∃ s', s.resize size alloc = .ok s' := by
  obtain ⟨data, hd⟩ := SinkData.resize_within alloc h
  exact ⟨{ s with data := data }, by rw [resize, hd, ok_bind]⟩

/-- A sink grown by `produce` keeps what it held and has `size` more cells behind it; without a
pointer to them there is nothing at all. -/
theorem produce_ok {s s' : SinkAdapter T} {size : Nat} {alloc : Bool} {ptr : Option Nat}
    (h : s.produce size alloc = .ok (ptr, s')) :
    s.resize (s.size + size) alloc = .ok s' ∧ s'.maximum = s.maximum ∧
      (∃ junk, s'.contents = s.contents ++ junk ∧ junk.length = size) ∧
      (ptr = none ∧ s'.contents = [] ∨ ptr = some s.size) := by
  obtain ⟨_, _, h⟩ := bind_ok h
  obtain ⟨grown, hg, h⟩ := bind_ok h
  obtain ⟨hp, rfl⟩ := Prod.mk.inj (Except.ok.inj h)
  obtain ⟨maximum, length, front⟩ := resize_ok hg
  have length_eq : s.contents.length = s.size := rfl
  have grown_length : grown.contents.length = s.size + size := length
  refine ⟨hg, maximum, ⟨grown.contents.drop s.size, ?_, by rw [List.length_drop]; omega⟩, ?_⟩
  · rw [List.take_of_length_le (show s.contents.length ≤ s.size + size by omega)] at front
    rw [← front, List.take_append_drop]
  · cases null : SinkData.null grown.data with
    | true => exact Or.inl ⟨by simpa [null] using hp.symm, SinkData.null_contents null⟩
    | false => exact Or.inr (by simpa [null] using hp.symm)

theorem store_within {s : SinkAdapter T} {offset : Nat} {bytes : List Byte}
    (room : offset + bytes.length ≤ s.size) :
    ∃ s', s.store offset bytes = .ok s' ∧ s'.maximum = s.maximum ∧
      s'.contents = overwrite s.contents offset (bytes.map some) := by
  obtain ⟨data, hd, hc⟩ := SinkData.store_within room
  exact ⟨{ s with data := data }, by rw [store, hd, ok_bind], rfl, hc⟩

theorem store_resize_succeeds {s : SinkAdapter T} {offset : Nat} {bytes : List Byte} (alloc : Bool)
    (room : offset + bytes.length ≤ s.size) :
    ∃ stored cut, s.store offset bytes = .ok stored ∧
      stored.resize (offset + bytes.length) alloc = .ok cut ∧ cut.maximum = s.maximum ∧
      cut.size = offset + bytes.length := by
  obtain ⟨stored, hs, hm, contents⟩ := store_within room
  have stored_size : stored.size = s.size := by
    rw [size, contents, overwrite_length (by rw [List.length_map]; exact room)]
    rfl
  obtain ⟨cut, hc⟩ := stored.resize_within alloc (stored_size ▸ room)
  obtain ⟨maximum, length, _⟩ := resize_ok hc
  exact ⟨stored, cut, hs, hc, maximum.trans hm, length⟩

theorem store_resize {s stored s' : SinkAdapter T} {front junk : List Cell} {bytes : List Byte}
    {alloc : Bool} (hc : s.contents = front ++ junk) (room : bytes.length ≤ junk.length)
    (hs : s.store front.length bytes = .ok stored)
    (hr : stored.resize (front.length + bytes.length) alloc = .ok s') :
    s'.maximum = s.maximum ∧ s'.contents = front ++ bytes.map some := by
  have size_eq : s.size = front.length + junk.length := by rw [size, hc, List.length_append]
  have within : front.length + bytes.length ≤ s.size := by omega
  have cut : front.length + (bytes.map some).length = front.length + bytes.length := by
    rw [List.length_map]
  have fits : front.length + (bytes.map some).length ≤ s.contents.length := cut ▸ within
  obtain ⟨stored', hs', hm, contents⟩ := store_within within
  cases Except.ok.inj (hs.symm.trans hs')
  obtain ⟨maximum, length, kept⟩ := resize_ok hr
  refine ⟨maximum.trans hm, ?_⟩
  have stored_size : stored.size = s.size := by
    rw [size, contents, overwrite_length fits]
    rfl
  have all : s'.contents.length ≤ stored.size := by
    rw [stored_size]
    exact Nat.le_trans (Nat.le_of_eq length) within
  rw [List.take_of_length_le all, contents, ← cut, overwrite_take fits, hc,
    List.take_left' rfl] at kept
  exact kept

end SinkAdapter

end Hlib
