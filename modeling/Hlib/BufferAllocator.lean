import Hlib.BufferCalls
import Hlib.BufferContents

namespace Hlib

open Transition

/-- A buffer, and the value of its `m_data`, which is 0 for a null pointer. -/
structure Placed where
  buffer : Buffer
  base : Nat

/-- `BufferAllocator<T>` of the buffer that each call is given: `sizeof(T)` and `m_size`. -/
structure BufferAllocator where
  width : Nat
  size : Nat

namespace Placed

/-- `resize(size)`, with whether it returns or throws `std::bad_alloc`. If it calls `::realloc`, that gives
the address in `answer`, or a null pointer. -/
def resize (m : Placed) (size : Nat) (answer : Option Nat) : Checked (Bool × Placed) := do
  let (data, b) ← m.buffer.resizeWith .grow size answer.isSome
  let base := if b.capacity = m.buffer.capacity then m.base else answer.getD 0
  return (¬(data = none ∧ size > 0), { buffer := b, base := base })

end Placed

namespace BufferAllocator

def construct (m : Placed) (width : Nat) : BufferAllocator := { width := width, size := m.buffer.size }

/-- `allocate(size)`; `none` if it throws `std::bad_alloc`. -/
def allocate (a : BufferAllocator) (m : Placed) (size : Nat) (answer : Option Nat) :
    Checked (Option Nat × Placed) := do
  if size > (2 ^ 64 - 1) / a.width then return (none, m)
  let (done, m) ← m.resize (sizeT (a.size + size * a.width)) answer
  return (if done then some (m.base + a.size) else none, m)

/-- `deallocate(ptr, size)`, which is `noexcept`. -/
def deallocate (a : BufferAllocator) (m : Placed) (ptr size : Nat) (answer : Option Nat) : Checked Placed := do
  require (m.base + a.size = ptr) .assertion
  require (m.buffer.size = sizeT (a.size + size)) .assertion
  let (done, m) ← m.resize a.size answer
  require done .terminate
  return m

/-- What a container calls, with the answer of the heap. -/
inductive Operation
  | allocate (size : Nat) (answer : Option Nat)
  | deallocate (ptr size : Nat) (answer : Option Nat)

/-- The memory, and the blocks that are allocated: where they are, and the number of elements. -/
structure Session where
  memory : Placed
  live : List (Nat × Nat) := []

def perform (a : BufferAllocator) (s : Session) : Operation → Checked Session
  | .allocate size answer => do
    let (ptr, m) ← a.allocate s.memory size answer
    match ptr with
    | none => return { s with memory := m }
    | some ptr => return { memory := m, live := s.live ++ [(ptr, size)] }
  | .deallocate ptr size answer => do
    let m ← a.deallocate s.memory ptr size answer
    return { memory := m, live := s.live.erase (ptr, size) }

/-- A block is given back once, as it was allocated. -/
def Matches (s : Session) : Operation → Prop
  | .allocate _ _ => True
  | .deallocate ptr size _ => (ptr, size) ∈ s.live

def Occupies (a : BufferAllocator) (block : Nat × Nat) (address : Nat) : Prop :=
  block.1 ≤ address ∧ address < block.1 + block.2 * a.width

/-- What a container relies on; `p` are the contents at the construction of the allocator. -/
structure Contract (a : BufferAllocator) (p : List Byte) (s : Session) : Prop where
  apart : s.live.Pairwise fun x y => ∀ address, a.Occupies x address → ¬a.Occupies y address
  inside : ∀ x ∈ s.live, ∀ address, a.Occupies x address →
    s.memory.base + p.length ≤ address ∧ address < s.memory.base + s.memory.buffer.size
  front : s.memory.buffer.block.take p.length = p.map some
  empty : s.live = [] → s.memory.buffer.size = p.length

/-- `resize` throws `std::bad_alloc`. -/
def Refuses (m : Placed) (size : Nat) (answer : Option Nat) : Prop :=
  m.buffer.capacity < size ∧ (m.buffer.maximum < size ∨ answer = none)

/-- Memory is asked for while no block that is allocated has elements, and the size does not wrap around; if it
is not given, that does not matter. A block that has elements is given back if they are of one byte, and one
that has none while no other has, from the place where the buffer still is. -/
def Fits (a : BufferAllocator) (s : Session) : Operation → Prop
  | .allocate size answer =>
    size > (2 ^ 64 - 1) / a.width ∨ Refuses s.memory (sizeT (a.size + size * a.width)) answer ∨
      a.size + size * a.width < 2 ^ 64 ∧ ∀ x ∈ s.live, x.2 = 0
  | .deallocate ptr size _ =>
    (size ≠ 0 → a.width = 1) ∧ (size = 0 → ptr = s.memory.base + a.size ∧ ∀ x ∈ s.live, x.2 = 0)

section Memory

variable {m : Placed} {size : Nat} {answer : Option Nat}

theorem resize_refused (hv : m.buffer.Valid) (h : Refuses m size answer) :
    m.resize size answer = .ok (false, m) := by
  obtain ⟨larger, refused⟩ := h
  have positive : 0 < size := by omega
  have failed : m.buffer.resize size answer.isSome = (none, m.buffer) := by
    unfold Buffer.resize
    rw [if_pos positive]
    rcases Buffer.realloc_grow_cases hv size answer.isSome with same | ⟨b', done, grown, _⟩
    · rw [same]
    · exfalso
      unfold Buffer.realloc at done
      rw [if_neg (by omega)] at done
      rcases refused with large | nothing_given
      · rw [if_pos large] at done
        cases done
      · rw [nothing_given] at done
        simp [heapRealloc, positive] at done
  unfold Placed.resize
  rw [Buffer.resizeWith_grow hv.size_le, failed, ok_bind]
  simp [positive]
  rfl

theorem resize_granted (hv : m.buffer.Valid) (h : ¬Refuses m size answer) :
    ∃ m', m.resize size answer = .ok (true, m') ∧ m'.buffer.Valid ∧ m'.buffer.size = size ∧
      (∀ k ≤ m.buffer.capacity, m'.buffer.block.take k = m.buffer.block.take k) ∧
      (size ≤ m.buffer.capacity → m'.base = m.base) := by
  unfold Placed.resize
  rw [Buffer.resizeWith_grow hv.size_le]
  by_cases fits : size ≤ m.buffer.capacity
  · have given : ¬(m.buffer.address 0 = none ∧ size > 0) := by
      rintro ⟨null, positive⟩
      unfold Buffer.address at null
      split at null
      next absent => exact hv.present (by omega) absent.1
      next => cases null
    rw [Buffer.resize_within fits, ok_bind]
    refine ⟨{ m with buffer := { m.buffer with size := size } }, ?_, ?_, rfl, fun k _ => rfl, fun _ => rfl⟩
    · simp only [given, not_false_eq_true, decide_true, if_true]
      rfl
    · exact ⟨hv.null, hv.block_length, fits, hv.capacity_le, hv.maximum_lt⟩
  · have positive : 0 < size := by omega
    obtain ⟨large, answered⟩ := not_or.mp fun refused => h ⟨Nat.lt_of_not_le fits, refused⟩
    have asked : answer.isSome = true := Option.isSome_iff_ne_none.mpr answered
    rw [asked]
    rcases Buffer.realloc_grow_cases hv size true with failed | ⟨b', done, grown, present⟩
    · have succeeds := Buffer.realloc_grow_succeeds (b := m.buffer) (Nat.le_of_not_lt large)
      rw [failed] at succeeds
      cases succeeds
    · have resized : m.buffer.resize size true = (some 0, { b' with size := size }) := by
        unfold Buffer.resize
        rw [if_pos positive, done]
        simp [Buffer.address, present positive]
      have capacity := grown.capacity hv
      rw [resized, ok_bind]
      refine ⟨_, rfl, ?_, rfl, ?_, fun small => absurd small fits⟩
      · exact ⟨grown.valid.null, grown.valid.block_length, by show size ≤ b'.capacity; omega,
          grown.valid.capacity_le, grown.valid.maximum_lt⟩
      · intro k below
        show b'.block.take k = m.buffer.block.take k
        rw [grown.block, List.take_append_of_le_length (by rw [hv.block_length]; exact below)]

end Memory

section Blocks

variable {a : BufferAllocator} {p : List Byte} {s : Session}

/-- What is kept while the contract holds: blocks with elements start behind the contents that were there
before, and their bytes are those that the size has grown by. -/
structure Sound (a : BufferAllocator) (p : List Byte) (s : Session) : Prop where
  contract : Contract a p s
  valid : s.memory.buffer.Valid
  total : s.memory.buffer.size = p.length + (s.live.map fun x => x.2 * a.width).sum
  placed : ∀ x ∈ s.live, x.2 ≠ 0 → x.1 = s.memory.base + p.length

theorem sum_empty {live : List (Nat × Nat)} (h : ∀ x ∈ live, x.2 = 0) (width : Nat) :
    (live.map fun x => x.2 * width).sum = 0 := by
  apply List.sum_eq_zero
  intro n hn
  obtain ⟨x, hx, rfl⟩ := List.mem_map.mp hn
  rw [h x hx, Nat.zero_mul]

theorem occupies_start (positive : 0 < a.width) {x : Nat × Nat} (h : x.2 ≠ 0) : a.Occupies x x.1 := by
  have bytes : 0 < x.2 * a.width := Nat.mul_pos (Nat.pos_of_ne_zero h) positive
  exact ⟨Nat.le_refl _, by omega⟩

theorem empty_unoccupied {x : Nat × Nat} (h : x.2 = 0) (address : Nat) : ¬a.Occupies x address := by
  rintro ⟨above, below⟩
  rw [h, Nat.zero_mul] at below
  omega

/-- Of the blocks allocated one at most has elements. -/
theorem Sound.others_empty (hs : Sound a p s) (positive : 0 < a.width) {x : Nat × Nat} (hx : x ∈ s.live)
    (given : x.2 ≠ 0) : ∀ y ∈ s.live.erase x, y.2 = 0 := by
  have symm {x y : Nat × Nat} (h : ∀ address, a.Occupies x address → ¬a.Occupies y address) :
      ∀ address, a.Occupies y address → ¬a.Occupies x address :=
    fun address one other => h address other one
  have apart := (List.Perm.pairwise_iff symm (List.perm_cons_erase hx)).mp hs.contract.apart
  intro y hy
  by_contra elements
  have first := hs.placed x hx given
  have second := hs.placed y (List.mem_of_mem_erase hy) elements
  have free := (List.pairwise_cons.mp apart).1 y hy x.1 (occupies_start positive given)
  rw [first, ← second] at free
  exact free (occupies_start positive elements)

theorem Sound.sum_of_mem (hs : Sound a p s) (positive : 0 < a.width) {x : Nat × Nat} (hx : x ∈ s.live)
    (given : x.2 ≠ 0) : (s.live.map fun x => x.2 * a.width).sum = x.2 * a.width := by
  rw [((List.perm_cons_erase hx).map _).sum_eq, List.map_cons, List.sum_cons,
    sum_empty (hs.others_empty positive hx given), Nat.add_zero]

end Blocks

section Steps

variable {a : BufferAllocator} {p : List Byte} {s t : Session} {size : Nat} {answer : Option Nat}

theorem perform_refused (hs : Sound a p s)
    (h : size > (2 ^ 64 - 1) / a.width ∨ Refuses s.memory (sizeT (a.size + size * a.width)) answer) :
    a.perform s (.allocate size answer) = .ok s := by
  have thrown : a.allocate s.memory size answer = .ok (none, s.memory) := by
    unfold allocate
    by_cases large : size > (2 ^ 64 - 1) / a.width
    · rw [if_pos large]
      rfl
    · rw [if_neg large, resize_refused hs.valid (h.resolve_left large)]
      rfl
  show (a.allocate s.memory size answer >>= _) = _
  rw [thrown]
  rfl

/-- The memory is given, and the block starts behind the contents. -/
theorem perform_granted (hs : Sound a p s) (small : ¬size > (2 ^ 64 - 1) / a.width)
    (granted : ¬Refuses s.memory (sizeT (a.size + size * a.width)) answer) :
    ∃ m, a.perform s (.allocate size answer) =
        .ok { memory := m, live := s.live ++ [(m.base + a.size, size)] } ∧ m.buffer.Valid ∧
      m.buffer.size = sizeT (a.size + size * a.width) ∧
      ∀ k ≤ s.memory.buffer.capacity, m.buffer.block.take k = s.memory.buffer.block.take k := by
  obtain ⟨m, done, valid, resized, kept, _⟩ := resize_granted hs.valid granted
  refine ⟨m, ?_, valid, resized, kept⟩
  have returned : a.allocate s.memory size answer = .ok (some (m.base + a.size), m) := by
    unfold allocate
    rw [if_neg small, done]
    rfl
  show (a.allocate s.memory size answer >>= _) = _
  rw [returned]
  rfl

theorem Sound.front_le (hs : Sound a p s) : p.length ≤ s.memory.buffer.capacity := by
  have size_le := hs.valid.size_le
  have total := hs.total
  omega

theorem allocate_sound (hs : Sound a p s) (same : a.size = p.length) {m : Placed} (valid : m.buffer.Valid)
    (resized : m.buffer.size = a.size + size * a.width)
    (kept : ∀ k ≤ s.memory.buffer.capacity, m.buffer.block.take k = s.memory.buffer.block.take k)
    (empty : ∀ x ∈ s.live, x.2 = 0) :
    Sound a p { memory := m, live := s.live ++ [(m.base + a.size, size)] } := by
  have block (x : Nat × Nat) (hx : x ∈ s.live ++ [(m.base + a.size, size)]) :
      x.2 = 0 ∨ x = (m.base + a.size, size) := by
    rcases List.mem_append.mp hx with old | new
    · exact Or.inl (empty x old)
    · exact Or.inr (List.mem_singleton.mp new)
  refine ⟨⟨?_, ?_, ?_, ?_⟩, valid, ?_, ?_⟩
  · refine List.pairwise_append.mpr ⟨hs.contract.apart, List.pairwise_singleton _ _, ?_⟩
    intro x hx y _ address occupied
    exact absurd occupied (empty_unoccupied (empty x hx) address)
  · intro x hx address occupied
    rcases block x hx with none | rfl
    · exact absurd occupied (empty_unoccupied none address)
    · obtain ⟨above, below⟩ := occupied
      dsimp only at above below ⊢
      omega
  · exact (kept p.length hs.front_le).trans hs.contract.front
  · intro none
    exact absurd none (List.append_ne_nil_of_right_ne_nil _ (List.cons_ne_nil _ _))
  · show m.buffer.size = _
    rw [List.map_append, List.sum_append, sum_empty empty, resized, same, Nat.zero_add, List.map_singleton,
      List.sum_singleton]
  · intro x hx given
    rcases block x hx with none | rfl
    · exact absurd none given
    · show m.base + a.size = m.base + p.length
      rw [same]

/-- A block that is allocated while another one has elements is either laid over that one or leaves it
outside. -/
theorem allocate_breaks (positive : 0 < a.width) (same : a.size = p.length) {m : Placed}
    (resized : m.buffer.size = a.size + size * a.width)
    (contract : Contract a p { memory := m, live := s.live ++ [(m.base + a.size, size)] }) :
    ∀ x ∈ s.live, x.2 = 0 := by
  intro x hx
  by_contra given
  have first := occupies_start positive given
  have within := contract.inside x (List.mem_append_left _ hx) x.1 first
  have apart := (List.pairwise_append.mp contract.apart).2.2 x hx _ (List.mem_singleton_self _) x.1 first
  apply apart
  dsimp only at within
  constructor
  · show m.base + a.size ≤ x.1
    omega
  · show x.1 < m.base + a.size + size * a.width
    omega

/-- Where the size wraps around, the block lies outside. -/
theorem allocate_wraps (same : a.size = p.length) (front : p.length < 2 ^ 64) {m : Placed}
    (small : size * a.width < 2 ^ 64) (resized : m.buffer.size = sizeT (a.size + size * a.width))
    (wraps : 2 ^ 64 ≤ a.size + size * a.width) :
    ¬Contract a p { memory := m, live := s.live ++ [(m.base + a.size, size)] } := by
  intro contract
  have occupied : a.Occupies (m.base + a.size, size) (m.base + a.size) := by
    constructor
    · exact Nat.le_refl _
    · show m.base + a.size < m.base + a.size + size * a.width
      omega
  have within := (contract.inside _ (List.mem_append_right _ (List.mem_singleton_self _)) _ occupied).2
  dsimp only at within
  rw [resized] at within
  unfold sizeT at within
  omega

theorem allocate_keeps (hs : Sound a p s) (same : a.size = p.length)
    (fits : Fits a s (.allocate size answer)) :
    ∃ t, a.perform s (.allocate size answer) = .ok t ∧ Sound a p t := by
  by_cases refused : size > (2 ^ 64 - 1) / a.width ∨
      Refuses s.memory (sizeT (a.size + size * a.width)) answer
  · exact ⟨s, perform_refused hs refused, hs⟩
  · obtain ⟨small, granted⟩ := not_or.mp refused
    obtain ⟨fine, empty⟩ := (fits.resolve_left small).resolve_left granted
    obtain ⟨m, done, valid, resized, kept⟩ := perform_granted hs small granted
    rw [sizeT_of_lt fine] at resized
    exact ⟨_, done, allocate_sound hs same valid resized kept empty⟩

theorem allocate_only (hs : Sound a p s) (positive : 0 < a.width) (same : a.size = p.length)
    (h : a.perform s (.allocate size answer) = .ok t) (contract : Contract a p t) :
    Fits a s (.allocate size answer) := by
  by_cases large : size > (2 ^ 64 - 1) / a.width
  · exact Or.inl large
  · by_cases refused : Refuses s.memory (sizeT (a.size + size * a.width)) answer
    · exact Or.inr (Or.inl refused)
    · obtain ⟨m, done, valid, resized, _⟩ := perform_granted hs large refused
      cases done.symm.trans h
      have bytes : size * a.width < 2 ^ 64 := by
        have product := (Nat.le_div_iff_mul_le positive).mp (Nat.le_of_not_lt large)
        omega
      have front : p.length < 2 ^ 64 := by
        have front_le := hs.front_le
        have capacity_le := hs.valid.capacity_le
        have maximum_lt := hs.valid.maximum_lt
        omega
      by_cases fine : a.size + size * a.width < 2 ^ 64
      · rw [sizeT_of_lt fine] at resized
        exact Or.inr (Or.inr ⟨fine, allocate_breaks positive same resized contract⟩)
      · exact absurd contract (allocate_wraps same front bytes resized (Nat.le_of_not_lt fine))

theorem Sound.size_lt (hs : Sound a p s) : s.memory.buffer.size < 2 ^ 64 := by
  have size_le := hs.valid.size_le
  have capacity_le := hs.valid.capacity_le
  have maximum_lt := hs.valid.maximum_lt
  omega

theorem perform_deallocate {ptr : Nat} (hs : Sound a p s) (same : a.size = p.length)
    (here : s.memory.base + a.size = ptr) (sized : s.memory.buffer.size = sizeT (a.size + size)) :
    ∃ m, a.perform s (.deallocate ptr size answer) = .ok { memory := m, live := s.live.erase (ptr, size) } ∧
      m.buffer.Valid ∧ m.buffer.size = p.length ∧
      m.buffer.block.take p.length = s.memory.buffer.block.take p.length := by
  have front_le := hs.front_le
  have granted : ¬Refuses s.memory a.size answer := by
    rintro ⟨larger, _⟩
    omega
  obtain ⟨m, done, valid, resized, kept, _⟩ := resize_granted hs.valid granted
  refine ⟨m, ?_, valid, resized.trans same, kept p.length front_le⟩
  have returned : a.deallocate s.memory ptr size answer = .ok m := by
    unfold deallocate
    rw [require_of here, ok_bind, require_of sized, ok_bind, done]
    rfl
  show (a.deallocate s.memory ptr size answer >>= _) = _
  rw [returned]
  rfl

theorem deallocate_keeps {ptr : Nat} (hs : Sound a p s) (positive : 0 < a.width) (same : a.size = p.length)
    (legal : (ptr, size) ∈ s.live) (fits : Fits a s (.deallocate ptr size answer)) :
    ∃ t, a.perform s (.deallocate ptr size answer) = .ok t ∧ Sound a p t := by
  obtain ⟨single, unmoved⟩ := fits
  have size_lt := hs.size_lt
  have total := hs.total
  have here : s.memory.base + a.size = ptr := by
    by_cases empty : size = 0
    · exact (unmoved empty).1.symm
    · have start : ptr = s.memory.base + p.length := hs.placed _ legal empty
      rw [start, same]
  have sized : s.memory.buffer.size = a.size + size := by
    by_cases empty : size = 0
    · rw [sum_empty (unmoved empty).2] at total
      omega
    · rw [hs.sum_of_mem positive legal empty, single empty] at total
      omega
  have rest : ∀ y ∈ s.live.erase (ptr, size), y.2 = 0 := by
    by_cases empty : size = 0
    · exact fun y hy => (unmoved empty).2 y (List.mem_of_mem_erase hy)
    · exact hs.others_empty positive legal empty
  obtain ⟨m, done, valid, resized, kept⟩ := @perform_deallocate a p s size answer ptr hs same here
    (sized.trans (sizeT_of_lt (sized ▸ size_lt)).symm)
  refine ⟨_, done, ⟨?_, ?_, ?_, fun _ => resized⟩, valid, ?_, ?_⟩
  · exact hs.contract.apart.sublist List.erase_sublist
  · exact fun x hx address occupied => absurd occupied (empty_unoccupied (rest x hx) address)
  · exact kept.trans hs.contract.front
  · rw [sum_empty rest]
    exact resized
  · exact fun x hx given => absurd (rest x hx) given

theorem deallocate_only {ptr : Nat} (hs : Sound a p s) (positive : 0 < a.width) (same : a.size = p.length)
    (legal : (ptr, size) ∈ s.live) (h : a.perform s (.deallocate ptr size answer) = .ok t) :
    Fits a s (.deallocate ptr size answer) := by
  obtain ⟨_, h, _⟩ := bind_ok h
  obtain ⟨_, hp, h⟩ := bind_ok h
  obtain ⟨_, hs', _⟩ := bind_ok h
  have here := require_ok hp
  have sized := require_ok hs'
  have total := hs.total
  have size_lt := hs.size_lt
  constructor
  · intro given
    rw [hs.sum_of_mem positive legal given] at total
    dsimp only at total
    have grows : size ≤ size * a.width := Nat.le_mul_of_pos_right size positive
    rw [sizeT_of_lt (by omega)] at sized
    have once : size * a.width = size * 1 := by omega
    exact Nat.eq_of_mul_eq_mul_left (Nat.pos_of_ne_zero given) once
  · rintro rfl
    refine ⟨here.symm, fun x hx => ?_⟩
    by_contra given
    have bytes : 0 < x.2 * a.width := Nat.mul_pos (Nat.pos_of_ne_zero given) positive
    rw [hs.sum_of_mem positive hx given] at total
    rw [sizeT_of_lt (by omega)] at sized
    omega

end Steps

section Runs

/-- A container may use the allocator as it does, with `operations` that match, if and only if all of them
fit. -/
theorem safe_iff_fits {m : Placed} {p : List Byte} (held : m.buffer.Holds p) {width : Nat} (positive : 0 < width)
    {operations : List Operation}
    (legal : Along (construct m width).perform Matches { memory := m } operations) :
    Safe (construct m width).perform (Contract (construct m width) p) { memory := m } operations ↔
      Along (construct m width).perform (Fits (construct m width)) { memory := m } operations := by
  have size := held.size
  have start : Sound (construct m width) p { memory := m } := by
    refine ⟨⟨List.Pairwise.nil, nofun, ?_, fun _ => size⟩, held.valid, size, nofun⟩
    rw [← size]
    exact held.contents
  refine safe_iff (Sound (construct m width) p) Sound.contract ?_ ?_ start legal
  · intro s operation hs matched fits
    cases operation with
    | allocate n answer => exact allocate_keeps hs size fits
    | deallocate ptr n answer => exact deallocate_keeps hs positive size matched fits
  · intro s operation t hs matched reached contract
    cases operation with
    | allocate n answer => exact allocate_only hs positive size reached contract
    | deallocate ptr n answer => exact deallocate_only hs positive size matched reached

def unplaced : Placed := { buffer := {}, base := 0 }

/-- What a container of two bytes allocates is given back. -/
theorem safe_iff_fits_bytes :
    Safe (construct unplaced 1).perform (Contract (construct unplaced 1) []) { memory := unplaced }
      [.allocate 2 (some 64), .deallocate 64 2 none] := by
  have legal : Along (construct unplaced 1).perform Matches { memory := unplaced }
      [.allocate 2 (some 64), .deallocate 64 2 none] := by
    refine ⟨trivial, fun t allocated => ⟨?_, fun _ _ => trivial⟩⟩
    cases allocated
    exact List.mem_singleton_self _
  refine (safe_iff_fits Buffer.holds_empty Nat.one_pos legal).mpr ⟨?_, fun t _ => ⟨?_, fun _ _ => trivial⟩⟩
  · refine Or.inr (Or.inr ⟨?_, nofun⟩)
    show 0 + 2 * 1 < 2 ^ 64
    omega
  · exact ⟨fun _ => rfl, nofun⟩

/-- `deallocate(allocate(1), 1)` for elements of four bytes: the size is 4, and 1 is asserted. -/
theorem deallocate_asserts :
    ¬∀ (m : Placed) (p : List Byte) (width : Nat) (operations : List Operation),
      m.buffer.Holds p → 0 < width → Along (construct m width).perform Matches { memory := m } operations →
        Safe (construct m width).perform (Contract (construct m width) p) { memory := m } operations := by
  intro h
  have legal : Along (construct unplaced 4).perform Matches { memory := unplaced }
      [.allocate 1 (some 64), .deallocate 64 1 none] := by
    refine ⟨trivial, fun t allocated => ⟨?_, fun _ _ => trivial⟩⟩
    cases allocated
    exact List.mem_singleton_self _
  obtain ⟨_, t, allocated, _, u, deallocated, _⟩ := h unplaced [] 4 _ Buffer.holds_empty (by omega) legal
  cases allocated
  cases deallocated

end Runs

end BufferAllocator

end Hlib
