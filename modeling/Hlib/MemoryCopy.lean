import Hlib.Memory
import Mathlib.Algebra.Order.Ring.Int

namespace Hlib.MemoryCopy

/-- Two ranges of `size` bytes that have none in common. -/
def Apart (size a b : Nat) : Prop := a + size ≤ b ∨ b + size ≤ a

instance (size a b : Nat) : Decidable (Apart size a b) := inferInstanceAs (Decidable (_ ∨ _))

/-- What `memcpy` may be asked for, in memory of so many bytes. -/
def Allowed (length size dst src : Nat) : Prop :=
  size = 0 ∨ dst + size ≤ length ∧ src + size ≤ length ∧ Apart size dst src

instance (length size dst src : Nat) : Decidable (Allowed length size dst src) :=
  inferInstanceAs (Decidable (_ ∨ _))

/-- `memcpy(dst, src, size)`, where the memory holds both; elsewhere it is undefined. -/
def memcpy (dst src size : Nat) (memory : List Byte) : Option (List Byte) :=
  if Allowed memory.length size dst src then
    some (memory.take dst ++ (memory.drop src).take size ++ memory.drop (dst + size))
  else none

/-- The loop of `memory_copy`. -/
def copyLines (dstStride srcStride lineSize : Nat) : Nat → Nat → Nat → List Byte → Option (List Byte)
  | 0, _, _, memory => some memory
  | lines + 1, d, s, memory => do
    let memory ← memcpy d s lineSize memory
    copyLines dstStride srcStride lineSize lines (d + dstStride) (s + srcStride) memory

/-- `memory_copy(dst, dst_stride, src, src_stride, line_size, lines)`. -/
def memoryCopy (dst dstStride src srcStride lineSize lines : Nat) (memory : List Byte) : Option (List Byte) :=
  copyLines dstStride srcStride lineSize lines dst src memory

variable {dst dstStride src srcStride lineSize lines : Nat} {memory memory' : List Byte}

/-- Where the byte at `p` comes from: from the last of the lines that are copied over it. -/
def origin (dst dstStride src srcStride lineSize : Nat) : Nat → Nat → Nat
  | 0, p => p
  | line + 1, p =>
    if dst + line * dstStride ≤ p ∧ p < dst + line * dstStride + lineSize then
      src + line * srcStride + (p - (dst + line * dstStride))
    else origin dst dstStride src srcStride lineSize line p

section Single

variable {size : Nat}

theorem memcpy_iff : memcpy dst src size memory = some memory' ↔ Allowed memory.length size dst src ∧
    memory' = memory.take dst ++ (memory.drop src).take size ++ memory.drop (dst + size) := by
  unfold memcpy
  split
  next allowed => rw [Option.some.injEq, and_iff_right allowed, eq_comm]
  next refused => exact iff_of_false (fun h => by cases h) fun h => refused h.1

theorem copied_length (allowed : Allowed memory.length size dst src) :
    (memory.take dst ++ (memory.drop src).take size ++ memory.drop (dst + size)).length = memory.length := by
  simp only [List.length_append, List.length_take, List.length_drop]
  unfold Allowed at allowed
  omega

/-- A byte behind the copy is one of the source, or as it was. -/
theorem copied_getElem (allowed : Allowed memory.length size dst src) (p : Nat) :
    (memory.take dst ++ (memory.drop src).take size ++ memory.drop (dst + size))[p]? =
      if dst ≤ p ∧ p < dst + size then memory[src + (p - dst)]? else memory[p]? := by
  rcases allowed with rfl | ⟨room, within, _⟩
  · have nothing : ¬(dst ≤ p ∧ p < dst + 0) := by omega
    rw [if_neg nothing, List.take_zero, List.append_nil, Nat.add_zero, List.take_append_drop]
  · have front : (memory.take dst).length = dst := by
      rw [List.length_take]
      omega
    have middle : ((memory.drop src).take size).length = size := by
      rw [List.length_take, List.length_drop]
      omega
    rw [List.append_assoc]
    by_cases before : p < dst
    · have outside : ¬(dst ≤ p ∧ p < dst + size) := by omega
      rw [if_neg outside, List.getElem?_append_left (by omega), List.getElem?_take_of_lt before]
    · rw [List.getElem?_append_right (by omega), front]
      by_cases inside : p < dst + size
      · have covered : dst ≤ p ∧ p < dst + size := by omega
        have part : p - dst < size := by omega
        rw [if_pos covered, List.getElem?_append_left (by omega), List.getElem?_take_of_lt part,
          List.getElem?_drop]
      · have outside : ¬(dst ≤ p ∧ p < dst + size) := by omega
        have behind : dst + size + (p - dst - size) = p := by omega
        rw [if_neg outside, List.getElem?_append_right (by omega), middle, List.getElem?_drop, behind]

end Single

section Lines

theorem copyLines_succ (lines d s : Nat) (memory : List Byte) :
    copyLines dstStride srcStride lineSize (lines + 1) d s memory =
      (copyLines dstStride srcStride lineSize lines d s memory).bind
        (memcpy (d + lines * dstStride) (s + lines * srcStride) lineSize) := by
  induction lines generalizing d s memory with
  | zero =>
    rw [Nat.zero_mul, Nat.zero_mul]
    exact Option.bind_fun_some _
  | succ lines ih =>
    have further (base stride : Nat) : base + stride + lines * stride = base + (lines + 1) * stride := by
      rw [Nat.succ_mul]
      omega
    rw [copyLines, copyLines]
    cases memcpy d s lineSize memory with
    | none => rfl
    | some copied =>
      change copyLines dstStride srcStride lineSize (lines + 1) (d + dstStride) (s + srcStride) copied = _
      rw [ih, further, further]
      rfl

/-- A byte that no line is copied over comes from its own place. -/
theorem origin_untouched {p : Nat}
    (untouched : ∀ line < lines, ¬(dst + line * dstStride ≤ p ∧ p < dst + line * dstStride + lineSize)) :
    origin dst dstStride src srcStride lineSize lines p = p := by
  induction lines with
  | zero => rfl
  | succ line ih =>
    rw [origin, if_neg (untouched line (Nat.lt_succ_self line))]
    exact ih fun earlier bound => untouched earlier (Nat.lt_succ_of_lt bound)

theorem memoryCopy_length (h : memoryCopy dst dstStride src srcStride lineSize lines memory = some memory') :
    memory'.length = memory.length := by
  induction lines generalizing memory' with
  | zero =>
    cases h
    rfl
  | succ line ih =>
    rw [memoryCopy, copyLines_succ] at h
    obtain ⟨before, first, last⟩ := Option.bind_eq_some_iff.mp h
    obtain ⟨allowed, rfl⟩ := memcpy_iff.mp last
    rw [copied_length allowed, ih first]

theorem memoryCopy_defined_iff :
    (∃ memory', memoryCopy dst dstStride src srcStride lineSize lines memory = some memory') ↔
      ∀ line < lines, Allowed memory.length lineSize (dst + line * dstStride) (src + line * srcStride) := by
  induction lines with
  | zero => exact iff_of_true ⟨memory, rfl⟩ fun _ bound => absurd bound (Nat.not_lt_zero _)
  | succ last ih =>
    rw [memoryCopy, copyLines_succ]
    constructor
    · rintro ⟨memory', h⟩ line bound
      obtain ⟨before, first, copied⟩ := Option.bind_eq_some_iff.mp h
      obtain earlier | same := Nat.lt_succ_iff_lt_or_eq.mp bound
      · exact ih.mp ⟨before, first⟩ line earlier
      · subst same
        have allowed := (memcpy_iff.mp copied).1
        rwa [memoryCopy_length first] at allowed
    · intro allowed
      obtain ⟨before, first⟩ := ih.mpr fun line bound => allowed line (Nat.lt_succ_of_lt bound)
      have here := allowed last (Nat.lt_succ_self last)
      rw [← memoryCopy_length first] at here
      exact ⟨_, Option.bind_eq_some_iff.mpr ⟨before, first, memcpy_iff.mpr ⟨here, rfl⟩⟩⟩

/-- Where no line is read after another one was copied over it. -/
def Unspoilt (dst dstStride src srcStride lineSize lines : Nat) : Prop :=
  ∀ earlier later, earlier < later → later < lines →
    Apart lineSize (dst + earlier * dstStride) (src + later * srcStride)

theorem memoryCopy_origin (unspoilt : Unspoilt dst dstStride src srcStride lineSize lines)
    (h : memoryCopy dst dstStride src srcStride lineSize lines memory = some memory') (p : Nat) :
    memory'[p]? = memory[origin dst dstStride src srcStride lineSize lines p]? := by
  induction lines generalizing memory' p with
  | zero =>
    cases h
    rfl
  | succ last ih =>
    rw [memoryCopy, copyLines_succ] at h
    obtain ⟨before, first, copied⟩ := Option.bind_eq_some_iff.mp h
    obtain ⟨allowed, rfl⟩ := memcpy_iff.mp copied
    have earlier := ih (fun a b order bound => unspoilt a b order (Nat.lt_succ_of_lt bound)) first
    rw [copied_getElem allowed, origin]
    split
    next covered =>
      -- The line that is read now is still what it was at first.
      rw [earlier, origin_untouched]
      intro line bound touched
      have apart := unspoilt line last bound (Nat.lt_succ_self last)
      unfold Apart at apart
      omega
    next => exact earlier p

/-- Where no line is read after another one was copied over it, `memory_copy` is defined just when each line may be
copied, and does it as if all of them were read at first: each byte is that of the last line copied over it, and the
others are as they were. -/
theorem memoryCopy_iff (unspoilt : Unspoilt dst dstStride src srcStride lineSize lines) :
    memoryCopy dst dstStride src srcStride lineSize lines memory = some memory' ↔
      (∀ line < lines, Allowed memory.length lineSize (dst + line * dstStride) (src + line * srcStride)) ∧
        ∀ p : Nat, memory'[p]? = memory[origin dst dstStride src srcStride lineSize lines p]? := by
  constructor
  · intro h
    exact ⟨memoryCopy_defined_iff.mp ⟨memory', h⟩, memoryCopy_origin unspoilt h⟩
  · rintro ⟨allowed, same⟩
    obtain ⟨copied, h⟩ := memoryCopy_defined_iff.mpr allowed
    rw [h]
    refine congrArg some (List.ext_getElem? fun p => ?_)
    rw [memoryCopy_origin unspoilt h, same]

/-- Two lines that overlap where they are copied to. -/
theorem memoryCopy_iff_overlap :
    memoryCopy 0 1 4 2 2 2 [1, 2, 3, 4, 5, 6, 7, 8] = some [5, 7, 8, 4, 5, 6, 7, 8] ↔
      (∀ line < 2, Allowed 8 2 (0 + line * 1) (4 + line * 2)) ∧
        ∀ p : Nat, ([5, 7, 8, 4, 5, 6, 7, 8] : List Byte)[p]? =
          ([1, 2, 3, 4, 5, 6, 7, 8] : List Byte)[origin 0 1 4 2 2 2 p]? := by
  have unspoilt : Unspoilt 0 1 4 2 2 2 := by
    intro earlier later _ _
    unfold Apart
    omega
  exact memoryCopy_iff unspoilt

end Lines

end Hlib.MemoryCopy
