import Hlib.BufferInvariant

namespace Hlib

open Function Transition

namespace Buffer

section Growth

/-- The calls that make room for bytes behind the contents; `insert` is given a null pointer. -/
inductive Growth
  | extend
  | extendZeroed
  | insert (offset : Nat)

def Growth.call (n : Nat) : Growth → Call
  | .extend => .extend n
  | .extendZeroed => .extendZeroed n
  | .insert offset => .insert offset none n

def Growth.Inside (b : Buffer) : Growth → Prop
  | .insert offset => offset ≤ b.size
  | _ => True

/-- There is room for `n` more bytes, which `insert` has also counted in. -/
def Growth.Gained (b b' : Buffer) (n : Nat) : Growth → Prop
  | .insert _ => b.size + n ≤ b'.capacity ∧ b'.size = b.size + n
  | _ => b.size + n ≤ b'.capacity

variable {b : Buffer} {n : Nat}

theorem realloc_fits {capacity : Nat} (type : ReallocType) (grows : type ≠ .shrink)
    (fits : capacity ≤ b.capacity) (alloc : Bool) : b.realloc capacity type alloc = (true, b) := by
  unfold realloc
  exact if_pos ⟨grows, fits⟩

/-- A sum of the size and a `std::size_t` that wraps around is less than the size. -/
theorem sizeT_wrapped {size n : Nat} (hs : size < 2 ^ 64) (hn : n < 2 ^ 64) (wraps : 2 ^ 64 ≤ size + n) :
    sizeT (size + n) < size := by
  unfold sizeT
  omega

theorem extendWith_gains (type : ReallocType) (hf : b.Framed)
    (h : b.size ≤ b.capacity) (sum : b.size + n < 2 ^ 64) (alloc : Bool) :
    ∃ pointer b', b.extendWith type n alloc = .ok (pointer, b') ∧
      (pointer ≠ none ∨ n = 0 → b.size + n ≤ b'.capacity) := by
  unfold extendWith
  rw [require_of h, ok_bind]
  by_cases positive : 0 < n
  · rw [if_pos positive, sizeT_of_lt sum]
    have grown := reallocated hf (b.size + n) type alloc
    generalize b.realloc (b.size + n) type alloc = result at grown ⊢
    obtain ⟨_ | _, b'⟩ := result
    · refine ⟨none, b', rfl, ?_⟩
      rintro (given | zero)
      · exact absurd rfl given
      · omega
    · exact ⟨b'.address b'.size, b', rfl, fun _ => grown.room rfl⟩
  · rw [if_neg positive]
    exact ⟨b.address b.size, b, rfl, fun _ => by omega⟩

theorem extendWith_wraps (type : ReallocType) (grows : type ≠ .shrink) (hf : b.Framed)
    (h : b.size ≤ b.capacity) (hn : n < 2 ^ 64) (wraps : 2 ^ 64 ≤ b.size + n) (alloc : Bool) :
    b.extendWith type n alloc = .ok (some b.size, b) := by
  have capacity_le := hf.capacity_le
  have maximum_lt := hf.maximum_lt
  have less := sizeT_wrapped (show b.size < 2 ^ 64 by omega) hn wraps
  have used : ¬(b.data = none ∧ b.size = 0) := by omega
  unfold extendWith
  rw [require_of h, ok_bind, if_pos (by omega), realloc_fits type grows (by omega)]
  show Except.ok (b.address b.size, b) = _
  rw [address, if_neg used]

theorem insert_gains {offset : Nat} (hf : b.Framed) (h : b.size ≤ b.capacity) (inside : offset ≤ b.size)
    (sum : b.size + n < 2 ^ 64) (alloc : Bool) :
    ∃ done b', b.insert offset none n alloc = .ok (done, b') ∧
      (done = true → b.size + n ≤ b'.capacity ∧ b'.size = b.size + n) := by
  unfold insert
  rw [require_of inside, ok_bind, require_of h, ok_bind]
  by_cases zero : n = 0
  · rw [if_pos zero]
    exact ⟨true, b, rfl, fun _ => by omega⟩
  · rw [if_neg zero, sizeT_of_lt sum]
    have grown := reallocated hf (b.size + n) .grow alloc
    have kept := realloc_size h .grow nofun (b.size + n) alloc
    generalize b.realloc (b.size + n) .grow alloc = result at grown kept ⊢
    obtain ⟨_ | _, b'⟩ := result
    · exact ⟨false, b', rfl, nofun⟩
    · have room : b.size + n ≤ b'.capacity := grown.room rfl
      change b'.size = b.size at kept
      have hv : b'.Valid := grown.framed.valid (grown.size_le h)
      have present : b'.data ≠ none := hv.present (by omega)
      have tail : sizeDiff b'.size offset = b.size - offset := by
        rw [kept]
        exact sizeDiff_of_le (by omega) inside
      refine ⟨true, { b'.stored (offset + n) ((b'.block.drop offset).take (b.size - offset)) with
        size := sizeT (b'.size + n) }, ?_, fun _ => ⟨room, ?_⟩⟩
      · have ends : sizeT (offset + n) = offset + n := sizeT_of_lt (by omega)
        show (b'.memmove (sizeT (offset + n)) offset (sizeDiff b'.size offset) >>= _) = _
        rw [ends, tail, memmove_within hv present (by omega) (by omega), ok_bind]
        rfl
      · show sizeT (b'.size + n) = _
        rw [kept, sizeT_of_lt sum]

/-- With a sum that wraps around, `insert` returns only with the size that is left of the sum. -/
theorem insert_wraps {offset : Nat} (hf : b.Framed) (h : b.size ≤ b.capacity) (hn : n < 2 ^ 64)
    (wraps : 2 ^ 64 ≤ b.size + n) {alloc done : Bool} {b' : Buffer}
    (hi : b.insert offset none n alloc = .ok (done, b')) :
    done = true ∧ b'.size = sizeT (b.size + n) := by
  have capacity_le := hf.capacity_le
  have maximum_lt := hf.maximum_lt
  have less := sizeT_wrapped (show b.size < 2 ^ 64 by omega) hn wraps
  obtain ⟨_, _, hi⟩ := bind_ok hi
  obtain ⟨_, _, hi⟩ := bind_ok hi
  rw [if_neg (by omega), realloc_fits .grow nofun (by omega)] at hi
  obtain ⟨moved, hm, hi⟩ := bind_ok hi
  cases hi
  obtain ⟨_, size_eq, _⟩ := memmove_framed hm hf
  refine ⟨rfl, ?_⟩
  show sizeT (moved.size + n) = _
  rw [size_eq]

/-- The call returns, and where it reports success the room has been gained. -/
theorem call_gains (growth : Growth) (hf : b.Framed) (h : b.size ≤ b.capacity) (inside : growth.Inside b)
    (sum : b.size + n < 2 ^ 64) (alloc : Bool) :
    ∃ done b', b.call alloc (growth.call n) = .ok (done, b') ∧
      (done = true ∨ (growth.call n).throws = false → growth.Gained b b' n) := by
  cases growth with
  | extend =>
    obtain ⟨pointer, b', he, gained⟩ := extendWith_gains .grow hf h sum alloc
    refine ⟨pointer ≠ none, b', ?_, ?_⟩
    · show pointing (b.extendWith .grow n alloc) = _
      rw [he]
      rfl
    · simpa [Growth.call, Call.throws, Growth.Gained] using gained
  | extendZeroed =>
    obtain ⟨pointer, b', he, gained⟩ := extendWith_gains .growZeroed hf h sum alloc
    refine ⟨pointer ≠ none, b', ?_, ?_⟩
    · show pointing (b.extendWith .growZeroed n alloc) = _
      rw [he]
      rfl
    · simpa [Growth.call, Call.throws, Growth.Gained] using gained
  | insert offset =>
    obtain ⟨done, b', hi, gained⟩ := insert_gains hf h inside sum alloc
    exact ⟨done, b', hi, by simpa [Growth.call, Call.throws, Growth.Gained] using gained⟩

/-- With a sum that wraps around, a call that returns reports success and has gained nothing. -/
theorem call_wraps (growth : Growth) (hf : b.Framed) (h : b.size ≤ b.capacity) (hn : n < 2 ^ 64)
    (wraps : 2 ^ 64 ≤ b.size + n) {alloc done : Bool} {b' : Buffer}
    (hc : b.call alloc (growth.call n) = .ok (done, b')) : done = true ∧ ¬growth.Gained b b' n := by
  have capacity_le := hf.capacity_le
  have maximum_lt := hf.maximum_lt
  cases growth with
  | extend =>
    change pointing (b.extendWith .grow n alloc) = _ at hc
    rw [extendWith_wraps .grow nofun hf h hn wraps alloc] at hc
    cases hc
    refine ⟨rfl, ?_⟩
    show ¬b.size + n ≤ b.capacity
    omega
  | extendZeroed =>
    change pointing (b.extendWith .growZeroed n alloc) = _ at hc
    rw [extendWith_wraps .growZeroed nofun hf h hn wraps alloc] at hc
    cases hc
    refine ⟨rfl, ?_⟩
    show ¬b.size + n ≤ b.capacity
    omega
  | insert offset =>
    obtain ⟨rfl, size_eq⟩ := insert_wraps hf h hn wraps hc
    refine ⟨rfl, ?_⟩
    rintro ⟨_, counted⟩
    have less := sizeT_wrapped (show b.size < 2 ^ 64 by omega) hn wraps
    omega

theorem size_le_of_call (growth : Growth) {alloc done : Bool} {b' : Buffer}
    (hc : b.call alloc (growth.call n) = .ok (done, b')) : b.size ≤ b.capacity := by
  cases growth with
  | insert offset =>
    obtain ⟨_, _, hc⟩ := bind_ok hc
    obtain ⟨_, hr, _⟩ := bind_ok hc
    exact require_ok hr
  | _ =>
    obtain ⟨_, he, _⟩ := bind_ok hc
    obtain ⟨_, hr, _⟩ := bind_ok he
    exact require_ok hr

end Growth

section Reports

variable {ι : Type} [DecidableEq ι] {s : Objects ι} {i : ι} {b : Buffer} {n : Nat}

theorem report_true {nothrow throws done : Bool} (h : report nothrow throws done = .returned true) :
    done = true ∨ throws = false := by
  unfold report at h
  split at h
  next =>
    cases h
    exact Or.inl rfl
  next =>
    split at h
    next => cases h
    next returns => cases done <;> simp_all

/-- The call returns or throws; and it reports failure, or the room is there. -/
def GrowsOrFails (s : Objects ι) (i : ι) (b : Buffer) (growth : Growth) (n : Nat) (nothrow alloc : Bool)
    (garbage : Nat → Byte) : Prop :=
  ∃ report t, act s alloc garbage (.call i nothrow (growth.call n)) = .ok (report, t) ∧
    (report = .returned true → ∃ b', t i = some b' ∧ growth.Gained b b' n)

/-- In every state a run leads to: the sum of the size and the request must be one that does not wrap
around, on a buffer whose size is within its capacity. -/
theorem growsOrFails_iff {labels : List (Action ι)} (run : Run Performed Start labels s)
    (hb : s i = some b) (growth : Growth) (inside : growth.Inside b) (hn : n < 2 ^ 64)
    (nothrow alloc : Bool) (garbage : Nat → Byte) :
    GrowsOrFails s i b growth n nothrow alloc garbage ↔ b.size ≤ b.capacity ∧ b.size + n < 2 ^ 64 := by
  have hf := framed_of_run run i b hb
  unfold GrowsOrFails
  rw [act_call hb]
  constructor
  · rintro ⟨told, t, ha, success⟩
    obtain ⟨⟨done, b'⟩, hc, ha⟩ := bind_ok ha
    have size_le := size_le_of_call growth hc
    refine ⟨size_le, ?_⟩
    by_contra wraps
    obtain ⟨rfl, lost⟩ := call_wraps growth hf size_le hn (by omega) hc
    cases ha
    have returned : report nothrow (growth.call n).throws true = .returned true := by
      cases nothrow <;> rfl
    obtain ⟨b₁, here, gained⟩ := success returned
    rw [update_self] at here
    cases here
    exact lost gained
  · rintro ⟨size_le, sum⟩
    obtain ⟨done, b', hc, gained⟩ := call_gains growth hf size_le inside sum alloc
    refine ⟨_, _, by rw [hc, ok_bind], fun returned => ?_⟩
    exact ⟨b', update_self i (some b') s, gained (report_true returned)⟩

/-- `Buffer b("ab"); b.extend(1, std::nothrow);` -/
theorem growsOrFails_iff_filled :
    GrowsOrFails (update Start () (some filled)) () filled .extend 1 true true (fun _ => 0) := by
  have run := Run.start.next construct_performed
  have here : update Start () (some filled) () = some filled := update_self () _ _
  refine (growsOrFails_iff run here .extend trivial ?_ true true _).mpr ⟨Nat.le_refl 2, ?_⟩
  · omega
  · show 2 + 1 < 2 ^ 64
    omega

/-- `Buffer b("ab"); b.extend(SIZE_MAX, std::nothrow);` asks for the capacity 1, and is told that
there is room. -/
theorem extend_wraps :
    ¬∀ (labels : List (Action Unit)) (s : Objects Unit) (b : Buffer) (growth : Growth) (n : Nat),
      Run Performed Start labels s → s () = some b → growth.Inside b → n < 2 ^ 64 →
        GrowsOrFails s () b growth n true true (fun _ => 0) := by
  intro h
  have here : update Start () (some filled) () = some filled := update_self () _ _
  obtain ⟨told, t, ha, success⟩ := h _ _ filled .extend (2 ^ 64 - 1) (Run.start.next construct_performed)
    here trivial (by omega)
  rw [act_call here] at ha
  obtain ⟨⟨done, b'⟩, hc, ha⟩ := bind_ok ha
  have hf : filled.Framed := framed_of_run (Run.start.next construct_performed) () filled here
  have wraps : 2 ^ 64 ≤ filled.size + (2 ^ 64 - 1) := by
    show 2 ^ 64 ≤ 2 + (2 ^ 64 - 1)
    omega
  obtain ⟨rfl, lost⟩ := call_wraps .extend hf (Nat.le_refl 2) (by omega) wraps hc
  cases ha
  obtain ⟨b₁, stored, gained⟩ := success rfl
  rw [update_self] at stored
  cases stored
  exact lost gained

end Reports

end Buffer

end Hlib
