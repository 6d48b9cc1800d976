import Hlib.BufferInvariant

namespace Hlib

open Function Transition Overwrite

namespace Buffer

section Cells

variable {b b' : Buffer} {offset size : Nat} {cells : List Cell} {alloc done : Bool}

/-- Every byte of the block has been stored to. -/
def Initialised (b : Buffer) : Prop := none ∉ b.block

theorem stored_initialised (h : b.Initialised) (given : none ∉ cells) :
    none ∉ overwrite b.block offset cells := by
  intro missing
  rcases mem_overwrite missing with old | new
  · exact h old
  · exact given new

theorem storeCells_initialised (h : b.storeCells offset cells = .ok b') (hi : b.Initialised)
    (given : none ∉ cells) : b'.Initialised := by
  unfold storeCells at h
  split at h
  next =>
    cases h
    exact hi
  next =>
    split at h
    next => cases h
    next block hd =>
      split at h
      next =>
        cases h
        have same : b.block = block := by
          rw [Buffer.block, hd]
          rfl
        have kept := @stored_initialised b offset _ hi given
        rw [same] at kept
        exact kept
      next => cases h

theorem memmove_initialised {target count : Nat} (h : b.memmove target offset count = .ok b')
    (hi : b.Initialised) : b'.Initialised := by
  obtain ⟨_, _, stored⟩ := bind_ok h
  refine storeCells_initialised stored hi fun missing => hi ?_
  exact List.mem_of_mem_drop (List.mem_of_mem_take missing)

theorem memcpy_initialised {target count : Nat} (h : b.memcpy target cells count = .ok b')
    (hi : b.Initialised) (given : none ∉ cells) : b'.Initialised := by
  obtain ⟨_, _, stored⟩ := bind_ok h
  exact storeCells_initialised stored hi fun missing => given (List.mem_of_mem_take missing)

end Cells

section Realloc

variable {b : Buffer} {capacity : Nat} {alloc : Bool} {block : List Cell}

theorem heapRealloc_block (hf : b.Framed) (h : heapRealloc b.data capacity alloc = some block) :
    block = b.block.take capacity ++ List.replicate (capacity - b.capacity) none := by
  unfold heapRealloc at h
  split at h
  next =>
    rw [← hf.block_length]
    exact (Option.some.inj h).symm
  next => cases h

theorem heapRealloc_grown (hf : b.Framed) (h : heapRealloc b.data capacity alloc = some block)
    (larger : b.capacity ≤ capacity) :
    block = b.block ++ List.replicate (capacity - b.capacity) none := by
  rw [heapRealloc_block hf h, List.take_of_length_le (by rw [hf.block_length]; exact larger)]

/-- The bytes of the new block behind the old ones are those that are set to zero. -/
theorem zeroed_initialised (hf : b.Framed) (hi : b.Initialised) (capacity : Nat) (alloc : Bool) :
    (b.realloc capacity .growZeroed alloc).2.Initialised := by
  unfold realloc
  split
  next => exact hi
  next larger =>
    have above : b.capacity < capacity := by
      by_contra fits
      exact larger ⟨nofun, Nat.le_of_not_lt fits⟩
    split
    next => exact hi
    next =>
      split
      next =>
        split
        next => exact hi
        next block hr =>
          change none ∉ (if _ then _ else block)
          have zeroed := @overwrite_last _ b.block (List.replicate (capacity - b.capacity) none)
            (List.replicate (capacity - b.capacity) (some (0 : Byte))) (by simp)
          rw [if_pos ⟨rfl, above⟩, heapRealloc_grown hf hr (Nat.le_of_lt above), ← hf.block_length]
          rw [← hf.block_length] at zeroed
          rw [zeroed]
          intro missing
          rcases List.mem_append.mp missing with old | zero
          · exact hi old
          · exact nomatch List.eq_of_mem_replicate zero
      next => exact List.not_mem_nil

theorem shrunk_initialised (hf : b.Framed) (hi : b.Initialised) (smaller : capacity ≤ b.capacity)
    (alloc : Bool) : (b.realloc capacity .shrink alloc).2.Initialised := by
  unfold realloc
  split
  next => exact hi
  next =>
    split
    next => exact hi
    next =>
      split
      next =>
        split
        next => exact hi
        next block hr =>
          intro missing
          have here : none ∈ block := by simpa [Buffer.block] using missing
          rw [heapRealloc_block hf hr, Nat.sub_eq_zero_of_le smaller, List.replicate_zero,
            List.append_nil] at here
          exact hi (List.mem_of_mem_take here)
      next => exact List.not_mem_nil

end Realloc

section Calls

variable {b b' : Buffer} {alloc done : Bool}

/-- What is answered once the block has grown leaves it alone. -/
theorem zeroed_answer {capacity : Nat} (answer : Buffer → Option Nat × Buffer) {r : Option Nat × Buffer}
    (keeps : ∀ b, (answer b).2.block = b.block) (hf : b.Framed) (hi : b.Initialised)
    (h : (match b.realloc capacity .growZeroed alloc with
      | (false, b) => .ok (none, b)
      | (true, b) => .ok (answer b) : Checked (Option Nat × Buffer)) = .ok r) : r.2.Initialised := by
  have zeroed := zeroed_initialised hf hi capacity alloc
  unfold Initialised at zeroed ⊢
  split at h
  next call =>
    cases h
    rw [call] at zeroed
    exact zeroed
  next call =>
    cases h
    rw [call] at zeroed
    rw [keeps]
    exact zeroed

theorem reserveZeroed_initialised {capacity : Nat}
    (h : pointing (b.reserveZeroed capacity alloc) = .ok (done, b')) (hf : b.Framed)
    (hi : b.Initialised) : b'.Initialised := by
  obtain ⟨_, hr, h⟩ := bind_ok h
  cases h
  obtain ⟨_, _, hr⟩ := bind_ok hr
  exact zeroed_answer (fun b => (b.address 0, b)) (fun _ => rfl) hf hi hr

theorem extendZeroed_initialised {capacity : Nat}
    (h : pointing (b.extendZeroed capacity alloc) = .ok (done, b')) (hf : b.Framed)
    (hi : b.Initialised) : b'.Initialised := by
  obtain ⟨_, hr, h⟩ := bind_ok h
  cases h
  obtain ⟨_, _, hr⟩ := bind_ok hr
  split at hr
  next => exact zeroed_answer (fun b => (b.address b.size, b)) (fun _ => rfl) hf hi hr
  next =>
    cases hr
    exact hi

theorem resizeZeroed_initialised {size : Nat}
    (h : pointing (b.resizeZeroed size alloc) = .ok (done, b')) (hf : b.Framed)
    (hi : b.Initialised) : b'.Initialised := by
  obtain ⟨_, hr, h⟩ := bind_ok h
  cases h
  obtain ⟨_, _, hr⟩ := bind_ok hr
  split at hr
  next => exact zeroed_answer (fun b => (b.address 0, { b with size := size })) (fun _ => rfl) hf hi hr
  next =>
    cases hr
    exact hi

theorem shrink_initialised (h : b.shrink alloc = .ok b') (hf : b.Framed) (hi : b.Initialised) :
    b'.Initialised := by
  obtain ⟨_, hs, h⟩ := bind_ok h
  split at h
  next =>
    cases h
    exact List.not_mem_nil
  next =>
    cases h
    exact shrunk_initialised hf hi (require_ok hs) alloc

theorem erase_initialised {offset size : Nat} (h : b.erase offset size = .ok b') (hi : b.Initialised) :
    b'.Initialised := by
  obtain ⟨_, _, h⟩ := bind_ok h
  obtain ⟨_, _, h⟩ := bind_ok h
  obtain ⟨moved, hm, h⟩ := bind_ok h
  cases h
  have kept := memmove_initialised hm hi
  exact kept

/-- What is inserted in a block that has grown by it, with the tail moved up, leaves no gap. -/
theorem grown_insert_initialised {grown moved filled : Buffer} {offset size : Nat} {cells : List Cell}
    (hv : b.Valid) (hi : b.Initialised) (given : none ∉ cells) (inside : offset ≤ b.size)
    (grows : Grown b grown (b.size + size)) (larger : b.capacity < b.size + size)
    (hm : grown.memmove (offset + size) offset (sizeDiff grown.size offset) = .ok moved)
    (hc : moved.memcpy offset cells size = .ok filled) : filled.Initialised := by
  have size_le := hv.size_le
  have maximum_lt := hv.maximum_lt
  have capacity_le := hv.capacity_le
  have capacity : grown.capacity = b.size + size := by
    rw [grows.capacity hv]
    omega
  have present : grown.data ≠ none := grows.valid.present (by omega)
  have difference : sizeDiff grown.size offset = b.size - offset := by
    rw [grows.size]
    exact sizeDiff_of_le (by omega) inside
  have tail : ((grown.block.drop offset).take (b.size - offset)).length ≤ b.size - offset := by
    rw [List.length_take]
    exact Nat.min_le_left _ _
  have valid : (grown.stored (offset + size) ((grown.block.drop offset).take (b.size - offset))).Valid :=
    valid_store grows.valid (by omega) present
  rw [difference, memmove_within grows.valid present (by omega) (by omega)] at hm
  cases hm
  obtain ⟨_, hr, _⟩ := bind_ok hc
  have read := require_ok hr
  rw [memcpy_within valid nofun read (show _ ≤ grown.capacity by omega)] at hc
  cases hc
  have taken : (cells.take size).length = size := by
    rw [List.length_take]
    omega
  have length := grows.valid.block_length
  have spliced := @overwrite_splice _ grown.block (cells.take size) _ _ inside (by omega)
  rw [taken, grows.take_block hv, List.take_of_length_le] at spliced
  · change none ∉ overwrite (overwrite grown.block _ _) offset (cells.take size)
    rw [spliced]
    have contents : none ∉ b.contents := fun missing => hi (List.mem_of_mem_take missing)
    intro missing
    rcases List.mem_append.mp missing with front | rest
    · rcases List.mem_append.mp front with before | inserted
      · exact contents (List.mem_of_mem_take before)
      · exact given (List.mem_of_mem_take inserted)
    · exact contents (List.mem_of_mem_drop rest)
  · rw [overwrite_length (by rw [overwrite_length (by omega)]; omega), overwrite_length (by omega)]
    omega

/-- Where plain growth moves the capacity, the size is moved to it, and the bytes between are those that
are inserted. -/
theorem insert_initialised {offset size : Nat} {cells : List Cell}
    (h : b.insert offset (some cells) size alloc = .ok (done, b')) (hf : b.Framed)
    (hi : b.Initialised) (given : none ∉ cells) (small : size < 2 ^ 64) : b'.Initialised := by
  obtain ⟨_, ho, h⟩ := bind_ok h
  obtain ⟨_, hs, h⟩ := bind_ok h
  have inside := require_ok ho
  have size_le := require_ok hs
  have capacity_le := hf.capacity_le
  have maximum_lt := hf.maximum_lt
  split at h
  next =>
    cases h
    exact hi
  next =>
    split at h
    next call =>
      cases h
      have failed := (reallocated hf (sizeT (b.size + size)) .grow alloc).failed
      rw [call] at failed
      have same := failed rfl
      dsimp only at same
      rw [same]
      exact hi
    next grown call =>
      obtain ⟨moved, hm, h⟩ := bind_ok h
      obtain ⟨filled, hc, h⟩ := bind_ok h
      cases h
      change filled.Initialised
      by_cases fits : sizeT (b.size + size) ≤ b.capacity
      · have same : grown = b := by
          unfold realloc at call
          rw [if_pos ⟨nofun, fits⟩] at call
          exact (congrArg Prod.snd call).symm
        rw [same] at hm
        exact memcpy_initialised hc (memmove_initialised hm hi) given
      · have sum : b.size + size < 2 ^ 64 := by
          by_contra wraps
          have wrapped := sizeT_wrap (Nat.le_of_not_lt wraps) (by omega)
          omega
        have exactSum := sizeT_of_lt sum
        rw [sizeT_of_lt (show offset + size < 2 ^ 64 by omega)] at hm
        have hv := hf.valid size_le
        rw [exactSum] at call fits
        rcases realloc_grow_cases hv (b.size + size) alloc with failed | ⟨_, done, grows, _⟩
        · cases failed.symm.trans call
        · cases done.symm.trans call
          exact grown_insert_initialised hv hi given inside grows (Nat.lt_of_not_le fits) hm hc

end Calls

section Runs

variable {ι : Type} [DecidableEq ι] {s t : Objects ι} {b b' : Buffer} {alloc done : Bool}

/-- Not a null pointer, and the bytes there have been stored to. -/
def Supplied (data : Pointer) : Prop := ∃ cells, data = some cells ∧ none ∉ cells

def Constructor.Zeroed : Constructor → Prop
  | .default => True
  | .maximum n _ => n = 0
  | .reservation n => n = 0
  | .data given _ => Supplied given

/-- The calls that do not ask for capacity, or for such that is set to zero. -/
def Call.Zeroed : Call → Prop
  | .reserve _ | .extend _ | .resize _ => False
  | .assign given _ | .append given _ | .insert _ given _ => Supplied given
  | _ => True

def Action.Zeroed : Action ι → Prop
  | .construct _ c => c.Zeroed
  | .call _ _ c => c.Zeroed
  | .transfer _ _ _ _ | .transferNew _ _ _ => False
  | _ => True

theorem empty_initialised : ({} : Buffer).Initialised := List.not_mem_nil

theorem reset_initialised (b : Buffer) : b.reset.Initialised := List.not_mem_nil

theorem constructWith_initialised {constructor : Constructor} (zeroed : constructor.Zeroed)
    (sized : constructor.Sized) (h : constructWith alloc constructor = .ok (done, b)) : b.Initialised := by
  cases constructor with
  | default =>
    cases h
    exact empty_initialised
  | maximum reservation maximum =>
    cases zeroed
    cases h
    exact List.not_mem_nil
  | reservation reservation =>
    cases zeroed
    cases h
    exact empty_initialised
  | data data size =>
    obtain ⟨cells, rfl, given⟩ := zeroed
    exact insert_initialised h valid_empty.framed empty_initialised given sized

theorem call_initialised {c : Call} (zeroed : c.Zeroed) (sized : c.Sized)
    (h : b.call alloc c = .ok (done, b')) (hf : b.Framed) (hi : b.Initialised) : b'.Initialised := by
  cases c with
  | reset =>
    cases h
    exact List.not_mem_nil
  | clear =>
    cases h
    exact hi
  | shrink =>
    obtain ⟨_, hs, h⟩ := bind_ok h
    cases h
    exact shrink_initialised hs hf hi
  | reserveZeroed capacity => exact reserveZeroed_initialised h hf hi
  | extendZeroed capacity => exact extendZeroed_initialised h hf hi
  | resizeZeroed size => exact resizeZeroed_initialised h hf hi
  | assign data size =>
    obtain ⟨cells, rfl, given⟩ := zeroed
    exact insert_initialised h (hf.withSize 0) hi given sized
  | append data size =>
    obtain ⟨cells, rfl, given⟩ := zeroed
    exact insert_initialised h hf hi given sized
  | insert offset data size =>
    obtain ⟨cells, rfl, given⟩ := zeroed
    exact insert_initialised h hf hi given sized.2
  | erase offset size =>
    obtain ⟨_, he, h⟩ := bind_ok h
    cases h
    exact erase_initialised he hi
  | reserve capacity => exact zeroed.elim
  | extend capacity => exact zeroed.elim
  | resize size => exact zeroed.elim

structure Stored (s : Objects ι) : Prop where
  framed : Everywhere Framed s
  initialised : Everywhere Initialised s

theorem performed_initialised {action : Action ι} (zeroed : action.Zeroed) (hs : Stored s)
    (h : Performed s action t) : Everywhere Initialised t := by
  obtain ⟨_, sized, alloc, garbage, h⟩ := h
  obtain ⟨hf, hi⟩ := hs
  cases action with
  | construct i constructor =>
    obtain ⟨_, _, h⟩ := bind_ok h
    obtain ⟨⟨done, b⟩, hc, h⟩ := bind_ok h
    cases h
    split
    · exact hi.put i (constructWith_initialised zeroed sized hc)
    · exact hi
  | destroy i =>
    obtain ⟨_, _, h⟩ := bind_ok h
    cases h
    exact hi.remove i
  | call i nothrow c =>
    obtain ⟨b, hb, h⟩ := bind_ok h
    obtain ⟨⟨done, b'⟩, hc, h⟩ := bind_ok h
    cases h
    have here := object_ok hb
    exact hi.put i (call_initialised zeroed sized hc (hf i b here) (hi i b here))
  | transfer i nothrow t j => exact zeroed.elim
  | transferNew i t j => exact zeroed.elim
  | moveConstruct i j =>
    obtain ⟨that, hj, h⟩ := bind_ok h
    obtain ⟨_, _, h⟩ := bind_ok h
    cases h
    have kept : that.Initialised := hi j that (object_ok hj)
    exact (hi.put j (reset_initialised that)).put i kept
  | moveAssign i j =>
    obtain ⟨b, hb, h⟩ := bind_ok h
    obtain ⟨that, hj, h⟩ := bind_ok h
    split at h
    next =>
      cases h
      exact hi.put i (reset_initialised b)
    next =>
      cases h
      have kept : that.Initialised := hi j that (object_ok hj)
      exact (hi.put j (reset_initialised that)).put i kept

/-- Where capacity is only asked for zeroed, every byte below the capacity is one that was stored. -/
theorem zeroed_initialises {labels : List (Action ι)}
    (run : Run (Restrict (fun _ action => action.Zeroed) Performed) Start labels s) {i : ι}
    (hb : s i = some b) : ∀ index < b.capacity, ∃ byte, b.block[index]? = some (some byte) := by
  have stored : Stored s := by
    refine run.invariant ⟨everywhere_start _, everywhere_start _⟩ ?_
    rintro s action t hs ⟨zeroed, h⟩
    exact ⟨performed_framed hs.framed h, performed_initialised zeroed hs h⟩
  intro index below
  rw [← (stored.framed i b hb).block_length] at below
  have here := List.getElem?_eq_getElem below
  cases hc : b.block[index] with
  | none =>
    have missing := List.getElem_mem below
    rw [hc] at missing
    exact absurd missing (stored.initialised i b hb)
  | some byte => exact ⟨byte, by rw [here, hc]⟩

def zeroed : Buffer := { data := some [some 0], capacity := 1, size := 1 }

def inserted : Buffer := { data := some [some 97, some 98, some 0], capacity := 3, size := 3 }

/-- `Buffer b; b.resizeZeroed(1); b.insert(0, "ab");` -/
theorem zeroed_initialises_insert :
    ∃ (labels : List (Action Unit)) (s : Objects Unit),
      Run (Restrict (fun _ action => action.Zeroed) Performed) Start labels s ∧ s () = some inserted ∧
        ∀ index < 3, ∃ byte, inserted.block[index]? = some (some byte) := by
  have built : Restrict (fun _ action => action.Zeroed) Performed Start
      (.construct () .default) (update Start () (some ({} : Buffer))) :=
    ⟨trivial, .returned true, trivial, true, fun _ => 0, rfl⟩
  have resizes : Restrict (fun _ action => action.Zeroed) Performed (update Start () (some ({} : Buffer)))
      (.call () true (.resizeZeroed 1)) (update (update Start () (some {})) () (some zeroed)) := by
    refine ⟨trivial, .returned true, ?_, true, fun _ => 0, rfl⟩
    change 1 < 2 ^ 64
    omega
  have inserts : Restrict (fun _ action => action.Zeroed) Performed
      (update (update Start () (some ({} : Buffer))) () (some zeroed))
      (.call () true (.insert 0 (some [some 97, some 98]) 2))
      (update (update (update Start () (some {})) () (some zeroed)) () (some inserted)) := by
    refine ⟨⟨_, rfl, by decide⟩, .returned true, ⟨Nat.two_pow_pos 64, ?_⟩, true, fun _ => 0, rfl⟩
    omega
  have run := ((Run.start.next built).next resizes).next inserts
  exact ⟨_, _, run, update_self () _ _, zeroed_initialises run (update_self () _ _)⟩

end Runs

end Buffer

end Hlib
