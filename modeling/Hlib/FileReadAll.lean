import Hlib.FileReadAppend

namespace Hlib

open Overwrite

namespace File

/-- Between two reads of a whole file: a sound buffer without a maximum of its own. -/
structure Unbounded (b : Buffer) : Prop where
  valid : b.Valid
  maximum : b.maximum = 2 ^ 64 - 1

def Fresh (b : Buffer) : Prop :=
  ∀ i, b.size ≤ i → i < b.block.length → b.block[i]? = some none

/-- Some byte of the contents was never stored. -/
def Poisoned (b : Buffer) : Prop := ∃ k < b.size, b.block[k]? = some none

theorem readFile_eq_readFd (b : Buffer) (size : Nat) (bytes : List Byte) (alloc : Nat → Bool)
    (errno : Errno) : readFile b size bytes false alloc errno = readFd b size (.ok bytes) alloc errno := by
  unfold readFile readFd
  split <;> simp

theorem readFd_step {b : Buffer} (h : Unbounded b) {batch : Nat} (hb : 0 < batch)
    (hl : batch < 2 ^ 64) {d : List Byte} (hd : d.length ≤ batch) (errno : Errno) :
    ∃ b', b.Grown b' (b.extended batch) ∧ b'.data ≠ none ∧
      (d = [] ∧ readFd b batch (.ok d) (fun _ => true) errno =
          .ok (.ok 0, { b' with size := b.size }) ∨
        d ≠ [] ∧ b'.capacity < b.size + b.size + d.length ∧
          readFd b batch (.ok d) (fun _ => true) errno = .error .outOfBounds ∨
        d ≠ [] ∧ b.size + b.size + d.length ≤ b'.capacity ∧
          readFd b batch (.ok d) (fun _ => true) errno =
            .ok (.ok d.length, { b'.written (b.size + b.size) d with size := b.size + d.length })) := by
  obtain ⟨b', he, grown, present⟩ := Buffer.extend_unbounded h.valid h.maximum hb hl
  have whole : d.take batch = d := List.take_of_length_le hd
  refine ⟨b', grown, present, ?_⟩
  simp only [readFd, he, whole]
  rcases storeBatch_cases true h.valid grown with
    ⟨nil, hc⟩ | ⟨nil, room, hc⟩ | ⟨nil, room, hc⟩ <;> rw [hc]
  · exact Or.inl ⟨nil, by simp [ok_bind, Buffer.address, present, nil]⟩
  · exact Or.inr (Or.inl ⟨nil, room, rfl⟩)
  · exact Or.inr (Or.inr ⟨nil, room, rfl⟩)

theorem unbounded_stored {b b' : Buffer} {d : List Byte} {capacity : Nat} (h : Unbounded b)
    (grown : b.Grown b' capacity) (present : b'.data ≠ none)
    (room : b.size + b.size + d.length ≤ b'.capacity) :
    Unbounded { b'.written (b.size + b.size) d with size := b.size + d.length } := by
  have hv := Buffer.written_valid grown.valid present room
  exact ⟨⟨hv.null, hv.block_length, by show b.size + _ ≤ b'.capacity; omega, hv.capacity_le,
    hv.maximum_lt⟩, grown.maximum.trans h.maximum⟩

theorem poisoned_contents {b : Buffer} (h : Poisoned b) (bytes : List Byte) :
    b.contents ≠ bytes.map some := by
  obtain ⟨k, hk, he⟩ := h
  intro same
  have entry := congrArg (fun cells => cells[k]?) same
  simp only [Buffer.contents, List.getElem?_take_of_lt hk, he, List.getElem?_map] at entry
  cases hb : bytes[k]? <;> simp [hb] at entry

theorem poisoned_grown {b b' : Buffer} {capacity : Nat} (h : Poisoned b)
    (grown : b.Grown b' capacity) : Poisoned { b' with size := b.size } := by
  obtain ⟨k, hk, he⟩ := h
  refine ⟨k, hk, ?_⟩
  change b'.block[k]? = some none
  rw [grown.block, List.getElem?_append_left (List.getElem?_eq_some_iff.mp he).1, he]

theorem poisoned_stored {b b' : Buffer} {d : List Byte} {capacity : Nat} (h : Poisoned b)
    (grown : b.Grown b' capacity) (room : b.size + b.size + d.length ≤ b'.capacity) :
    Poisoned { b'.written (b.size + b.size) d with size := b.size + d.length } := by
  obtain ⟨k, hk, he⟩ := poisoned_grown h grown
  have fits : b.size + b.size + (d.map some).length ≤ b'.block.length := by
    rw [grown.valid.block_length, List.length_map]
    exact room
  change k < b.size at hk
  refine ⟨k, by show k < b.size + d.length; omega, ?_⟩
  change (overwrite b'.block (b.size + b.size) (d.map some))[k]? = some none
  rw [overwrite_before fits (by omega)]
  exact he

/-- The second batch leaves the place behind the first one as it was. -/
theorem second_batch_poisons {b b' : Buffer} {d : List Byte} {capacity : Nat} (fresh : Fresh b)
    (grown : b.Grown b' capacity) (used : 0 < b.size) (nil : d ≠ [])
    (room : b.size + b.size + d.length ≤ b'.capacity) :
    Poisoned { b'.written (b.size + b.size) d with size := b.size + d.length } := by
  have positive := List.length_pos_iff.mpr nil
  have blockLength := grown.valid.block_length
  have fits : b.size + b.size + (d.map some).length ≤ b'.block.length := by
    rw [blockLength, List.length_map]
    exact room
  refine ⟨b.size, by show b.size < b.size + d.length; omega, ?_⟩
  change (overwrite b'.block (b.size + b.size) (d.map some))[b.size]? = some none
  have inside : b.size < b'.block.length := by omega
  rw [overwrite_before fits (by omega)]
  rw [grown.block] at inside ⊢
  by_cases old : b.size < b.block.length
  · rw [List.getElem?_append_left old]
    exact fresh _ (Nat.le_refl _) old
  · rw [List.length_append, List.length_replicate] at inside
    rw [List.getElem?_append_right (by omega), List.getElem?_replicate, if_pos (by omega)]

theorem first_batch {b' : Buffer} {d : List Byte} {capacity : Nat}
    (grown : Buffer.Grown {} b' capacity) (present : b'.data ≠ none)
    (room : d.length ≤ b'.capacity) :
    Unbounded { b'.written 0 d with size := d.length } ∧
      Fresh { b'.written 0 d with size := d.length } ∧
      ({ b'.written 0 d with size := d.length } : Buffer).Holds d := by
  have fits : ({} : Buffer).size + d.length ≤ b'.capacity := by
    show 0 + _ ≤ _
    omega
  have holds := Buffer.holds_empty.append grown present fits
  simp only [List.nil_append, Nat.zero_add] at holds
  refine ⟨⟨holds.valid, grown.maximum⟩, ?_, holds⟩
  intro i low high
  change d.length ≤ i at low
  have fits : 0 + (d.map some).length ≤ b'.block.length := by
    rw [grown.valid.block_length, List.length_map, Nat.zero_add]
    exact room
  change (overwrite b'.block 0 (d.map some))[i]? = some none
  change i < (overwrite b'.block 0 (d.map some)).length at high
  rw [overwrite_length fits] at high
  have split : i = 0 + (d.map some).length + (i - d.length) := by rw [List.length_map]; omega
  have all : b'.block[i]? = some none := by
    rw [grown.block] at high ⊢
    simp only [Buffer.block, Option.getD_none, List.nil_append, List.length_replicate] at high ⊢
    rw [List.getElem?_replicate, if_pos high]
  rw [split, ← List.getElem?_drop, overwrite_drop fits, List.getElem?_drop, ← split]
  exact all

/-- A whole-file read reports success and gives back `content`. -/
def ReturnsContent (content : List Byte) (call : Checked (Result Buffer)) : Prop :=
  ∃ b, call = .ok (.ok b) ∧ b.contents = content.map some

section Loops

variable {content : List Byte} {chunk : Nat → Nat} {early : Nat → Bool} {batch : Nat} {errno : Errno}

theorem readFdLoop_poisoned (hb : 0 < batch) (hl : batch < 2 ^ 64) (call : Nat) (rest : List Byte)
    {b : Buffer} (h : Unbounded b) (poisoned : Poisoned b) :
    ¬ReturnsContent content (readFdLoop chunk batch (fun _ _ => true) errno call rest b) := by
  induction hn : rest.length using Nat.strongRecOn generalizing call rest b with
  | ind n ih =>
    have hd := deliver_length_le chunk batch call rest
    obtain ⟨b', grown, present, outcome⟩ := readFd_step h hb hl hd errno
    rw [readFdLoop]
    rintro ⟨final, returned, contents⟩
    rcases outcome with ⟨nil, hc⟩ | ⟨nil, room, hc⟩ | ⟨nil, room, hc⟩
    · split at returned <;> rename_i he <;> cases he.symm.trans hc
      rw [dif_neg (Nat.lt_irrefl 0)] at returned
      cases returned
      exact poisoned_contents (poisoned_grown poisoned grown) _ contents
    · split at returned <;> rename_i he <;> cases he.symm.trans hc
      cases returned
    · split at returned <;> rename_i he <;> cases he.symm.trans hc
      have positive := List.length_pos_iff.mpr nil
      have whole := congrArg List.length (deliver_append chunk batch call rest)
      rw [List.length_append] at whole
      rw [dif_pos positive] at returned
      exact ih _ (by omega) _ _ (unbounded_stored h grown present room)
        (poisoned_stored poisoned grown room) rfl ⟨final, returned, contents⟩

theorem readFileLoop_poisoned (hb : 0 < batch) (hl : batch < 2 ^ 64) (call : Nat)
    (rest : List Byte) {b : Buffer} (h : Unbounded b) (poisoned : Poisoned b) :
    ¬ReturnsContent content
      (readFileLoop chunk early batch (fun _ _ => true) errno call rest b) := by
  induction hn : rest.length using Nat.strongRecOn generalizing call rest b with
  | ind n ih =>
    have hd := deliver_length_le chunk batch call rest
    obtain ⟨b', grown, present, outcome⟩ := readFd_step h hb hl hd errno
    rw [readFileLoop, readFile_eq_readFd]
    rintro ⟨final, returned, contents⟩
    rcases outcome with ⟨nil, hc⟩ | ⟨nil, room, hc⟩ | ⟨nil, room, hc⟩ <;> simp only [hc] at returned
    · rw [dif_neg (by simp [eofAfter, nil])] at returned
      cases returned
      exact poisoned_contents (poisoned_grown poisoned grown) _ contents
    · cases returned
    · have positive := List.length_pos_iff.mpr nil
      have whole := congrArg List.length (deliver_append chunk batch call rest)
      rw [List.length_append] at whole
      split at returned
      next more =>
        exact ih _ (by omega) _ _ (unbounded_stored h grown present room)
          (poisoned_stored poisoned grown room) rfl ⟨final, returned, contents⟩
      next =>
        cases returned
        exact poisoned_contents (poisoned_stored poisoned grown room) _ contents

theorem readFdLoop_end (hb : 0 < batch) (hl : batch < 2 ^ 64) (call : Nat) {b : Buffer}
    (h : Unbounded b) (holds : b.Holds content) :
    ReturnsContent content (readFdLoop chunk batch (fun _ _ => true) errno call [] b) := by
  have nothing : deliver chunk batch call [] = [] := (deliver_nil_iff hb).mpr rfl
  obtain ⟨b', grown, present, outcome⟩ := readFd_step h hb hl (d := []) (Nat.zero_le _) errno
  obtain ⟨_, hc⟩ | ⟨nil, _⟩ | ⟨nil, _⟩ := outcome
  · refine ⟨{ b' with size := b.size }, ?_, (grown.take_block h.valid).trans holds.contents⟩
    rw [readFdLoop]
    split <;> rename_i he <;> rw [nothing] at he <;> cases he.symm.trans hc
    rw [dif_neg (Nat.lt_irrefl 0)]
  · exact absurd rfl nil
  · exact absurd rfl nil

theorem readFileLoop_end (hb : 0 < batch) (hl : batch < 2 ^ 64) (call : Nat) {b : Buffer}
    (h : Unbounded b) (holds : b.Holds content) :
    ReturnsContent content
      (readFileLoop chunk early batch (fun _ _ => true) errno call [] b) := by
  have nothing : deliver chunk batch call [] = [] := (deliver_nil_iff hb).mpr rfl
  obtain ⟨b', grown, present, outcome⟩ := readFd_step h hb hl (d := []) (Nat.zero_le _) errno
  obtain ⟨_, hc⟩ | ⟨nil, _⟩ | ⟨nil, _⟩ := outcome
  · refine ⟨{ b' with size := b.size }, ?_, (grown.take_block h.valid).trans holds.contents⟩
    rw [readFileLoop, readFile_eq_readFd]
    simp only [nothing, hc]
    rw [dif_neg (by simp [eofAfter])]
  · exact absurd rfl nil
  · exact absurd rfl nil

theorem unbounded_empty : Unbounded {} := ⟨Buffer.valid_empty, rfl⟩

theorem first_read (hb : 0 < batch) (hl : batch < 2 ^ 64) {d : List Byte} (nil : d ≠ [])
    (hd : d.length ≤ batch) (errno : Errno) :
    ∃ b, readFd {} batch (.ok d) (fun _ => true) errno = .ok (.ok d.length, b) ∧
      Unbounded b ∧ Fresh b ∧ b.Holds d := by
  obtain ⟨b', grown, present, outcome⟩ := readFd_step unbounded_empty hb hl hd errno
  have capacity := grown.capacity Buffer.valid_empty
  have asked : Buffer.extended {} batch = batch := by
    rw [Buffer.extended, if_pos hb]
    exact (congrArg sizeT (Nat.zero_add _)).trans (sizeT_of_lt hl)
  have room : d.length ≤ b'.capacity := by omega
  obtain ⟨empty, _⟩ | ⟨_, short, _⟩ | ⟨_, _, hc⟩ := outcome
  · exact absurd empty nil
  · change b'.capacity < 0 + 0 + d.length at short
    omega
  · obtain ⟨unbounded, fresh, holds⟩ := first_batch grown present room
    refine ⟨_, hc, ?_⟩
    change Unbounded { b'.written 0 d with size := 0 + d.length } ∧
      Fresh { b'.written 0 d with size := 0 + d.length } ∧
      ({ b'.written 0 d with size := 0 + d.length } : Buffer).Holds d
    rw [Nat.zero_add]
    exact ⟨unbounded, fresh, holds⟩

theorem second_read {b : Buffer} (h : Unbounded b) (fresh : Fresh b) (used : 0 < b.size)
    (hb : 0 < batch) (hl : batch < 2 ^ 64) {d : List Byte} (nil : d ≠ []) (hd : d.length ≤ batch)
    (errno : Errno) :
    readFd b batch (.ok d) (fun _ => true) errno = .error .outOfBounds ∨
      ∃ b', readFd b batch (.ok d) (fun _ => true) errno = .ok (.ok d.length, b') ∧
        Unbounded b' ∧ Poisoned b' := by
  obtain ⟨b', grown, present, outcome⟩ := readFd_step h hb hl hd errno
  obtain ⟨empty, _⟩ | ⟨_, _, hc⟩ | ⟨_, room, hc⟩ := outcome
  · exact absurd empty nil
  · exact Or.inl hc
  · exact Or.inr ⟨_, hc, unbounded_stored h grown present room,
      second_batch_poisons fresh grown used nil room⟩

theorem deliver_rest_nil_iff (chunk : Nat → Nat) (batch call : Nat) (rest : List Byte) :
    rest.drop (deliver chunk batch call rest).length = [] ↔ deliver chunk batch call rest = rest := by
  have whole := deliver_append chunk batch call rest
  constructor
  · intro none
    rwa [none, List.append_nil] at whole
  · intro all
    rw [all, List.drop_length]

/-- After a first read that left something, the second one faults or poisons the buffer. -/
theorem second_delivery (chunk : Nat → Nat) {b : Buffer} (h : Unbounded b) (fresh : Fresh b) (used : 0 < b.size)
    (hb : 0 < batch) (hl : batch < 2 ^ 64) {rest : List Byte} (left : rest ≠ []) (errno : Errno) :
    deliver chunk batch (0 + 1) rest ≠ [] ∧
      (readFd b batch (.ok (deliver chunk batch (0 + 1) rest)) (fun _ => true) errno = .error .outOfBounds ∨
        ∃ b', readFd b batch (.ok (deliver chunk batch (0 + 1) rest)) (fun _ => true) errno =
            .ok (.ok (deliver chunk batch (0 + 1) rest).length, b') ∧
          Unbounded b' ∧ Poisoned b') := by
  have later : deliver chunk batch (0 + 1) rest ≠ [] := mt (deliver_nil_iff hb).mp left
  have short := deliver_length_le chunk batch (0 + 1) rest
  exact ⟨later, second_read h fresh used hb hl later short errno⟩

/-- The descriptor's content is given back exactly where one read delivers all of it. -/
theorem readFdAll_returns_iff (hb : 0 < batch) (hl : batch < 2 ^ 64) :
    ReturnsContent content (readFdAll content chunk batch (fun _ _ => true) errno) ↔
      deliver chunk batch 0 content = content := by
  rw [readFdAll, require_of hb, ok_bind, if_neg (by omega), Nat.add_zero]
  by_cases nil : content = []
  · subst content
    exact iff_of_true (readFdLoop_end hb hl 0 unbounded_empty Buffer.holds_empty)
      ((deliver_nil_iff hb).mpr rfl)
  · have some : deliver chunk batch 0 content ≠ [] := mt (deliver_nil_iff hb).mp nil
    have hd := deliver_length_le chunk batch 0 content
    obtain ⟨b, hc, unbounded, fresh, holds⟩ := first_read hb hl some hd errno
    have used : 0 < b.size := holds.size ▸ List.length_pos_iff.mpr some
    rw [readFdLoop]
    split <;> rename_i he <;> cases he.symm.trans hc
    rw [dif_pos (List.length_pos_iff.mpr some)]
    by_cases all : deliver chunk batch 0 content = content
    · rw [(deliver_rest_nil_iff chunk batch 0 content).mpr all]
      rw [all] at holds
      exact iff_of_true (readFdLoop_end hb hl _ unbounded holds) all
    · refine iff_of_false ?_ all
      have left := mt (deliver_rest_nil_iff chunk batch 0 content).mp all
      rw [readFdLoop]
      rintro ⟨final, returned, contents⟩
      obtain ⟨later, hc | ⟨b', hc, unbounded, poisoned⟩⟩ :=
        second_delivery chunk unbounded fresh used hb hl left errno
      · split at returned <;> rename_i he <;> cases he.symm.trans hc
        cases returned
      · split at returned <;> rename_i he <;> cases he.symm.trans hc
        rw [dif_pos (List.length_pos_iff.mpr later)] at returned
        exact readFdLoop_poisoned hb hl _ _ unbounded poisoned ⟨final, returned, contents⟩

theorem readFileAll_returns_iff (hb : 0 < batch) (hl : batch < 2 ^ 64) :
    ReturnsContent content (readFileAll content chunk early batch (fun _ _ => true) errno) ↔
      deliver chunk batch 0 content = content := by
  rw [readFileAll, require_of hb, ok_bind, if_neg (by omega), Nat.add_zero]
  by_cases nil : content = []
  · subst content
    exact iff_of_true (readFileLoop_end hb hl 0 unbounded_empty Buffer.holds_empty)
      ((deliver_nil_iff hb).mpr rfl)
  · have some : deliver chunk batch 0 content ≠ [] := mt (deliver_nil_iff hb).mp nil
    have hd := deliver_length_le chunk batch 0 content
    obtain ⟨b, hc, unbounded, fresh, holds⟩ := first_read hb hl some hd errno
    have used : 0 < b.size := holds.size ▸ List.length_pos_iff.mpr some
    rw [readFileLoop, readFile_eq_readFd]
    simp only [hc]
    by_cases all : deliver chunk batch 0 content = content
    · refine iff_of_true ?_ all
      rw [(deliver_rest_nil_iff chunk batch 0 content).mpr all]
      rw [all] at holds
      split
      next => exact readFileLoop_end hb hl _ unbounded holds
      next => exact ⟨b, rfl, holds.contents⟩
    · refine iff_of_false ?_ all
      have left := mt (deliver_rest_nil_iff chunk batch 0 content).mp all
      rw [dif_pos (by simp [eofAfter, some, left]), readFileLoop, readFile_eq_readFd]
      rintro ⟨final, returned, contents⟩
      obtain ⟨later, hc | ⟨b', hc, unbounded, poisoned⟩⟩ :=
        second_delivery chunk unbounded fresh used hb hl left errno
      · simp only [hc] at returned
        cases returned
      · simp only [hc] at returned
        split at returned
        next => exact readFileLoop_poisoned hb hl _ _ unbounded poisoned ⟨final, returned, contents⟩
        next =>
          cases returned
          exact poisoned_contents poisoned _ contents

end Loops

/-- Where reading into a buffer appends, and where reading a whole file gives its content. -/
theorem read_appends_iff {b : Buffer} {p : List Byte} (h : b.Holds p) {size batch : Nat}
    (hs : size < 2 ^ 64) (hb : 0 < batch) (hl : batch < 2 ^ 64) (bytes content : List Byte)
    (ferror : Bool) (alloc : Nat → Bool) (chunk : Nat → Nat) (early : Nat → Bool) (errno : Errno) :
    (Appends p (bytes.take size) (readFd b size (.ok bytes) alloc errno) ↔
        Harmless b p (bytes.take size) size (alloc 0) false) ∧
      (Appends p (bytes.take size) (readFile b size bytes ferror alloc errno) ↔
        Harmless b p (bytes.take size) size (alloc 0) ferror) ∧
      (ReturnsContent content (readFdAll content chunk batch (fun _ _ => true) errno) ↔
        deliver chunk batch 0 content = content) ∧
      (ReturnsContent content (readFileAll content chunk early batch (fun _ _ => true) errno) ↔
        deliver chunk batch 0 content = content) :=
  ⟨readFd_appends_iff h hs bytes alloc errno, readFile_appends_iff h hs bytes ferror alloc errno,
    readFdAll_returns_iff hb hl, readFileAll_returns_iff hb hl⟩

/-- One byte, and behind it in the block the byte that is to be read. -/
def spare : Buffer where
  data := some [some 0x61#8, some 0x63#8, none, none]
  capacity := 4
  size := 1

theorem spare_holds : spare.Holds [0x61#8] := by
  refine ⟨⟨?_, rfl, by decide, ?_, ?_⟩, rfl⟩
  · simp [spare]
  · show 4 ≤ 2 ^ 64 - 1
    omega
  · show 2 ^ 64 - 1 < 2 ^ 64
    omega

theorem read_appends_iff_spare :
    Appends [0x61#8] [0x63#8] (readFd spare 1 (.ok [0x63#8]) (fun _ => true) 12) ∧
      ReturnsContent [1#8, 2#8, 3#8] (readFdAll [1#8, 2#8, 3#8] (fun _ => 3) 4 (fun _ _ => true) 12) := by
  have echoed : Echoed spare [0x63#8] := by
    intro i inside
    obtain rfl : i = 0 := Nat.lt_one_iff.mp inside
    rfl
  have room : RoomTwice spare 1 [0x63#8] := le_max_of_le_left (show 1 + 1 + 1 ≤ 4 by decide)
  obtain ⟨appends, _, whole, _⟩ := read_appends_iff spare_holds (show 1 < 2 ^ 64 by decide) (show 0 < 4 by decide)
    (by decide) [0x63#8] [1#8, 2#8, 3#8] false (fun _ => true) (fun _ => 3) (fun _ => false) 12
  exact ⟨appends.mpr (Or.inr (Or.inr (Or.inr ⟨room, Or.inr echoed⟩))), whole.mpr rfl⟩

/-- The claimed behaviour of one read into a buffer that holds `p`, and of reading a whole file. -/
def ReadingAppends : Prop :=
  (∀ (b : Buffer) (p bytes : List Byte) (size : Nat), b.Holds p → size < 2 ^ 64 →
    Appends p (bytes.take size) (readFd b size (.ok bytes) (fun _ => true) 12) ∧
    Appends p (bytes.take size) (readFile b size bytes false (fun _ => true) 12)) ∧
  ∀ (content : List Byte) (chunk : Nat → Nat) (early : Nat → Bool) (batch : Nat), 0 < batch →
    batch < 2 ^ 64 →
    ReturnsContent content (readFdAll content chunk batch (fun _ _ => true) 12) ∧
    ReturnsContent content (readFileAll content chunk early batch (fun _ _ => true) 12)

theorem readFdAll_three_by_two : ¬ReadingAppends := by
  rintro ⟨_, whole⟩
  have wrong := (whole [1#8, 2#8, 3#8] (fun _ => 2) (fun _ => false) 2 (by decide) (by decide)).1
  rw [readFdAll_returns_iff (by decide) (by decide)] at wrong
  exact absurd wrong (by decide)

end File

end Hlib
