import Hlib.Base64
import Hlib.Base64Standard

namespace Hlib

open Base64Codec

theorem readByte_encodeTable {t : Byte} (ht : t.toNat < 64) :
    readByte encodeTable t.toNat = .ok (digit t) :=
  sextet_cases (P := fun t => readByte encodeTable t.toNat = .ok (digit t)) ht (by decide)

theorem encodeStart_stores {b : Buffer} (hv : b.Valid) (present : b.data ≠ none)
    {before rest : List Byte} {s0 s1 : Byte} {offset dst : Nat} {acc : List Byte}
    (hd : dst = offset + acc.length) (room : offset + acc.length + 2 ≤ b.capacity) :
    encodeStart (before ++ s0 :: s1 :: rest) before.length (b.written offset acc) dst =
      .ok (b.written offset (acc ++ [digit (first s0), digit (second s0 s1)]), dst + 2) := by
  have h0 : readByte (before ++ s0 :: s1 :: rest) before.length = .ok s0 :=
    readByte_append before _ 0
  have h1 : readByte (before ++ s0 :: s1 :: rest) (before.length + 1) = .ok s1 :=
    readByte_append before _ 1
  have t0 := readByte_encodeTable (first_lt s0)
  have t1 := readByte_encodeTable (second_lt s0 s1)
  simp only [first, second] at t0 t1
  simp only [encodeStart, h0, h1, t0, t1, ok_bind]
  rw [Buffer.store_next hv present hd (by simp; omega), ok_bind,
    Buffer.store_next hv present (by simp; omega) (by simp; omega), ok_bind]
  simp [first, second]

/-- The loop and the switch together store the encoding of what is left to read. -/
theorem encode_stores (rest : List Byte) {b : Buffer} (hv : b.Valid) (present : b.data ≠ none)
    (before : List Byte) (offset dst : Nat) (acc : List Byte) (hd : dst = offset + acc.length)
    (room : offset + acc.length + (encode rest).length ≤ b.capacity) :
    (do
      let (size, src, b, dst) ←
        encodeLoop (before ++ rest) rest.length before.length (b.written offset acc) dst
      encodeTail (before ++ rest) size src b dst) = .ok (b.written offset (acc ++ encode rest)) := by
  -- The induction follows the groups of three that the loop takes.
  induction rest using encode.induct generalizing before acc dst with
  | case1 s0 s1 s2 rest ih =>
    have h1 : readByte (before ++ s0 :: s1 :: s2 :: rest) (before.length + 1) = .ok s1 :=
      readByte_append before _ 1
    have h2 : readByte (before ++ s0 :: s1 :: s2 :: rest) (before.length + 2) = .ok s2 :=
      readByte_append before _ 2
    have t2 := readByte_encodeTable (third_lt s1 s2)
    have t3 := readByte_encodeTable (fourth_lt s2)
    simp only [third, fourth] at t2 t3
    simp only [encode, List.length_cons] at room
    have group := ih (before ++ [s0, s1, s2]) (dst + 4)
      (acc ++ [digit (first s0), digit (second s0 s1), digit (third s1 s2), digit (fourth s2)])
      (by simp; omega) (by simp; omega)
    simp only [List.length_cons, encodeLoop]
    rw [encodeStart_stores hv present hd (by omega), ok_bind]
    simp only [h1, h2, t2, t3, ok_bind]
    rw [Buffer.store_next hv present (by simp; omega) (by simp; omega), ok_bind,
      Buffer.store_next hv present (by simp; omega) (by simp; omega), ok_bind]
    simpa [encode, third, fourth] using group
  | case2 s0 s1 =>
    have h1 : readByte (before ++ [s0, s1]) (before.length + 1) = .ok s1 :=
      readByte_append before _ 1
    have t2 := readByte_encodeTable (third_lt s1 0)
    simp only [third] at t2
    simp only [encode, List.length_cons, List.length_nil] at room
    simp only [List.length_cons, List.length_nil, encodeLoop, ok_bind, encodeTail]
    rw [encodeStart_stores hv present hd (by omega), ok_bind]
    simp only [h1, ok_bind]
    rw [show (s1 &&& 0x0f#8) <<< 2 = third s1 0 by simp [third], readByte_encodeTable (third_lt s1 0),
      ok_bind, Buffer.store_next hv present (by simp; omega) (by simp; omega), ok_bind,
      Buffer.store_next hv present (by simp; omega) (by simp; omega)]
    simp [encode]
  | case3 s0 =>
    have h0 : readByte (before ++ [s0]) before.length = .ok s0 := readByte_append before _ 0
    have t0 := readByte_encodeTable (first_lt s0)
    simp only [first] at t0
    simp only [encode, List.length_cons, List.length_nil] at room
    simp only [List.length_cons, List.length_nil, encodeLoop, ok_bind, encodeTail, h0, t0]
    rw [Buffer.store_next hv present hd (by simp; omega), ok_bind,
      show (s0 &&& 0x03#8) <<< 4 = second s0 0 by simp [second],
      readByte_encodeTable (second_lt s0 0), ok_bind,
      Buffer.store_next hv present (by simp; omega) (by simp; omega), ok_bind,
      Buffer.store_next hv present (by simp; omega) (by simp; omega), ok_bind,
      Buffer.store_next hv present (by simp; omega) (by simp; omega)]
    simp [encode, first]
  | case4 => simp [encodeLoop, encodeTail, ok_bind, encode]

theorem base64EncodeGetLength_eq {x : List Byte} (hx : x.length < 2 ^ 63) :
    base64EncodeGetLength x.length = (encode x).length := by
  rw [base64EncodeGetLength, sizeT_of_lt (n := x.length + 2) (by omega), sizeT_of_lt (by omega),
    encode_length]
  omega

/-- Once the room is there, the encoding is stored and counted in. -/
theorem base64Encode_extended {b b' : Buffer} {p x : List Byte} {alloc : Nat → Bool} (h : b.Holds p)
    (hx : x.length < 2 ^ 63) (given : (encode x).length ≠ 0) (sum : b.size + (encode x).length < 2 ^ 64)
    (he : b.extend (encode x).length (alloc 0) = (some b.size, b'))
    (grown : b.Grown b' (b.size + (encode x).length)) :
    ∃ b'', base64Encode b x alloc = .ok (true, b'') ∧ b''.Holds (p ++ encode x) := by
  have capacity := grown.capacity h.valid
  have present : b'.data ≠ none := grown.valid.present (by omega)
  have stored := encode_stores x grown.valid present [] b.size b.size [] rfl (by simp; omega)
  simp only [List.nil_append, List.length_nil, Buffer.written_nil present] at stored
  obtain ⟨⟨size, src, loopBuffer, dst⟩, loop, tail⟩ := bind_ok stored
  have size_eq : (b'.written b.size (encode x)).size = b.size := grown.size
  have fits : b.size + (encode x).length ≤ b'.capacity := by omega
  refine ⟨_, ?_, h.append grown present fits⟩
  unfold base64Encode
  simp only [base64EncodeGetLength_eq hx, if_neg given, he, loop, ok_bind, tail, size_eq, sizeT_of_lt sum]
  rw [Buffer.resize_within (by show _ ≤ b'.capacity; omega)]
  simp [Buffer.orThrow, Buffer.address, Buffer.written, ok_bind]

theorem base64Encode_nothing (b : Buffer) {x : List Byte} (hx : x.length < 2 ^ 63)
    (empty : (encode x).length = 0) (alloc : Nat → Bool) : base64Encode b x alloc = .ok (true, b) := by
  unfold base64Encode
  rw [base64EncodeGetLength_eq hx, empty]
  rfl

theorem base64Encode_appends {b : Buffer} {p x : List Byte} (h : b.Holds p)
    (hx : x.length < 2 ^ 63) (room : b.size + (encode x).length ≤ b.maximum) :
    ∃ b', base64Encode b x (fun _ => true) = .ok (true, b') ∧ b'.Holds (p ++ encode x) := by
  by_cases empty : (encode x).length = 0
  · have nil : encode x = [] := List.length_eq_zero_iff.mp empty
    exact ⟨b, base64Encode_nothing b hx empty _, by simpa [nil] using h⟩
  · obtain ⟨b', he, grown⟩ := Buffer.extend_succeeds h.valid (Nat.pos_of_ne_zero empty) room
    exact base64Encode_extended h hx empty (Nat.lt_of_le_of_lt room h.valid.maximum_lt) he grown

/-- `base64_encode` appends the standard's encoding, or is refused the memory and changes nothing. No
object is larger than `PTRDIFF_MAX` bytes, so none holds a `p` of `2 ^ 63`. -/
theorem base64Encode_refines {b : Buffer} {p x : List Byte} (h : b.Holds p) (hp : p.length < 2 ^ 63)
    (hx : x.length < 2 ^ 62) (alloc : Nat → Bool) :
    (standard x).length = base64EncodeGetLength x.length ∧
      ((∃ b', base64Encode b x alloc = .ok (true, b') ∧ b'.Holds (p ++ standard x)) ∨
        ∃ b', base64Encode b x alloc = .ok (false, b') ∧ b'.size = b.size ∧ b'.contents = b.contents ∧
          (alloc 0 = false ∨ b.maximum < b.size + (standard x).length)) := by
  have length := encode_length x
  have size := h.size
  have sum : b.size + (encode x).length < 2 ^ 64 := by omega
  rw [← encode_standard, base64EncodeGetLength_eq (by omega)]
  refine ⟨rfl, ?_⟩
  by_cases empty : (encode x).length = 0
  · have nil : encode x = [] := List.length_eq_zero_iff.mp empty
    left
    exact ⟨b, base64Encode_nothing b (by omega) empty alloc, by simpa [nil] using h⟩
  · have positive := Nat.pos_of_ne_zero empty
    have extended : b.extended (encode x).length = b.size + (encode x).length := by
      rw [Buffer.extended, if_pos positive, sizeT_of_lt sum]
    rcases Buffer.extend_cases h.valid (encode x).length (alloc 0) with he | ⟨b', he, grown⟩
    · right
      refine ⟨b, ?_, rfl, rfl, ?_⟩
      · unfold base64Encode
        simp only [base64EncodeGetLength_eq (show x.length < 2 ^ 63 by omega), if_neg empty, he]
      · by_contra granted
        simp only [not_or, Bool.not_eq_false, Nat.not_lt] at granted
        obtain ⟨b', succeeded, _⟩ := Buffer.extend_succeeds h.valid positive granted.2
        rw [granted.1, succeeded] at he
        cases he
    · left
      rw [extended] at grown
      exact base64Encode_extended h (by omega) empty sum he grown

theorem base64Encode_refines_man :
    ∃ b', base64Encode {} [0x4d#8, 0x61#8] (fun _ => true) = .ok (true, b') ∧
      b'.Holds (standard [0x4d#8, 0x61#8]) := by
  rcases (base64Encode_refines Buffer.holds_empty (show 0 < 2 ^ 63 by omega)
    (show ([0x4d#8, 0x61#8] : List Byte).length < 2 ^ 62 by decide) (fun _ => true)).2 with
    done | ⟨_, failed, _⟩
  · exact done
  · obtain ⟨b', succeeded, _⟩ := base64Encode_appends Buffer.holds_empty
      (show ([0x4d#8, 0x61#8] : List Byte).length < 2 ^ 63 by decide) (by decide)
    rw [succeeded] at failed
    cases failed

theorem base64EncodeString_ok {x : List Byte} (hx : x.length < 2 ^ 63) :
    base64EncodeString x (fun _ => true) = .ok (encode x) := by
  have length := encode_length x
  obtain ⟨b, he, hb⟩ := base64Encode_appends Buffer.holds_empty hx (by show 0 + _ ≤ 2 ^ 64 - 1; omega)
  rw [base64EncodeString, he, ok_bind]
  exact Buffer.toString_of_contents (by simpa using hb.contents)

end Hlib
