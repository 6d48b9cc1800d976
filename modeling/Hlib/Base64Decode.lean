import Hlib.Base64

namespace Hlib

open Base64Codec

/-- What `base64_decode` stores for a text, `none` where it leaves through `default`. -/
def decodedBytes : List Byte → Option (List Byte)
  | s0 :: s1 :: s2 :: s3 :: s4 :: rest =>
    (decodedBytes (s4 :: rest)).map fun bytes =>
      joinFirst (decodeChar s0) (decodeChar s1) :: joinSecond (decodeChar s1) (decodeChar s2) ::
        joinThird (decodeChar s2) (decodeChar s3) :: bytes
  | [s0, s1, s2, s3] =>
    if s3 ≠ pad then
      some [joinFirst (decodeChar s0) (decodeChar s1), joinSecond (decodeChar s1) (decodeChar s2),
        joinThird (decodeChar s2) (decodeChar s3)]
    else if s2 ≠ pad then
      some [joinFirst (decodeChar s0) (decodeChar s1), joinSecond (decodeChar s1) (decodeChar s2)]
    else some [joinFirst (decodeChar s0) (decodeChar s1)]
  | [s0, s1, s2] =>
    some [joinFirst (decodeChar s0) (decodeChar s1), joinSecond (decodeChar s1) (decodeChar s2)]
  | [_, _] => some []
  | _ => none

theorem decodeChar_digit {t : Byte} (ht : t.toNat < 64) : decodeChar (digit t) = t :=
  sextet_cases (P := fun t => decodeChar (digit t) = t) ht (by decide)

section Cursor

variable {b : Buffer} {before rest : List Byte} {s0 s1 s2 s3 : Byte} {offset dst : Nat}
  {acc : List Byte}

theorem decode2_stores (hv : b.Valid) (present : b.data ≠ none) (hd : dst = offset + acc.length)
    (room : offset + acc.length + 1 ≤ b.capacity) :
    decode2 (before ++ s0 :: s1 :: rest) before.length (b.written offset acc) dst =
      .ok (b.written offset (acc ++ [joinFirst (decodeChar s0) (decodeChar s1)]), dst + 1) := by
  have h0 : readByte (before ++ s0 :: s1 :: rest) before.length = .ok s0 :=
    readByte_append before _ 0
  have h1 : readByte (before ++ s0 :: s1 :: rest) (before.length + 1) = .ok s1 :=
    readByte_append before _ 1
  simp only [decode2, h0, h1, ok_bind]
  rw [Buffer.store_next hv present hd (by simpa using room), ok_bind]
  rfl

theorem decode3_stores (hv : b.Valid) (present : b.data ≠ none) (hd : dst = offset + acc.length)
    (room : offset + acc.length + 2 ≤ b.capacity) :
    decode3 (before ++ s0 :: s1 :: s2 :: rest) before.length (b.written offset acc) dst =
      .ok (b.written offset (acc ++ [joinFirst (decodeChar s0) (decodeChar s1),
        joinSecond (decodeChar s1) (decodeChar s2)]), dst + 2) := by
  have h1 : readByte (before ++ s0 :: s1 :: s2 :: rest) (before.length + 1) = .ok s1 :=
    readByte_append before _ 1
  have h2 : readByte (before ++ s0 :: s1 :: s2 :: rest) (before.length + 2) = .ok s2 :=
    readByte_append before _ 2
  rw [decode3, decode2_stores hv present hd (by omega), ok_bind]
  simp only [h1, h2, ok_bind]
  rw [Buffer.store_next hv present (by simp; omega) (by simp; omega), ok_bind]
  simp [joinSecond]

theorem decode4_stores (hv : b.Valid) (present : b.data ≠ none) (hd : dst = offset + acc.length)
    (room : offset + acc.length + 3 ≤ b.capacity) :
    decode4 (before ++ s0 :: s1 :: s2 :: s3 :: rest) before.length (b.written offset acc) dst =
      .ok (b.written offset (acc ++ [joinFirst (decodeChar s0) (decodeChar s1),
        joinSecond (decodeChar s1) (decodeChar s2), joinThird (decodeChar s2) (decodeChar s3)]),
        dst + 3) := by
  have h2 : readByte (before ++ s0 :: s1 :: s2 :: s3 :: rest) (before.length + 2) = .ok s2 :=
    readByte_append before _ 2
  have h3 : readByte (before ++ s0 :: s1 :: s2 :: s3 :: rest) (before.length + 3) = .ok s3 :=
    readByte_append before _ 3
  rw [decode4, decode3_stores hv present hd (by omega), ok_bind]
  simp only [h2, h3, ok_bind]
  rw [Buffer.store_next hv present (by simp; omega) (by simp; omega), ok_bind]
  simp [joinThird]

end Cursor

theorem decodedBytes_length {text bytes : List Byte} (h : decodedBytes text = some bytes) :
    bytes.length ≤ 3 * (text.length / 4) + 2 := by
  induction text using decodedBytes.induct generalizing bytes with
  | case1 s0 s1 s2 s3 s4 rest ih =>
    obtain ⟨tail, ht, rfl⟩ := Option.map_eq_some_iff.mp h
    have := ih ht
    simp only [List.length_cons] at this ⊢
    omega
  | case2 s0 s1 s2 s3 whole =>
    simp only [decodedBytes, if_pos whole, Option.some.injEq] at h
    simp [← h]
  | case3 s0 s1 s2 s3 padded one =>
    simp only [decodedBytes, if_neg padded, if_pos one, Option.some.injEq] at h
    simp [← h]
  | case4 s0 s1 s2 s3 padded two =>
    simp only [decodedBytes, if_neg padded, if_neg two, Option.some.injEq] at h
    simp [← h]
  | case5 => cases Option.some.inj h; simp
  | case6 => cases Option.some.inj h; simp
  | case7 text => simp_all [decodedBytes]

/-- The loop and the switch together store what the rest of the text stands for. -/
theorem decode_stores (asserts : Bool) (rest : List Byte) {b : Buffer} (hv : b.Valid)
    (present : b.data ≠ none) (before : List Byte) (offset dst : Nat) {bytes : List Byte}
    (acc : List Byte) (hd : dst = offset + acc.length) (h : decodedBytes rest = some bytes)
    (room : offset + acc.length + bytes.length ≤ b.capacity) :
    (do
      let (length, src, b, dst) ←
        decodeLoop (before ++ rest) rest.length before.length (b.written offset acc) dst
      decodeTail asserts (before ++ rest) length src b dst) =
        .ok (true, b.written offset (acc ++ bytes)) := by
  -- The induction follows the groups of four that the loop takes.
  induction rest using decodedBytes.induct generalizing before acc dst bytes with
  | case1 s0 s1 s2 s3 s4 rest ih =>
    obtain ⟨tail, ht, rfl⟩ := Option.map_eq_some_iff.mp h
    simp only [List.length_cons] at room
    have group := ih (before ++ [s0, s1, s2, s3]) (dst + 3)
      (acc ++ [joinFirst (decodeChar s0) (decodeChar s1), joinSecond (decodeChar s1) (decodeChar s2),
        joinThird (decodeChar s2) (decodeChar s3)]) (by simp; omega) ht (by simp; omega)
    simp only [List.length_cons, decodeLoop]
    rw [decode4_stores hv present hd (by omega), ok_bind]
    simpa using group
  | case2 s0 s1 s2 s3 whole =>
    have h3 : readByte (before ++ [s0, s1, s2, s3]) (before.length + 3) = .ok s3 :=
      readByte_append before _ 3
    simp only [decodedBytes, if_pos whole, Option.some.injEq] at h
    subst bytes
    simp only [List.length_cons, List.length_nil, decodeLoop, ok_bind, decodeTail, h3, if_pos whole]
    rw [decode4_stores hv present hd (by simpa using room), ok_bind]
  | case3 s0 s1 s2 s3 padded one =>
    have h2 : readByte (before ++ [s0, s1, s2, s3]) (before.length + 2) = .ok s2 :=
      readByte_append before _ 2
    have h3 : readByte (before ++ [s0, s1, s2, s3]) (before.length + 3) = .ok s3 :=
      readByte_append before _ 3
    simp only [decodedBytes, if_neg padded, if_pos one, Option.some.injEq] at h
    subst bytes
    simp only [List.length_cons, List.length_nil, decodeLoop, ok_bind, decodeTail, h3, if_neg padded,
      h2, if_pos one]
    rw [decode3_stores hv present hd (by simpa using room), ok_bind]
  | case4 s0 s1 s2 s3 padded two =>
    have h2 : readByte (before ++ [s0, s1, s2, s3]) (before.length + 2) = .ok s2 :=
      readByte_append before _ 2
    have h3 : readByte (before ++ [s0, s1, s2, s3]) (before.length + 3) = .ok s3 :=
      readByte_append before _ 3
    simp only [decodedBytes, if_neg padded, if_neg two, Option.some.injEq] at h
    subst bytes
    simp only [List.length_cons, List.length_nil, decodeLoop, ok_bind, decodeTail, h3, if_neg padded,
      h2, if_neg two]
    rw [decode2_stores hv present hd (by simpa using room), ok_bind]
  | case5 s0 s1 s2 =>
    cases Option.some.inj h
    simp only [List.length_cons, List.length_nil, decodeLoop, ok_bind, decodeTail]
    rw [decode3_stores hv present hd (by simpa using room), ok_bind]
  | case6 => cases Option.some.inj h; simp [decodeLoop, decodeTail, ok_bind]
  | case7 text => simp_all [decodedBytes]

/-- The text the encoder writes is read back byte for byte, unless it is empty. -/
theorem decodedBytes_encode {x : List Byte} (h : x ≠ []) : decodedBytes (encode x) = some x := by
  induction x using encode.induct with
  | case1 a b c rest ih =>
    have restored : joinFirst (decodeChar (digit (first a))) (decodeChar (digit (second a b))) = a ∧
        joinSecond (decodeChar (digit (second a b))) (decodeChar (digit (third b c))) = b ∧
        joinThird (decodeChar (digit (third b c))) (decodeChar (digit (fourth c))) = c := by
      simp only [decodeChar_digit, first_lt, second_lt, third_lt, fourth_lt]
      exact ⟨joinFirst_sextets a b, joinSecond_sextets a b c, joinThird_sextets b c⟩
    cases rest with
    | nil =>
      simp only [encode, decodedBytes, ne_eq, digit_ne_pad (fourth_lt c), not_false_eq_true, if_true,
        restored]
    | cons d rest =>
      obtain ⟨e, tail, he⟩ := List.exists_cons_of_ne_nil (encode_ne_nil (List.cons_ne_nil d rest))
      have hr := ih (by simp)
      rw [he] at hr
      simp only [encode, he, decodedBytes, hr, Option.map_some, restored]
  | case2 a b =>
    simp only [encode, decodedBytes, ne_eq, not_true_eq_false, if_false,
      digit_ne_pad (third_lt b 0), not_false_eq_true, if_true, decodeChar_digit, first_lt, second_lt,
      third_lt, joinFirst_sextets, joinSecond_sextets]
  | case3 a =>
    simp only [encode, decodedBytes, ne_eq, not_true_eq_false, if_false, decodeChar_digit, first_lt,
      second_lt, joinFirst_sextets]
  | case4 => exact absurd rfl h

end Hlib
