import Hlib.Base64RoundTrip
import Mathlib.Data.List.DropRight

namespace Base64Codec

/-- A text without the `=` characters at its end. -/
def unpadded (text : List Octet) : List Octet := text.rdropWhile fun c => c = pad

theorem digits_ne_pad (xs : List Octet) : ∀ c ∈ digits xs, c ≠ pad := by
  induction xs using encode.induct with
  | case1 a b c rest ih =>
    rw [digits_group]
    simp only [List.forall_mem_cons]
    exact ⟨digit_ne_pad (first_lt a), digit_ne_pad (second_lt a b), digit_ne_pad (third_lt b c),
      digit_ne_pad (fourth_lt c), ih⟩
  | case2 a b =>
    rw [digits_two]
    simp only [List.forall_mem_cons]
    exact ⟨digit_ne_pad (first_lt a), digit_ne_pad (second_lt a b), digit_ne_pad (third_lt b 0),
      List.forall_mem_nil _⟩
  | case3 a =>
    rw [digits_one]
    simp only [List.forall_mem_cons]
    exact ⟨digit_ne_pad (first_lt a), digit_ne_pad (second_lt a 0), List.forall_mem_nil _⟩
  | case4 => exact List.forall_mem_nil _

theorem rdropWhile_replicate (text : List Octet) (count : Nat) :
    unpadded (text ++ List.replicate count pad) = unpadded text := by
  induction count with
  | zero => rw [List.replicate_zero, List.append_nil]
  | succ count ih =>
    rw [List.replicate_succ', ← List.append_assoc, unpadded, List.rdropWhile_concat_pos _ _ _ (by simp)]
    exact ih

theorem unpadded_standard (xs : List Octet) : unpadded (standard xs) = digits xs := by
  rw [standard, rdropWhile_replicate, unpadded, List.rdropWhile_eq_self_iff]
  intro given
  simp [digits_ne_pad xs _ (List.getLast_mem given)]

theorem digits_length (xs : List Octet) : (digits xs).length = (4 * xs.length + 2) / 3 := by
  induction xs using encode.induct with
  | case1 a b c rest ih =>
    rw [digits_group]
    simp only [List.length_cons, ih]
    omega
  | case2 a b =>
    rw [digits_two]
    simp
  | case3 a =>
    rw [digits_one]
    simp
  | case4 => rfl

end Base64Codec

namespace Hlib

open Base64Codec

/-- Without the padding, the last of the bytes is not decoded if it stands alone in its group. -/
theorem decodedBytes_digits {x : List Byte} (h : x ≠ []) :
    decodedBytes (digits x) = some (if x.length % 3 = 1 then x.dropLast else x) := by
  induction x using encode.induct with
  | case1 a b c rest ih =>
    have restored : joinFirst (decodeChar (digit (first a))) (decodeChar (digit (second a b))) = a ∧
        joinSecond (decodeChar (digit (second a b))) (decodeChar (digit (third b c))) = b ∧
        joinThird (decodeChar (digit (third b c))) (decodeChar (digit (fourth c))) = c := by
      simp only [decodeChar_digit, first_lt, second_lt, third_lt, fourth_lt]
      exact ⟨joinFirst_sextets a b, joinSecond_sextets a b c, joinThird_sextets b c⟩
    rw [digits_group]
    cases rest with
    | nil =>
      have nothing : digits [] = [] := rfl
      simp [nothing, decodedBytes, digit_ne_pad (fourth_lt c), restored]
    | cons d rest =>
      have given : digits (d :: rest) ≠ [] := by
        intro nothing
        have length := digits_length (d :: rest)
        rw [nothing, List.length_nil, List.length_cons] at length
        omega
      obtain ⟨e, tail, he⟩ := List.exists_cons_of_ne_nil given
      have hr := ih (List.cons_ne_nil d rest)
      have shift : (a :: b :: c :: d :: rest).length % 3 = (d :: rest).length % 3 := by
        simp only [List.length_cons]
        omega
      rw [he] at hr ⊢
      by_cases alone : (d :: rest).length % 3 = 1
      · rw [if_pos alone] at hr
        rw [if_pos (shift.trans alone)]
        simp only [decodedBytes, hr, Option.map_some, restored]
        rfl
      · rw [if_neg alone] at hr
        rw [if_neg (fun h => alone (shift.symm.trans h))]
        simp only [decodedBytes, hr, Option.map_some, restored]
  | case2 a b =>
    rw [digits_two]
    simp only [decodedBytes, decodeChar_digit, first_lt, second_lt, third_lt, joinFirst_sextets,
      joinSecond_sextets]
    rfl
  | case3 a =>
    rw [digits_one]
    rfl
  | case4 => exact absurd rfl h

namespace Buffer

/-- There is room for `n` bytes behind the contents, or `::realloc` is asked for it and gives it. -/
def Grants (b : Buffer) (n : Nat) (alloc : Bool) : Prop :=
  b.size + n ≤ b.capacity ∨ b.size + n ≤ b.maximum ∧ alloc = true

theorem extend_granted {b : Buffer} (hv : b.Valid) {n : Nat} (positive : 0 < n) {alloc : Bool}
    (granted : b.Grants n alloc) :
    ∃ b', b.extend n alloc = (some b.size, b') ∧ b.Grown b' (b.size + n) := by
  rcases granted with fits | ⟨room, rfl⟩
  · have capacity_le := hv.capacity_le
    have maximum_lt := hv.maximum_lt
    have used : ¬(b.data = none ∧ b.size = 0) := fun null => hv.present (by omega) null.1
    refine ⟨b, ?_, Grown.refl hv fits⟩
    unfold extend realloc
    rw [if_pos positive, sizeT_of_lt (by omega), if_pos ⟨nofun, fits⟩]
    show (b.address b.size, b) = _
    rw [address, if_neg used]
  · exact extend_succeeds hv positive room

theorem extend_refused {b : Buffer} {n : Nat} (positive : 0 < n) {alloc : Bool}
    (sum : b.size + n < 2 ^ 64) (refused : ¬b.Grants n alloc) : b.extend n alloc = (none, b) := by
  simp only [Grants, not_or, not_and, Bool.not_eq_true] at refused
  unfold extend realloc
  rw [if_pos positive, sizeT_of_lt sum, if_neg (fun h => refused.1 h.2)]
  by_cases room : b.size + n ≤ b.maximum
  · rw [if_neg (Nat.not_lt.mpr room), if_pos (by omega), refused.2 room]
    rfl
  · rw [if_pos (Nat.lt_of_not_le room)]

end Buffer

/-- Into a buffer that holds `p`, the decoder returns true and leaves `p` and `x` in front. -/
def DecodesTo (asserts : Bool) (b : Buffer) (p x : List Byte) (alloc : Nat → Bool) (text : List Byte) : Prop :=
  ∃ b', base64Decode asserts b text alloc = .ok (true, b') ∧
    b'.contents.take (p.length + x.length) = (p ++ x).map some

section Decodes

variable {asserts : Bool} {b : Buffer} {p x text bytes : List Byte} {alloc : Nat → Bool}

/-- The decoder is `noexcept`, and the `extend` it calls throws. -/
theorem base64Decode_refused (ht : text.length < 2 ^ 63) (hp : b.size < 2 ^ 63)
    (refused : ¬b.Grants (base64DecodeGetSize text.length) (alloc 0)) :
    base64Decode asserts b text alloc = .error .terminate := by
  rw [base64DecodeGetSize_eq (by omega)] at refused
  have positive : 0 < 3 * (text.length / 4) + 2 := by omega
  unfold base64Decode
  rw [base64DecodeGetSize_eq (by omega), if_neg (by omega), Buffer.extend_refused positive (by omega) refused,
    Buffer.orThrow, if_pos ⟨rfl, positive⟩]
  rfl

theorem decodes_iff (h : b.Holds p) (hp : p.length < 2 ^ 63) (ht : text.length < 2 ^ 63)
    (hd : decodedBytes text = some bytes) :
    DecodesTo asserts b p x alloc text ↔ b.Grants (base64DecodeGetSize text.length) (alloc 0) ∧
      ∃ b', b.Grown b' (b.size + base64DecodeGetSize text.length) ∧
        ((p ++ bytes).map some ++ (b'.block.drop (b.size + bytes.length)).take
          (base64DecodeGetSize text.length - bytes.length)).take (p.length + x.length) = (p ++ x).map some := by
  have size := h.size
  have size_eq := base64DecodeGetSize_eq (show text.length < 2 ^ 64 by omega)
  by_cases granted : b.Grants (base64DecodeGetSize text.length) (alloc 0)
  · have positive : 0 < base64DecodeGetSize text.length := by omega
    obtain ⟨b', he, grown⟩ := Buffer.extend_granted h.valid positive granted
    rw [size_eq] at he grown
    obtain ⟨b'', hr, _, contents⟩ := base64Decode_extended asserts alloc h (by omega) hd (by omega) he grown
    rw [← size_eq] at contents grown
    constructor
    · rintro ⟨left, hl, front⟩
      rw [hr] at hl
      cases hl
      rw [contents] at front
      exact ⟨granted, b', grown, front⟩
    · rintro ⟨_, other, grown', front⟩
      have same : other.block = b'.block := grown'.block.trans grown.block.symm
      rw [same, ← contents] at front
      exact ⟨b'', hr, front⟩
  · refine iff_of_false ?_ (fun both => granted both.1)
    rintro ⟨b', hr, _⟩
    rw [base64Decode_refused ht (by omega) granted] at hr
    cases hr

theorem decodes_whole (h : b.Holds p) (hp : p.length < 2 ^ 63) (ht : text.length < 2 ^ 63)
    (hd : decodedBytes text = some x) :
    DecodesTo asserts b p x alloc text ↔ b.Grants (base64DecodeGetSize text.length) (alloc 0) := by
  rw [decodes_iff h hp ht hd]
  refine ⟨fun both => both.1, fun granted => ⟨granted, ?_⟩⟩
  have positive : 0 < base64DecodeGetSize text.length := by
    rw [base64DecodeGetSize_eq (by omega)]
    omega
  obtain ⟨b', _, grown⟩ := Buffer.extend_granted h.valid positive granted
  refine ⟨b', grown, ?_⟩
  have front : p.length + x.length = ((p ++ x).map some : List Cell).length := by
    rw [List.length_map, List.length_append]
  rw [front, List.take_left]

/-- Where the last byte is left out, it is as it should be only if it stood there before. -/
theorem decodes_short (h : b.Holds p) (hp : p.length < 2 ^ 63) (ht : text.length < 2 ^ 63) (given : x ≠ [])
    (hd : decodedBytes text = some x.dropLast) (spare : x.length ≤ base64DecodeGetSize text.length) :
    DecodesTo asserts b p x alloc text ↔ b.Grants (base64DecodeGetSize text.length) (alloc 0) ∧
      b.block[b.size + x.length - 1]? = some x.getLast? := by
  rw [decodes_iff h hp ht hd]
  have size := h.size
  have inside := List.length_pos_iff.mpr given
  have last := List.getLast?_eq_some_getLast given
  have split := List.dropLast_append_getLast given
  generalize x.getLast given = byte at last split
  generalize hx : x.dropLast = front at split ⊢
  have front_length : front.length = x.length - 1 := by
    rw [← hx, List.length_dropLast]
  have place : b.size + x.length - 1 = b.size + front.length := by omega
  -- Only the cell behind the decoded bytes is in question.
  have cell : ∀ b' : Buffer, b.Grown b' (b.size + base64DecodeGetSize text.length) →
      (((p ++ front).map some ++ (b'.block.drop (b.size + front.length)).take
          (base64DecodeGetSize text.length - front.length)).take (p.length + x.length) = (p ++ x).map some ↔
        b.block[b.size + front.length]? = some (some byte)) := by
    intro b' grown
    have count : p.length + x.length = ((p ++ front).map some : List Cell).length + 1 := by
      rw [List.length_map, List.length_append]
      omega
    have wanted : (p ++ x).map some = (p ++ front).map some ++ [some byte] := by
      rw [← split, ← List.append_assoc, List.map_append]
      rfl
    have one : min 1 (base64DecodeGetSize text.length - front.length) = 1 := by omega
    rw [count, List.take_length_add_append, wanted, List.append_cancel_left_eq, List.take_take, one,
      List.take_one, List.head?_drop, grown.block]
    by_cases old : b.size + front.length < b.block.length
    · rw [List.getElem?_append_left old, List.getElem?_eq_getElem old]
      simp
    · rw [List.getElem?_append_right (by omega), List.getElem?_eq_none (Nat.le_of_not_lt old),
        List.getElem?_replicate]
      split <;> simp
  rw [place, last]
  constructor
  · rintro ⟨granted, b', grown, whole⟩
    exact ⟨granted, (cell b' grown).mp whole⟩
  · rintro ⟨granted, stood⟩
    obtain ⟨b', _, grown⟩ := Buffer.extend_granted h.valid (by omega) granted
    exact ⟨granted, b', grown, (cell b' grown).mpr stood⟩

end Decodes

/-- The text that `base64_encode` makes of `x` and the same text without its padding both decode to
`x`. -/
def PaddingIrrelevant (asserts : Bool) (b : Buffer) (p x : List Byte) (alloc alloc' : Nat → Bool) : Prop :=
  ∃ text, base64EncodeString x (fun _ => true) = .ok text ∧ DecodesTo asserts b p x alloc text ∧
    DecodesTo asserts b p x alloc' (unpadded text)

/-- The switch has no code for the two characters of a last byte without padding. No object is larger than
`PTRDIFF_MAX` bytes, neither the buffer nor the text. -/
theorem paddingIrrelevant_iff (asserts : Bool) {b : Buffer} {p x : List Byte} (h : b.Holds p)
    (hp : p.length < 2 ^ 63) (hx : (standard x).length < 2 ^ 63) (tail : x.length % 3 ≠ 0)
    (alloc alloc' : Nat → Bool) :
    PaddingIrrelevant asserts b p x alloc alloc' ↔
      b.Grants (base64DecodeGetSize (standard x).length) (alloc 0) ∧
        b.Grants (base64DecodeGetSize (unpadded (standard x)).length) (alloc' 0) ∧
          (x.length % 3 = 2 ∨ b.block[b.size + x.length - 1]? = some x.getLast?) := by
  have length := encode_length x
  have given : x ≠ [] := by
    rintro rfl
    exact tail rfl
  have padded := decodedBytes_encode given
  rw [encode_standard] at length padded
  have encoded : base64EncodeString x (fun _ => true) = .ok (standard x) := by
    rw [base64EncodeString_ok (by omega), encode_standard]
  have shorter := digits_length x
  have unfolded : PaddingIrrelevant asserts b p x alloc alloc' ↔
      DecodesTo asserts b p x alloc (standard x) ∧ DecodesTo asserts b p x alloc' (digits x) := by
    unfold PaddingIrrelevant
    rw [encoded]
    constructor
    · rintro ⟨text, same, both⟩
      cases same
      rwa [unpadded_standard] at both
    · intro both
      refine ⟨standard x, rfl, ?_⟩
      rwa [unpadded_standard]
  have read := decodedBytes_digits given
  rw [unfolded, unpadded_standard, decodes_whole h hp hx padded]
  by_cases two : x.length % 3 = 2
  · rw [if_neg (by omega)] at read
    rw [decodes_whole h hp (by omega) read]
    simp only [two, true_or, and_true]
  · rw [if_pos (by omega)] at read
    have spare : x.length ≤ base64DecodeGetSize (digits x).length := by
      rw [base64DecodeGetSize_eq (by omega)]
      omega
    rw [decodes_short h hp (by omega) given read spare]
    simp only [two, false_or]

theorem paddingIrrelevant_iff_two : PaddingIrrelevant true {} [] [0x4d#8, 0x61#8] (fun _ => true) fun _ => true :=
  (paddingIrrelevant_iff true Buffer.holds_empty (by decide) (by decide) (by decide) _ _).mpr
    ⟨Or.inr ⟨by decide, rfl⟩, Or.inr ⟨by decide, rfl⟩, Or.inl (by decide)⟩

/-- `base64_decode("TQ")` returns true with two bytes to which nothing was stored. -/
theorem unpadded_one_undecoded : ¬PaddingIrrelevant true {} [] [0x4d#8] (fun _ => true) fun _ => true := by
  rintro ⟨text, encoded, _, b', decoded, front⟩
  have same : text = standard [0x4d#8] := by
    rw [base64EncodeString_ok (by decide), encode_standard] at encoded
    exact (Except.ok.inj encoded).symm
  have short : unpadded (standard [0x4d#8]) = digits [0x4d#8] := unpadded_standard _
  rw [same, short] at decoded
  have left : base64Decode true {} (digits [0x4d#8]) (fun _ => true) =
      .ok (true, { data := some [none, none], capacity := 2, size := 2 }) := by rfl
  rw [left] at decoded
  cases decoded
  cases front

end Hlib
