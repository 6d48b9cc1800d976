import Hlib.Base64Encode
import Hlib.Base64Decode

namespace Hlib

open Base64Codec

theorem base64DecodeGetSize_eq {length : Nat} (h : length < 2 ^ 64) :
    base64DecodeGetSize length = 3 * (length / 4) + 2 :=
  sizeT_of_lt (by omega)

/-- Once the room is there, the decoder stores the bytes the text stands for and counts in everything
it made room for: what stands behind these bytes is what the block happens to hold. -/
theorem base64Decode_extended (asserts : Bool) (alloc : Nat → Bool) {b b' : Buffer}
    {p text bytes : List Byte} (h : b.Holds p) (ht : text.length < 2 ^ 64) (hd : decodedBytes text = some bytes)
    (sum : b.size + (3 * (text.length / 4) + 2) < 2 ^ 64)
    (he : b.extend (3 * (text.length / 4) + 2) (alloc 0) = (some b.size, b'))
    (grown : b.Grown b' (b.size + (3 * (text.length / 4) + 2))) :
    ∃ b'', base64Decode asserts b text alloc = .ok (true, b'') ∧ b''.Valid ∧
      b''.contents = (p ++ bytes).map some ++ (b'.block.drop (b.size + bytes.length)).take
        (3 * (text.length / 4) + 2 - bytes.length) := by
  have bound := decodedBytes_length hd
  have capacity := grown.capacity h.valid
  have present : b'.data ≠ none := grown.valid.present (by omega)
  have stored := decode_stores asserts text grown.valid present [] b.size b.size [] rfl hd
    (by simp; omega)
  simp only [List.nil_append, List.length_nil, Buffer.written_nil present] at stored
  obtain ⟨⟨length, src, loopBuffer, dst⟩, loop, tail⟩ := bind_ok stored
  have size_eq : (b'.written b.size bytes).size = b.size := grown.size
  have total : b.size + (3 * (text.length / 4) + 2) =
      b.size + bytes.length + (3 * (text.length / 4) + 2 - bytes.length) := by omega
  have hv : (b'.written b.size bytes).Valid :=
    Buffer.written_valid grown.valid present (by omega)
  refine ⟨{ b'.written b.size bytes with size := b.size + (3 * (text.length / 4) + 2) }, ?_, ?_, ?_⟩
  · unfold base64Decode
    rw [base64DecodeGetSize_eq ht, if_neg (by omega), he]
    simp only [Buffer.orThrow, reduceCtorEq, false_and, if_false, ok_bind, loop, tail, if_true,
      size_eq, sizeT_of_lt sum]
    rw [Buffer.resize_within (by show _ ≤ b'.capacity; omega)]
    simp [Buffer.address, Buffer.written, ok_bind]
  · exact ⟨hv.null, hv.block_length, by show b.size + _ ≤ b'.capacity; omega, hv.capacity_le,
      hv.maximum_lt⟩
  · rw [total]
    exact h.contents_stored grown _ (by omega)

/-- Behind the bytes the text stands for, the decoder counts in everything it made room for. -/
theorem base64Decode_appends (asserts : Bool) {b : Buffer} {p text bytes : List Byte}
    (h : b.Holds p) (ht : text.length < 2 ^ 64) (hd : decodedBytes text = some bytes)
    (room : b.size + base64DecodeGetSize text.length ≤ b.maximum) :
    ∃ b' junk, base64Decode asserts b text (fun _ => true) = .ok (true, b') ∧ b'.Valid ∧
      b'.contents = (p ++ bytes).map some ++ junk ∧
      junk.length = 3 * (text.length / 4) + 2 - bytes.length := by
  have bound := decodedBytes_length hd
  rw [base64DecodeGetSize_eq ht] at room
  obtain ⟨b', he, grown⟩ := Buffer.extend_succeeds h.valid (show 0 < 3 * (text.length / 4) + 2 by omega) room
  have capacity := grown.capacity h.valid
  have sum := Nat.lt_of_le_of_lt room h.valid.maximum_lt
  obtain ⟨b'', hr, hv, contents⟩ :=
    base64Decode_extended asserts (fun _ => true) h ht hd sum he grown
  refine ⟨b'', _, hr, hv, contents, ?_⟩
  rw [List.length_take, List.length_drop, grown.valid.block_length]
  omega

theorem base64Decode_empty (asserts : Bool) {b : Buffer} {p : List Byte} (h : b.Holds p)
    (room : b.size + 2 ≤ b.maximum) :
    (∃ b', base64Decode asserts b [] (fun _ => true) =
        (if asserts then .error .assertion else .ok (false, b')) ∧ b'.Holds p) := by
  obtain ⟨b', he, grown⟩ := Buffer.extend_succeeds h.valid (show 0 < 2 by omega) room
  refine ⟨b', ?_, grown.valid, ?_⟩
  · have two : base64DecodeGetSize ([] : List Byte).length = 2 := rfl
    unfold base64Decode
    rw [two, if_neg (by omega), he]
    cases asserts <;> rfl
  · rw [Buffer.contents, grown.size, grown.take_block h.valid, h.contents]

def RestoresString (asserts : Bool) (x : List Byte) : Prop :=
  ∃ b, (base64EncodeString x (fun _ => true) >>= fun text =>
      base64DecodeString asserts text (fun _ => true)) = .ok b ∧
    b.size = x.length ∧ b.contents = x.map some

/-- `base64_decode(b, text, size)` of the encoded `x` returns true and appends `x`. -/
def RestoresInto (asserts : Bool) (b : Buffer) (p x : List Byte) : Prop :=
  ∃ b', (base64EncodeString x (fun _ => true) >>= fun text =>
      base64Decode asserts b text (fun _ => true)) = .ok (true, b') ∧
    b'.contents = (p ++ x).map some

/-- Decoding undoes encoding, for either way of calling the decoder and every buffer that can
be given the room. -/
def DecodeUndoesEncode (asserts : Bool) (x : List Byte) : Prop :=
  RestoresString asserts x ∧
    ∀ (b : Buffer) (p : List Byte), b.Holds p →
      b.size + base64DecodeGetSize (base64EncodeGetLength x.length) ≤ b.maximum →
      RestoresInto asserts b p x

theorem restoresInto_never (asserts : Bool) {b : Buffer} {p x : List Byte} (hx : x.length < 2 ^ 63)
    (h : b.Holds p)
    (room : b.size + base64DecodeGetSize (base64EncodeGetLength x.length) ≤ b.maximum) :
    ¬RestoresInto asserts b p x := by
  rintro ⟨b', hr, hc⟩
  rw [base64EncodeString_ok hx, ok_bind] at hr
  rw [base64EncodeGetLength_eq hx] at room
  have length := encode_length x
  by_cases nil : x = []
  · subst x
    obtain ⟨other, hd, _⟩ := base64Decode_empty asserts h room
    rw [encode, hd] at hr
    cases asserts <;> simp at hr
  · obtain ⟨other, junk, hd, _, hj, hl⟩ := base64Decode_appends asserts h (by omega)
      (decodedBytes_encode nil) room
    rw [hd] at hr
    cases hr
    have lengths := congrArg List.length (hj.symm.trans hc)
    simp only [List.length_append, List.length_map] at lengths
    omega

theorem restoresString_iff (asserts : Bool) {x : List Byte} (hx : x.length < 2 ^ 63) :
    RestoresString asserts x ↔ x = [] ∧ asserts = false := by
  have length := encode_length x
  unfold RestoresString
  rw [base64EncodeString_ok hx, ok_bind]
  by_cases nil : x = []
  · subst x
    obtain ⟨other, hd, ho⟩ := base64Decode_empty asserts Buffer.holds_empty (by decide)
    change (∃ b, base64DecodeString asserts [] (fun _ => true) = .ok b ∧ _) ↔ _
    rw [base64DecodeString, hd]
    cases asserts with
    | true =>
      refine iff_of_false ?_ (by simp)
      rintro ⟨b, failed, _⟩
      cases failed
    | false => exact iff_of_true ⟨other, rfl, ho.size, ho.contents⟩ ⟨rfl, rfl⟩
  · have room : ({} : Buffer).size + base64DecodeGetSize (encode x).length ≤ 2 ^ 64 - 1 := by
      rw [base64DecodeGetSize_eq (by omega)]
      show 0 + _ ≤ _
      omega
    obtain ⟨other, junk, hd, hv, hj, hl⟩ := base64Decode_appends asserts Buffer.holds_empty
      (by omega) (decodedBytes_encode nil) room
    simp only [base64DecodeString, hd, ok_bind, nil, false_and, iff_false, not_exists]
    rintro b ⟨he, _, hc⟩
    cases he
    have lengths := congrArg List.length (hj.symm.trans hc)
    simp only [List.length_append, List.length_map, List.length_nil] at lengths
    omega

/-- The size the decoder moves to is that of the bytes it decoded for no text, and the empty one is refused;
without assertions the overload that returns a buffer does not look at that. No object is larger than
`PTRDIFF_MAX` bytes. -/
theorem restores_iff (asserts : Bool) {x : List Byte} (hx : x.length < 2 ^ 63) :
    (RestoresString asserts x ↔ x = [] ∧ asserts = false) ∧
      ∀ (b : Buffer) (p : List Byte), b.Holds p →
        b.size + base64DecodeGetSize (base64EncodeGetLength x.length) ≤ b.maximum →
        ¬RestoresInto asserts b p x :=
  ⟨restoresString_iff asserts hx, fun _ _ h room => restoresInto_never asserts hx h room⟩

theorem restores_iff_man : ¬RestoresString false [0x4d#8, 0x61#8, 0x6e#8] ∧
    ¬RestoresInto false {} [] [0x4d#8, 0x61#8, 0x6e#8] := by
  obtain ⟨string, into⟩ := restores_iff false (show ([0x4d#8, 0x61#8, 0x6e#8] : List Byte).length < 2 ^ 63 by decide)
  exact ⟨fun restored => absurd (string.mp restored).1 (by decide), into _ _ Buffer.holds_empty (by decide)⟩

theorem decode_man_longer : ¬DecodeUndoesEncode true [0x4d#8, 0x61#8, 0x6e#8] := by
  rintro ⟨string, _⟩
  exact absurd ((restoresString_iff true (by decide)).mp string).1 (by decide)

end Hlib
