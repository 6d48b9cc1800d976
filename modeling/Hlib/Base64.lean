import Hlib.Base64Codec
import Hlib.Buffer

namespace Hlib

/-- The 65 bytes of `encode_table`, the terminating NUL included. -/
def encodeTable : List Byte := Base64Codec.alphabet ++ [0]

/-- `base64_encode_get_length`. -/
def base64EncodeGetLength (size : Nat) : Nat := sizeT (sizeT (size + 2) / 3 * 4)

/-- The lambda `encode_start`: the first two characters of a group. -/
def encodeStart (data : List Byte) (src : Nat) (b : Buffer) (dst : Nat) : Checked (Buffer × Nat) := do
  let s0 ← readByte data src
  let c ← readByte encodeTable ((s0 &&& 0xfc#8) >>> 2).toNat
  let b ← b.store dst [c]
  let s1 ← readByte data (src + 1)
  let t := (s0 &&& 0x03#8) <<< 4 ||| (s1 &&& 0xf0#8) >>> 4
  let c ← readByte encodeTable t.toNat
  let b ← b.store (dst + 1) [c]
  .ok (b, dst + 2)

/-- `while (size >= 3)` of `base64_encode`; gives back `size`, `src`, the memory and `dst`. -/
def encodeLoop (data : List Byte) : Nat → Nat → Buffer → Nat → Checked (Nat × Nat × Buffer × Nat)
  | size + 3, src, b, dst => do
    let (b, dst) ← encodeStart data src b dst
    let s1 ← readByte data (src + 1)
    let s2 ← readByte data (src + 2)
    let t := (s1 &&& 0x0f#8) <<< 2 ||| (s2 &&& 0xc0#8) >>> 6
    let c ← readByte encodeTable t.toNat
    let b ← b.store dst [c]
    let c ← readByte encodeTable (s2 &&& 0x3f#8).toNat
    let b ← b.store (dst + 1) [c]
    encodeLoop data size (src + 3) b (dst + 2)
  | size, src, b, dst => .ok (size, src, b, dst)

/-- `switch (size)` of `base64_encode`. -/
def encodeTail (data : List Byte) (size src : Nat) (b : Buffer) (dst : Nat) : Checked Buffer :=
  match size with
  | 2 => do
    let (b, dst) ← encodeStart data src b dst
    let s1 ← readByte data (src + 1)
    let c ← readByte encodeTable ((s1 &&& 0x0f#8) <<< 2).toNat
    let b ← b.store dst [c]
    b.store (dst + 1) [Base64Codec.pad]
  | 1 => do
    let s0 ← readByte data src
    let c ← readByte encodeTable ((s0 &&& 0xfc#8) >>> 2).toNat
    let b ← b.store dst [c]
    let c ← readByte encodeTable ((s0 &&& 0x03#8) <<< 4).toNat
    let b ← b.store (dst + 1) [c]
    let b ← b.store (dst + 2) [Base64Codec.pad]
    b.store (dst + 3) [Base64Codec.pad]
  | _ => .ok b

/-- `base64_encode(Buffer&, void const*, std::size_t)`; `alloc` says of the calls of
`::realloc`, in order, whether they succeed. -/
def base64Encode (b : Buffer) (data : List Byte) (alloc : Nat → Bool) : Checked (Bool × Buffer) := do
  let encodedLength := base64EncodeGetLength data.length
  if encodedLength = 0 then .ok (true, b)
  else
    match b.extend encodedLength (alloc 0) with
    | (none, b) => .ok (false, b)
    | (some dst, b) =>
      let (size, src, b, dst) ← encodeLoop data data.length 0 b dst
      let b ← encodeTail data size src b dst
      let size := sizeT (b.size + encodedLength)
      let (_, b) ← Buffer.orThrow size (b.resize size (alloc 1))
      .ok (true, b)

/-- `base64_encode(void const*, std::size_t)`. -/
def base64EncodeString (data : List Byte) (alloc : Nat → Bool) : Checked (List Byte) := do
  let (_, b) ← base64Encode {} data alloc
  b.toString

/-- `base64_decode_get_size`. -/
def base64DecodeGetSize (length : Nat) : Nat := sizeT (3 * (length / 4) + 2)

/-- The lambda `decode_char`. -/
def decodeChar (c : Byte) : Byte :=
  let code := c.toNat
  if 'A'.toNat ≤ code ∧ code ≤ 'Z'.toNat then c - BitVec.ofNat 8 'A'.toNat
  else if 'a'.toNat ≤ code ∧ code ≤ 'z'.toNat then c - BitVec.ofNat 8 'a'.toNat + 26
  else if '0'.toNat ≤ code ∧ code ≤ '9'.toNat then c - BitVec.ofNat 8 '0'.toNat + 52
  else if code = '+'.toNat then 62 else 63

def decode2 (data : List Byte) (src : Nat) (b : Buffer) (dst : Nat) : Checked (Buffer × Nat) := do
  let s0 ← readByte data src
  let s1 ← readByte data (src + 1)
  let b ← b.store dst [decodeChar s0 <<< 2 ||| (decodeChar s1 &&& 0x30#8) >>> 4]
  .ok (b, dst + 1)

def decode3 (data : List Byte) (src : Nat) (b : Buffer) (dst : Nat) : Checked (Buffer × Nat) := do
  let (b, dst) ← decode2 data src b dst
  let s1 ← readByte data (src + 1)
  let s2 ← readByte data (src + 2)
  let b ← b.store dst [(decodeChar s1 &&& 0x0f#8) <<< 4 ||| (decodeChar s2 &&& 0x3c#8) >>> 2]
  .ok (b, dst + 1)

def decode4 (data : List Byte) (src : Nat) (b : Buffer) (dst : Nat) : Checked (Buffer × Nat) := do
  let (b, dst) ← decode3 data src b dst
  let s2 ← readByte data (src + 2)
  let s3 ← readByte data (src + 3)
  let b ← b.store dst [(decodeChar s2 &&& 0x03#8) <<< 6 ||| decodeChar s3]
  .ok (b, dst + 1)

/-- `while (length >= 5)` of `base64_decode`. -/
def decodeLoop (data : List Byte) : Nat → Nat → Buffer → Nat → Checked (Nat × Nat × Buffer × Nat)
  | length + 5, src, b, dst => do
    let (b, dst) ← decode4 data src b dst
    decodeLoop data (length + 1) (src + 4) b dst
  | length, src, b, dst => .ok (length, src, b, dst)

/-- `switch (length)` of `base64_decode`; `false` where it leaves through `default`. -/
def decodeTail (asserts : Bool) (data : List Byte) (length src : Nat) (b : Buffer) (dst : Nat) :
    Checked (Bool × Buffer) :=
  match length with
  | 4 => do
    let s3 ← readByte data (src + 3)
    if s3 ≠ Base64Codec.pad then
      let (b, _) ← decode4 data src b dst
      .ok (true, b)
    else
      let s2 ← readByte data (src + 2)
      if s2 ≠ Base64Codec.pad then
        let (b, _) ← decode3 data src b dst
        .ok (true, b)
      else
        let (b, _) ← decode2 data src b dst
        .ok (true, b)
  | 3 => do
    let (b, _) ← decode3 data src b dst
    .ok (true, b)
  | 2 => .ok (true, b)
  | _ => do
    require (asserts = false) .assertion
    .ok (false, b)

/-- `base64_decode(Buffer&, char const*, std::size_t)`, built with assertions if `asserts`. -/
def base64Decode (asserts : Bool) (b : Buffer) (data : List Byte) (alloc : Nat → Bool) :
    Checked (Bool × Buffer) := do
  let decodedSize := base64DecodeGetSize data.length
  if decodedSize = 0 then .ok (true, b)
  else
    let (dst, b) ← Buffer.orThrow decodedSize (b.extend decodedSize (alloc 0))
    match dst with
    | none => .ok (false, b)
    | some dst =>
      let (length, src, b, dst) ← decodeLoop data data.length 0 b dst
      let (accepted, b) ← decodeTail asserts data length src b dst
      if accepted then
        let size := sizeT (b.size + decodedSize)
        let (_, b) ← Buffer.orThrow size (b.resize size (alloc 1))
        .ok (true, b)
      else .ok (false, b)

/-- `base64_decode(std::string const&)`. -/
def base64DecodeString (asserts : Bool) (data : List Byte) (alloc : Nat → Bool) : Checked Buffer := do
  let (_, b) ← base64Decode asserts {} data alloc
  .ok b

end Hlib
