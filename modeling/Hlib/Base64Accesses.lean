import Hlib.AccessLog
import Hlib.Base64Unpadded

namespace Hlib

open AccessLog Base64Codec

/-- A byte of the source text, with the access recorded. -/
def loggedRead (data : List Byte) (index : Nat) : Logged Fault Byte := .reading index (readByte data index)

/-- A byte of the block, with the access recorded; `|=` on a byte just stored is part of its storing. -/
def loggedStore (b : Buffer) (dst : Nat) (c : Byte) : Logged Fault Buffer := .writing dst (b.store dst [c])

def loggedTable (index : Nat) : Logged Fault Byte := .lift (readByte encodeTable index)

def encodeStartLogged (data : List Byte) (src : Nat) (b : Buffer) (dst : Nat) : Logged Fault (Buffer × Nat) := do
  let s0 ← loggedRead data src
  let c ← loggedTable ((s0 &&& 0xfc#8) >>> 2).toNat
  let b ← loggedStore b dst c
  let s1 ← loggedRead data (src + 1)
  let t := (s0 &&& 0x03#8) <<< 4 ||| (s1 &&& 0xf0#8) >>> 4
  let c ← loggedTable t.toNat
  let b ← loggedStore b (dst + 1) c
  pure (b, dst + 2)

def encodeLoopLogged (data : List Byte) : Nat → Nat → Buffer → Nat → Logged Fault (Nat × Nat × Buffer × Nat)
  | size + 3, src, b, dst => do
    let (b, dst) ← encodeStartLogged data src b dst
    let s1 ← loggedRead data (src + 1)
    let s2 ← loggedRead data (src + 2)
    let t := (s1 &&& 0x0f#8) <<< 2 ||| (s2 &&& 0xc0#8) >>> 6
    let c ← loggedTable t.toNat
    let b ← loggedStore b dst c
    let c ← loggedTable (s2 &&& 0x3f#8).toNat
    let b ← loggedStore b (dst + 1) c
    encodeLoopLogged data size (src + 3) b (dst + 2)
  | size, src, b, dst => pure (size, src, b, dst)

def encodeTailLogged (data : List Byte) (size src : Nat) (b : Buffer) (dst : Nat) : Logged Fault Buffer :=
  match size with
  | 2 => do
    let (b, dst) ← encodeStartLogged data src b dst
    let s1 ← loggedRead data (src + 1)
    let c ← loggedTable ((s1 &&& 0x0f#8) <<< 2).toNat
    let b ← loggedStore b dst c
    loggedStore b (dst + 1) pad
  | 1 => do
    let s0 ← loggedRead data src
    let c ← loggedTable ((s0 &&& 0xfc#8) >>> 2).toNat
    let b ← loggedStore b dst c
    let c ← loggedTable ((s0 &&& 0x03#8) <<< 4).toNat
    let b ← loggedStore b (dst + 1) c
    let b ← loggedStore b (dst + 2) pad
    loggedStore b (dst + 3) pad
  | _ => pure b

/-- `buffer.resize(buffer.size() + n)` at the end. -/
def countInLogged (b : Buffer) (n : Nat) (alloc : Bool) : Logged Fault (Bool × Buffer) := do
  let size := sizeT (b.size + n)
  let (_, b) ← Logged.lift (Buffer.orThrow size (b.resize size alloc))
  pure (true, b)

/-- `base64_encode` with its accesses. -/
def base64EncodeLogged (b : Buffer) (data : List Byte) (alloc : Nat → Bool) : Logged Fault (Bool × Buffer) := do
  let encodedLength := base64EncodeGetLength data.length
  if encodedLength = 0 then pure (true, b)
  else
    match b.extend encodedLength (alloc 0) with
    | (none, b) => pure (false, b)
    | (some dst, b) =>
      let (size, src, b, dst) ← encodeLoopLogged data data.length 0 b dst
      let b ← encodeTailLogged data size src b dst
      countInLogged b encodedLength (alloc 1)

def decode2Logged (data : List Byte) (src : Nat) (b : Buffer) (dst : Nat) : Logged Fault (Buffer × Nat) := do
  let s0 ← loggedRead data src
  let s1 ← loggedRead data (src + 1)
  let b ← loggedStore b dst (decodeChar s0 <<< 2 ||| (decodeChar s1 &&& 0x30#8) >>> 4)
  pure (b, dst + 1)

def decode3Logged (data : List Byte) (src : Nat) (b : Buffer) (dst : Nat) : Logged Fault (Buffer × Nat) := do
  let (b, dst) ← decode2Logged data src b dst
  let s1 ← loggedRead data (src + 1)
  let s2 ← loggedRead data (src + 2)
  let b ← loggedStore b dst ((decodeChar s1 &&& 0x0f#8) <<< 4 ||| (decodeChar s2 &&& 0x3c#8) >>> 2)
  pure (b, dst + 1)

def decode4Logged (data : List Byte) (src : Nat) (b : Buffer) (dst : Nat) : Logged Fault (Buffer × Nat) := do
  let (b, dst) ← decode3Logged data src b dst
  let s2 ← loggedRead data (src + 2)
  let s3 ← loggedRead data (src + 3)
  let b ← loggedStore b dst ((decodeChar s2 &&& 0x03#8) <<< 6 ||| decodeChar s3)
  pure (b, dst + 1)

def decodeLoopLogged (data : List Byte) : Nat → Nat → Buffer → Nat → Logged Fault (Nat × Nat × Buffer × Nat)
  | length + 5, src, b, dst => do
    let (b, dst) ← decode4Logged data src b dst
    decodeLoopLogged data (length + 1) (src + 4) b dst
  | length, src, b, dst => pure (length, src, b, dst)

def decodeTailLogged (asserts : Bool) (data : List Byte) (length src : Nat) (b : Buffer) (dst : Nat) :
    Logged Fault (Bool × Buffer) :=
  match length with
  | 4 => do
    let s3 ← loggedRead data (src + 3)
    if s3 ≠ pad then
      let (b, _) ← decode4Logged data src b dst
      pure (true, b)
    else
      let s2 ← loggedRead data (src + 2)
      if s2 ≠ pad then
        let (b, _) ← decode3Logged data src b dst
        pure (true, b)
      else
        let (b, _) ← decode2Logged data src b dst
        pure (true, b)
  | 3 => do
    let (b, _) ← decode3Logged data src b dst
    pure (true, b)
  | 2 => pure (true, b)
  | _ => do
    Logged.lift (require (asserts = false) .assertion)
    pure (false, b)

/-- `base64_decode` with its accesses. -/
def base64DecodeLogged (asserts : Bool) (b : Buffer) (data : List Byte) (alloc : Nat → Bool) :
    Logged Fault (Bool × Buffer) := do
  let decodedSize := base64DecodeGetSize data.length
  if decodedSize = 0 then pure (true, b)
  else
    let (dst, b) ← Logged.lift (Buffer.orThrow decodedSize (b.extend decodedSize (alloc 0)))
    match dst with
    | none => pure (false, b)
    | some dst =>
      let (length, src, b, dst) ← decodeLoopLogged data data.length 0 b dst
      let (accepted, b) ← decodeTailLogged asserts data length src b dst
      if accepted then countInLogged b decodedSize (alloc 1) else pure (false, b)

section Value

@[simp] theorem loggedRead_value (data : List Byte) (index : Nat) :
    (loggedRead data index).value = readByte data index := rfl

@[simp] theorem loggedStore_value (b : Buffer) (dst : Nat) (c : Byte) :
    (loggedStore b dst c).value = b.store dst [c] := rfl

@[simp] theorem loggedTable_value (index : Nat) : (loggedTable index).value = readByte encodeTable index := rfl

@[simp] theorem encodeStartLogged_value (data : List Byte) (src : Nat) (b : Buffer) (dst : Nat) :
    (encodeStartLogged data src b dst).value = encodeStart data src b dst := by
  simp [encodeStartLogged, encodeStart]

@[simp] theorem encodeLoopLogged_value (data : List Byte) (size src : Nat) (b : Buffer) (dst : Nat) :
    (encodeLoopLogged data size src b dst).value = encodeLoop data size src b dst := by
  fun_induction encodeLoopLogged data size src b dst with
  | case1 size src b dst ih => simp [encodeLoop, ih]
  | case2 size src b dst short => simp [encodeLoop]

@[simp] theorem encodeTailLogged_value (data : List Byte) (size src : Nat) (b : Buffer) (dst : Nat) :
    (encodeTailLogged data size src b dst).value = encodeTail data size src b dst := by
  unfold encodeTailLogged encodeTail
  split <;> simp

@[simp] theorem countInLogged_value (b : Buffer) (n : Nat) (alloc : Bool) :
    (countInLogged b n alloc).value =
      Buffer.orThrow (sizeT (b.size + n)) (b.resize (sizeT (b.size + n)) alloc) >>= fun resized => .ok (true, resized.2) := by
  simp [countInLogged]

theorem countInLogged_log (b : Buffer) (n : Nat) (alloc : Bool) : (countInLogged b n alloc).log = [] :=
  Logged.log_bind_pure _ _

theorem base64EncodeLogged_value (b : Buffer) (data : List Byte) (alloc : Nat → Bool) :
    (base64EncodeLogged b data alloc).value = base64Encode b data alloc := by
  unfold base64EncodeLogged base64Encode
  dsimp only
  rw [Logged.value_ite]
  congr 1
  obtain ⟨address, extended⟩ := b.extend (base64EncodeGetLength data.length) (alloc 0)
  cases address <;> simp

@[simp] theorem decode2Logged_value (data : List Byte) (src : Nat) (b : Buffer) (dst : Nat) :
    (decode2Logged data src b dst).value = decode2 data src b dst := by
  simp [decode2Logged, decode2]

@[simp] theorem decode3Logged_value (data : List Byte) (src : Nat) (b : Buffer) (dst : Nat) :
    (decode3Logged data src b dst).value = decode3 data src b dst := by
  simp [decode3Logged, decode3]

@[simp] theorem decode4Logged_value (data : List Byte) (src : Nat) (b : Buffer) (dst : Nat) :
    (decode4Logged data src b dst).value = decode4 data src b dst := by
  simp [decode4Logged, decode4]

@[simp] theorem decodeLoopLogged_value (data : List Byte) (length src : Nat) (b : Buffer) (dst : Nat) :
    (decodeLoopLogged data length src b dst).value = decodeLoop data length src b dst := by
  fun_induction decodeLoopLogged data length src b dst with
  | case1 length src b dst ih => simp [decodeLoop, ih]
  | case2 length src b dst short => simp [decodeLoop]

@[simp] theorem decodeTailLogged_value (asserts : Bool) (data : List Byte) (length src : Nat) (b : Buffer) (dst : Nat) :
    (decodeTailLogged asserts data length src b dst).value = decodeTail asserts data length src b dst := by
  unfold decodeTailLogged decodeTail
  split <;> simp

theorem base64DecodeLogged_value (asserts : Bool) (b : Buffer) (data : List Byte) (alloc : Nat → Bool) :
    (base64DecodeLogged asserts b data alloc).value = base64Decode asserts b data alloc := by
  unfold base64DecodeLogged base64Decode
  dsimp only
  rw [Logged.value_ite]
  congr 1
  rw [Logged.value_bind, Logged.value_lift]
  congr 1
  funext extended
  obtain ⟨dst, b⟩ := extended
  cases dst <;> simp

end Value

section Touches

variable {b : Buffer} {before rest : List Byte} {s0 s1 s2 s3 : Byte} {offset dst bound : Nat} {acc : List Byte}

theorem encodeStartLogged_touches (hv : b.Valid) (present : b.data ≠ none) (hd : dst = offset + acc.length)
    (room : offset + acc.length + 2 ≤ b.capacity) (inside : before.length + 2 ≤ bound) :
    Touches (encodeStartLogged (before ++ s0 :: s1 :: rest) before.length (b.written offset acc) dst).log
      bound dst 2 := by
  have h0 : readByte (before ++ s0 :: s1 :: rest) before.length = .ok s0 :=
    readByte_append before _ 0
  have h1 : readByte (before ++ s0 :: s1 :: rest) (before.length + 1) = .ok s1 :=
    readByte_append before _ 1
  have t0 := readByte_encodeTable (first_lt s0)
  have t1 := readByte_encodeTable (second_lt s0 s1)
  simp only [first, second] at t0 t1
  simp only [encodeStartLogged, loggedRead, loggedTable, loggedStore, h0, h1, t0, Logged.log_reading, Logged.log_lift]
  rw [Buffer.store_next hv present hd (by simp; omega), Logged.log_writing, Logged.log_reading, t1, Logged.log_lift,
    Buffer.store_next hv present (by simp; omega) (by simp; omega), Logged.log_writing]
  exact .read (by omega) (.write (.read (by omega) (.write .nil)))

/-- The loop and the switch of `base64_encode` read what is left of the source and write its encoding. -/
theorem encodeLogged_touches (rest : List Byte) {b : Buffer} (hv : b.Valid) (present : b.data ≠ none)
    (before : List Byte) (offset dst : Nat) (acc : List Byte) (hd : dst = offset + acc.length)
    (room : offset + acc.length + (encode rest).length ≤ b.capacity) :
    Touches (do
      let (size, src, b, dst) ← encodeLoopLogged (before ++ rest) rest.length before.length (b.written offset acc) dst
      encodeTailLogged (before ++ rest) size src b dst).log (before.length + rest.length) dst (encode rest).length := by
  -- The induction follows the groups of three that the loop takes.
  induction rest using encode.induct generalizing before acc dst with
  | case1 s0 s1 s2 rest ih =>
    have h1 : readByte (before ++ s0 :: s1 :: s2 :: rest) (before.length + 1) = .ok s1 :=
      readByte_append before _ 1
    have h2 : readByte (before ++ s0 :: s1 :: s2 :: rest) (before.length + 2) = .ok s2 :=
      readByte_append before _ 2
    have t2 := readByte_encodeTable (third_lt s1 s2)
    have t3 := readByte_encodeTable (fourth_lt s2)
    simp only [third, fourth] at t2 t3
    simp only [encode, List.length_cons] at room
    have group := ih (before ++ [s0, s1, s2]) (dst + 4)
      (acc ++ [digit (first s0), digit (second s0 s1), digit (third s1 s2), digit (fourth s2)])
      (by simp; omega) (by simp; omega)
    have started := @encodeStart_stores b hv present before (s2 :: rest) s0 s1 offset dst acc hd (by omega)
    have whole : (encode (s0 :: s1 :: s2 :: rest)).length = 2 + ((encode rest).length + 1 + 1) := by
      simp [encode]
      omega
    simp only [List.length_cons, encodeLoopLogged, Logged.bind_assoc]
    rw [whole]
    refine .bind ((encodeStartLogged_value _ _ _ _).trans started)
      (encodeStartLogged_touches hv present hd (by omega) (by omega)) ?_
    simp only [loggedRead, loggedTable, loggedStore, h1, h2, t2, t3, Logged.log_reading, Logged.log_lift]
    rw [Buffer.store_next hv present (by simp; omega) (by simp; omega), Logged.log_writing, Logged.log_lift,
      Buffer.store_next hv present (by simp; omega) (by simp; omega), Logged.log_writing]
    refine .read (by omega) (.read (by omega) (.write (.write ?_)))
    have total : before.length + (rest.length + 1 + 1 + 1) = (before ++ [s0, s1, s2]).length + rest.length := by
      simp
      omega
    rw [total]
    simpa [third, fourth] using group
  | case2 s0 s1 =>
    have h1 : readByte (before ++ [s0, s1]) (before.length + 1) = .ok s1 :=
      readByte_append before _ 1
    have t2 := readByte_encodeTable (third_lt s1 0)
    have masked : (s1 &&& 0x0f#8) <<< 2 = third s1 0 := by simp [third]
    simp only [encode, List.length_cons, List.length_nil] at room
    have started := @encodeStart_stores b hv present before [] s0 s1 offset dst acc hd (by omega)
    show Touches (encodeTailLogged (before ++ [s0, s1]) 2 before.length (b.written offset acc) dst).log _ _ (2 + 2)
    simp only [encodeTailLogged]
    refine .bind ((encodeStartLogged_value _ _ _ _).trans started)
      (encodeStartLogged_touches hv present hd (by omega) (by simp)) ?_
    simp only [loggedRead, loggedTable, loggedStore, h1, masked, t2, Logged.log_reading, Logged.log_lift]
    rw [Buffer.store_next hv present (by simp; omega) (by simp; omega), Logged.log_writing]
    exact .read (by simp) (.write (.write .nil))
  | case3 s0 =>
    have h0 : readByte (before ++ [s0]) before.length = .ok s0 := readByte_append before _ 0
    have t0 := readByte_encodeTable (first_lt s0)
    have t1 := readByte_encodeTable (second_lt s0 0)
    have masked : (s0 &&& 0x03#8) <<< 4 = second s0 0 := by simp [second]
    simp only [first] at t0
    simp only [encode, List.length_cons, List.length_nil] at room
    show Touches (encodeTailLogged (before ++ [s0]) 1 before.length (b.written offset acc) dst).log _ _ _
    simp only [encodeTailLogged, loggedRead, loggedTable, loggedStore, h0, t0, masked, t1, Logged.log_reading,
      Logged.log_lift]
    rw [Buffer.store_next hv present hd (by simp; omega), Logged.log_writing, Logged.log_lift,
      Buffer.store_next hv present (by simp; omega) (by simp; omega), Logged.log_writing,
      Buffer.store_next hv present (by simp; omega) (by simp; omega), Logged.log_writing]
    exact .read (by simp) (.write (.write (.write (.write .nil))))
  | case4 => exact .nil

theorem decode2Logged_touches (hv : b.Valid) (present : b.data ≠ none) (hd : dst = offset + acc.length)
    (room : offset + acc.length + 1 ≤ b.capacity) (inside : before.length + 2 ≤ bound) :
    Touches (decode2Logged (before ++ s0 :: s1 :: rest) before.length (b.written offset acc) dst).log bound dst 1 := by
  have h0 : readByte (before ++ s0 :: s1 :: rest) before.length = .ok s0 :=
    readByte_append before _ 0
  have h1 : readByte (before ++ s0 :: s1 :: rest) (before.length + 1) = .ok s1 :=
    readByte_append before _ 1
  simp only [decode2Logged, loggedRead, loggedStore, h0, h1, Logged.log_reading]
  rw [Buffer.store_next hv present hd (by simpa using room), Logged.log_writing]
  exact .read (by omega) (.read (by omega) (.write .nil))

theorem decode3Logged_touches (hv : b.Valid) (present : b.data ≠ none) (hd : dst = offset + acc.length)
    (room : offset + acc.length + 2 ≤ b.capacity) (inside : before.length + 3 ≤ bound) :
    Touches (decode3Logged (before ++ s0 :: s1 :: s2 :: rest) before.length (b.written offset acc) dst).log
      bound dst (1 + 1) := by
  have h1 : readByte (before ++ s0 :: s1 :: s2 :: rest) (before.length + 1) = .ok s1 :=
    readByte_append before _ 1
  have h2 : readByte (before ++ s0 :: s1 :: s2 :: rest) (before.length + 2) = .ok s2 :=
    readByte_append before _ 2
  have one := @decode2_stores b before (s2 :: rest) s0 s1 offset dst acc hv present hd (by omega)
  refine .bind ((decode2Logged_value _ _ _ _).trans one)
    (decode2Logged_touches hv present hd (by omega) (by omega)) ?_
  simp only [loggedRead, loggedStore, h1, h2, Logged.log_reading]
  rw [Buffer.store_next hv present (by simp; omega) (by simp; omega), Logged.log_writing]
  exact .read (by omega) (.read (by omega) (.write .nil))

theorem decode4Logged_touches (hv : b.Valid) (present : b.data ≠ none) (hd : dst = offset + acc.length)
    (room : offset + acc.length + 3 ≤ b.capacity) (inside : before.length + 4 ≤ bound) :
    Touches (decode4Logged (before ++ s0 :: s1 :: s2 :: s3 :: rest) before.length (b.written offset acc) dst).log
      bound dst (2 + 1) := by
  have h2 : readByte (before ++ s0 :: s1 :: s2 :: s3 :: rest) (before.length + 2) = .ok s2 :=
    readByte_append before _ 2
  have h3 : readByte (before ++ s0 :: s1 :: s2 :: s3 :: rest) (before.length + 3) = .ok s3 :=
    readByte_append before _ 3
  have two := @decode3_stores b before (s3 :: rest) s0 s1 s2 offset dst acc hv present hd (by omega)
  refine .bind ((decode3Logged_value _ _ _ _).trans two)
    (decode3Logged_touches hv present hd (by omega) (by omega)) ?_
  simp only [loggedRead, loggedStore, h2, h3, Logged.log_reading]
  rw [Buffer.store_next hv present (by simp; omega) (by simp; omega), Logged.log_writing]
  exact .read (by omega) (.read (by omega) (.write .nil))

/-- The end of the switch of `base64_decode`: it leaves through `default` for a text that stands for nothing. -/
def decodeExit (asserts : Bool) (text : List Byte) (b : Buffer) : Checked (Bool × Buffer) :=
  if (decodedBytes text).isSome then .ok (true, b)
  else do
    require (asserts = false) .assertion
    .ok (false, b)

theorem decodeExit_of_some {asserts : Bool} {text bytes : List Byte} {b : Buffer}
    (h : decodedBytes text = some bytes) : decodeExit asserts text b = .ok (true, b) := by
  rw [decodeExit, h]
  rfl

/-- What the loop and the switch of `base64_decode` do with the rest of a text: the bytes that they store, the exit that
they take, and the accesses, which stay inside the blocks. -/
structure Decodes (asserts : Bool) (b : Buffer) (before rest : List Byte) (offset dst : Nat) (acc stored : List Byte) :
    Prop where
  bounded : stored.length ≤ 3 * (rest.length / 4) + 2
  value : (do
    let (length, src, b, dst) ← decodeLoop (before ++ rest) rest.length before.length (b.written offset acc) dst
    decodeTail asserts (before ++ rest) length src b dst) = decodeExit asserts rest (b.written offset (acc ++ stored))
  touches : Touches (do
    let (length, src, b, dst) ← decodeLoopLogged (before ++ rest) rest.length before.length (b.written offset acc) dst
    decodeTailLogged asserts (before ++ rest) length src b dst).log (before.length + rest.length) dst stored.length

section Decoding

variable {asserts : Bool}

/-- A text that stands for bytes: they are stored, and the accesses are left to show. -/
theorem Decodes.of_some (hv : b.Valid) (present : b.data ≠ none) (hd : dst = offset + acc.length)
    (room : offset + acc.length + (3 * (rest.length / 4) + 2) ≤ b.capacity) {bytes : List Byte}
    (h : decodedBytes rest = some bytes)
    (touches : Touches (do
      let (length, src, b, dst) ← decodeLoopLogged (before ++ rest) rest.length before.length (b.written offset acc) dst
      decodeTailLogged asserts (before ++ rest) length src b dst).log (before.length + rest.length) dst bytes.length) :
    Decodes asserts b before rest offset dst acc bytes where
  bounded := decodedBytes_length h
  value := by
    have bounded := decodedBytes_length h
    rw [decodeExit_of_some h]
    exact decode_stores asserts rest hv present before offset dst acc hd h (by omega)
  touches := touches

/-- One turn of the loop. -/
theorem Decodes.group (hv : b.Valid) (present : b.data ≠ none) (hd : dst = offset + acc.length)
    {s4 : Byte} {stored : List Byte} (room : offset + acc.length + 3 ≤ b.capacity)
    (later : Decodes asserts b (before ++ [s0, s1, s2, s3]) (s4 :: rest) offset (dst + 3)
      (acc ++ [joinFirst (decodeChar s0) (decodeChar s1), joinSecond (decodeChar s1) (decodeChar s2),
        joinThird (decodeChar s2) (decodeChar s3)]) stored) :
    Decodes asserts b before (s0 :: s1 :: s2 :: s3 :: s4 :: rest) offset dst acc
      (joinFirst (decodeChar s0) (decodeChar s1) :: joinSecond (decodeChar s1) (decodeChar s2) ::
        joinThird (decodeChar s2) (decodeChar s3) :: stored) := by
  have three := @decode4_stores b before (s4 :: rest) s0 s1 s2 s3 offset dst acc hv present hd room
  obtain ⟨bounded, value, touches⟩ := later
  constructor
  case bounded =>
    simp only [List.length_cons] at bounded ⊢
    omega
  case value =>
    simp only [List.length_cons, decodeLoop]
    rw [three, ok_bind]
    simpa [decodeExit, decodedBytes] using value
  case touches =>
    have total : before.length + (rest.length + 1 + 1 + 1 + 1 + 1) =
        (before ++ [s0, s1, s2, s3]).length + (s4 :: rest).length := by
      simp
      omega
    have count : stored.length + 1 + 1 + 1 = 2 + 1 + stored.length := by omega
    simp only [List.length_cons, decodeLoopLogged, Logged.bind_assoc]
    rw [total, count]
    refine .bind ((decode4Logged_value _ _ _ _).trans three)
      (decode4Logged_touches hv present hd room (by simp)) ?_
    simpa using touches

/-- The four characters that the loop leaves, of which the last two may be padding. -/
theorem decodes_four (hv : b.Valid) (present : b.data ≠ none) (hd : dst = offset + acc.length)
    (room : offset + acc.length + 5 ≤ b.capacity) :
    ∃ stored, Decodes asserts b before [s0, s1, s2, s3] offset dst acc stored := by
  have h2 : readByte (before ++ [s0, s1, s2, s3]) (before.length + 2) = .ok s2 :=
    readByte_append before _ 2
  have h3 : readByte (before ++ [s0, s1, s2, s3]) (before.length + 3) = .ok s3 :=
    readByte_append before _ 3
  by_cases whole : s3 ≠ pad
  · have hb : decodedBytes [s0, s1, s2, s3] = some [joinFirst (decodeChar s0) (decodeChar s1),
        joinSecond (decodeChar s1) (decodeChar s2), joinThird (decodeChar s2) (decodeChar s3)] := by
      rw [decodedBytes, if_pos whole]
    refine ⟨_, .of_some hv present hd (by simpa using room) hb ?_⟩
    show Touches (decodeTailLogged asserts (before ++ [s0, s1, s2, s3]) 4 before.length (b.written offset acc) dst).log
      _ _ (2 + 1)
    simp only [decodeTailLogged, loggedRead, h3, Logged.log_reading, if_pos whole]
    refine .read (by simp) ?_
    rw [Logged.log_bind_pure]
    exact decode4Logged_touches hv present hd (by omega) (by simp)
  · by_cases one : s2 ≠ pad
    · have hb : decodedBytes [s0, s1, s2, s3] = some [joinFirst (decodeChar s0) (decodeChar s1),
          joinSecond (decodeChar s1) (decodeChar s2)] := by
        rw [decodedBytes, if_neg whole, if_pos one]
      refine ⟨_, .of_some hv present hd (by simpa using room) hb ?_⟩
      show Touches (decodeTailLogged asserts (before ++ [s0, s1, s2, s3]) 4 before.length (b.written offset acc) dst).log
        _ _ (1 + 1)
      simp only [decodeTailLogged, loggedRead, h2, h3, Logged.log_reading, if_neg whole, if_pos one]
      refine .read (by simp) (.read (by simp) ?_)
      rw [Logged.log_bind_pure]
      exact decode3Logged_touches hv present hd (by omega) (by simp)
    · have hb : decodedBytes [s0, s1, s2, s3] = some [joinFirst (decodeChar s0) (decodeChar s1)] := by
        rw [decodedBytes, if_neg whole, if_neg one]
      refine ⟨_, .of_some hv present hd (by simpa using room) hb ?_⟩
      show Touches (decodeTailLogged asserts (before ++ [s0, s1, s2, s3]) 4 before.length (b.written offset acc) dst).log
        _ _ 1
      simp only [decodeTailLogged, loggedRead, h2, h3, Logged.log_reading, if_neg whole, if_neg one]
      refine .read (by simp) (.read (by simp) ?_)
      rw [Logged.log_bind_pure]
      exact decode2Logged_touches hv present hd (by omega) (by simp)

/-- No characters or a single one are left, and the switch takes its `default`. -/
theorem decodes_nothing {few : List Byte} (short : few = [] ∨ ∃ s0, few = [s0]) :
    Decodes asserts b before few offset dst acc [] := by
  rcases short with rfl | ⟨s0, rfl⟩
  · refine ⟨Nat.zero_le _, by simp [decodeLoop, decodeTail, decodeExit, decodedBytes, ok_bind], ?_⟩
    show Touches (Logged.lift (require _ _) >>= fun _ => pure (false, _)).log _ _ _
    rw [Logged.log_bind_pure]
    exact .nil
  · refine ⟨Nat.zero_le _, by simp [decodeLoop, decodeTail, decodeExit, decodedBytes, ok_bind], ?_⟩
    show Touches (Logged.lift (require _ _) >>= fun _ => pure (false, _)).log _ _ _
    rw [Logged.log_bind_pure]
    exact .nil

end Decoding

/-- The loop and the switch of `base64_decode` stay inside their blocks on every exit. -/
theorem decodeLogged_touches (asserts : Bool) (rest : List Byte) {b : Buffer} (hv : b.Valid) (present : b.data ≠ none)
    (before : List Byte) (offset dst : Nat) (acc : List Byte) (hd : dst = offset + acc.length)
    (room : offset + acc.length + (3 * (rest.length / 4) + 2) ≤ b.capacity) :
    ∃ stored, Decodes asserts b before rest offset dst acc stored := by
  -- The induction follows the groups of four that the loop takes.
  induction rest using decodedBytes.induct generalizing before acc dst with
  | case1 s0 s1 s2 s3 s4 rest ih =>
    simp only [List.length_cons] at room
    obtain ⟨stored, later⟩ := ih (before ++ [s0, s1, s2, s3]) (dst + 3)
      (acc ++ [joinFirst (decodeChar s0) (decodeChar s1), joinSecond (decodeChar s1) (decodeChar s2),
        joinThird (decodeChar s2) (decodeChar s3)]) (by simp; omega) (by simp; omega)
    exact ⟨_, later.group hv present hd (by omega)⟩
  | case2 | case3 | case4 => exact decodes_four hv present hd (by simpa using room)
  | case5 s0 s1 s2 =>
    have hb : decodedBytes [s0, s1, s2] = some [joinFirst (decodeChar s0) (decodeChar s1),
        joinSecond (decodeChar s1) (decodeChar s2)] := rfl
    refine ⟨_, .of_some hv present hd room hb ?_⟩
    show Touches (decodeTailLogged asserts (before ++ [s0, s1, s2]) 3 before.length (b.written offset acc) dst).log
      _ _ (1 + 1)
    rw [decodeTailLogged, Logged.log_bind_pure]
    exact decode3Logged_touches hv present hd (by simpa using room) (by simp)
  | case6 s0 s1 =>
    have hb : decodedBytes [s0, s1] = some [] := rfl
    exact ⟨[], .of_some hv present hd room hb .nil⟩
  | case7 text group four three two =>
    refine ⟨[], decodes_nothing ?_⟩
    rcases text with _ | ⟨s0, _ | ⟨s1, _ | ⟨s2, _ | ⟨s3, _ | ⟨s4, rest⟩⟩⟩⟩⟩
    · exact .inl rfl
    · exact .inr ⟨s0, rfl⟩
    · exact (two s0 s1 rfl).elim
    · exact (three s0 s1 s2 rfl).elim
    · exact (four s0 s1 s2 s3 rfl).elim
    · exact (group s0 s1 s2 s3 s4 rest rfl).elim

end Touches

theorem decodeExit_avoids (asserts : Bool) (text : List Byte) (b : Buffer) :
    Avoids (· = .outOfBounds) (decodeExit asserts text b) := by
  unfold decodeExit
  split
  · exact avoids_ok _
  · exact (avoids_require (by decide)).bind fun _ _ => avoids_ok _

theorem orThrow_avoids (n : Nat) (call : Option Nat × Buffer) : Avoids (· = .outOfBounds) (Buffer.orThrow n call) := by
  unfold Buffer.orThrow
  split
  · exact avoids_error (by decide)
  · exact avoids_ok _

/-- A run that touches no memory outside its blocks, and writes only into the region it has extended the
buffer by. -/
structure Confined (run : Logged Fault (Bool × Buffer)) (b : Buffer) (alloc : Bool) (length room count : Nat) :
    Prop where
  inside : Avoids (· = .outOfBounds) run.value
  touches : Touches run.log length b.size count
  fits : count ≤ room
  region : run.log = [] ∨ ∃ b', b.extend room alloc = (some b.size, b') ∧ b.size + room ≤ b'.capacity

theorem confined_nothing {run : Logged Fault (Bool × Buffer)} {b : Buffer} {alloc : Bool} {length room : Nat}
    (quiet : run.log = []) (inside : Avoids (· = .outOfBounds) run.value) : Confined run b alloc length room 0 :=
  ⟨inside, quiet ▸ .nil, Nat.zero_le _, .inl quiet⟩

/-- The region by which a buffer is extended lies behind its bytes. -/
theorem extend_region {b : Buffer} (hv : b.Valid) {room : Nat} (positive : 0 < room) (fits : b.size + room < 2 ^ 64)
    (alloc : Bool) :
    b.extend room alloc = (none, b) ∨ ∃ b', b.extend room alloc = (some b.size, b') ∧ b'.Valid ∧ b'.data ≠ none ∧
      b'.size = b.size ∧ b.size + room ≤ b'.capacity := by
  have extended : b.extended room = b.size + room := by
    rw [Buffer.extended, if_pos positive, sizeT_of_lt fits]
  rcases Buffer.extend_cases hv room alloc with refused | ⟨b', granted, grown⟩
  · exact .inl refused
  · rw [extended] at grown
    have capacity := grown.capacity hv
    exact .inr ⟨b', granted, grown.valid, grown.valid.present (by omega), grown.size, by omega⟩

theorem base64Decode_confined (asserts : Bool) {b : Buffer} (hv : b.Valid) (hb : b.size < 2 ^ 63) {text : List Byte}
    (ht : text.length < 2 ^ 63) (alloc : Nat → Bool) :
    ∃ count, Confined (base64DecodeLogged asserts b text alloc) b (alloc 0) text.length
      (base64DecodeGetSize text.length) count := by
  have size_eq := base64DecodeGetSize_eq (show text.length < 2 ^ 64 by omega)
  have positive : 0 < base64DecodeGetSize text.length := by omega
  rcases extend_region hv positive (show _ < 2 ^ 64 by omega) (alloc 0) with he | ⟨b', he, valid, present, -, capacity⟩
  · have run : base64DecodeLogged asserts b text alloc = ⟨.error .terminate, []⟩ := by
      unfold base64DecodeLogged
      dsimp only
      rw [if_neg (by omega), he, Buffer.orThrow, if_pos ⟨rfl, positive⟩]
      rfl
    exact ⟨0, confined_nothing (by rw [run]) (by rw [run]; exact avoids_error (by decide))⟩
  · obtain ⟨stored, bounded, value, touches⟩ := decodeLogged_touches asserts text valid present [] b.size b.size []
      rfl (by simp; omega)
    simp only [List.nil_append, List.length_nil, Buffer.written_nil present, Nat.zero_add] at value touches
    have run : base64DecodeLogged asserts b text alloc = (do
        let (length, src, b, dst) ← decodeLoopLogged text text.length 0 b' b.size
        decodeTailLogged asserts text length src b dst) >>= fun (accepted, left) =>
          if accepted then countInLogged left (base64DecodeGetSize text.length) (alloc 1) else pure (false, left) := by
      unfold base64DecodeLogged
      dsimp only
      rw [if_neg (by omega), he, Buffer.orThrow, if_neg (by simp)]
      exact (Logged.bind_assoc _ _ _).symm
    have log : (base64DecodeLogged asserts b text alloc).log = (do
        let (length, src, b, dst) ← decodeLoopLogged text text.length 0 b' b.size
        decodeTailLogged asserts text length src b dst).log := by
      rw [run]
      refine Logged.log_bind_quiet _ fun found => ?_
      dsimp only
      split
      · exact countInLogged_log _ _ _
      · rfl
    refine ⟨stored.length, ?_, log ▸ touches, by omega, .inr ⟨b', he, by omega⟩⟩
    rw [run, Logged.value_bind]
    refine .bind ?_ fun found _ => ?_
    · simp only [Logged.value_bind, decodeLoopLogged_value, decodeTailLogged_value]
      rw [value]
      exact decodeExit_avoids asserts text _
    · dsimp only
      rw [Logged.value_ite, countInLogged_value]
      split
      · exact (orThrow_avoids _ _).bind fun _ _ => avoids_ok _
      · exact avoids_ok _

theorem base64Encode_confined {b : Buffer} (hv : b.Valid) (hb : b.size < 2 ^ 63) {data : List Byte}
    (hd : data.length < 2 ^ 62) (alloc : Nat → Bool) :
    ∃ accepted b', (base64EncodeLogged b data alloc).value = .ok (accepted, b') ∧
      Confined (base64EncodeLogged b data alloc) b (alloc 0) data.length (base64EncodeGetLength data.length)
        (if accepted then base64EncodeGetLength data.length else 0) := by
  have length_eq := base64EncodeGetLength_eq (show data.length < 2 ^ 63 by omega)
  have length := encode_length data
  by_cases empty : base64EncodeGetLength data.length = 0
  · have run : base64EncodeLogged b data alloc = ⟨.ok (true, b), []⟩ := if_pos empty
    refine ⟨true, b, by rw [run], ?_⟩
    rw [if_pos rfl, empty]
    exact confined_nothing (by rw [run]) (by rw [run]; exact avoids_ok _)
  have positive : 0 < base64EncodeGetLength data.length := by omega
  rcases extend_region hv positive (show _ < 2 ^ 64 by omega) (alloc 0) with
    he | ⟨b', he, valid, present, size_eq, capacity⟩
  · have run : base64EncodeLogged b data alloc = ⟨.ok (false, b), []⟩ := by
      unfold base64EncodeLogged
      dsimp only
      rw [if_neg empty, he]
      rfl
    exact ⟨false, b, by rw [run], confined_nothing (by rw [run]) (by rw [run]; exact avoids_ok _)⟩
  · have stored := encode_stores data valid present [] b.size b.size [] rfl (by simp; omega)
    have touches := encodeLogged_touches data valid present [] b.size b.size [] rfl (by simp; omega)
    simp only [List.nil_append, List.length_nil, Buffer.written_nil present, Nat.zero_add] at stored touches
    have run : base64EncodeLogged b data alloc = (do
        let (size, src, b, dst) ← encodeLoopLogged data data.length 0 b' b.size
        encodeTailLogged data size src b dst) >>= fun left =>
          countInLogged left (base64EncodeGetLength data.length) (alloc 1) := by
      unfold base64EncodeLogged
      dsimp only
      rw [if_neg empty, he]
      exact (Logged.bind_assoc _ _ _).symm
    have log : (base64EncodeLogged b data alloc).log = (do
        let (size, src, b, dst) ← encodeLoopLogged data data.length 0 b' b.size
        encodeTailLogged data size src b dst).log := by
      rw [run]
      exact Logged.log_bind_quiet _ fun left => countInLogged_log left _ _
    have kept : (b'.written b.size (encode data)).size = b.size := size_eq
    have resized := @Buffer.resize_within (b'.written b.size (encode data)) (b.size + base64EncodeGetLength data.length)
      (alloc 1) (by show _ ≤ b'.capacity; omega)
    have value : (base64EncodeLogged b data alloc).value =
        .ok (true, { b'.written b.size (encode data) with size := b.size + base64EncodeGetLength data.length }) := by
      rw [run, Logged.value_bind]
      simp only [Logged.value_bind, encodeLoopLogged_value, encodeTailLogged_value, countInLogged_value]
      rw [stored, ok_bind, kept, sizeT_of_lt (by omega), resized]
      simp [Buffer.orThrow, Buffer.address, Buffer.written, ok_bind]
    refine ⟨true, _, value, ?_, ?_, by simp, .inr ⟨b', he, by omega⟩⟩
    · rw [value]
      exact avoids_ok _
    · rw [if_pos rfl, log, length_eq]
      exact touches

/-- The loops of `base64_decode` and `base64_encode` stay inside their blocks. No object is larger than
`PTRDIFF_MAX` bytes. -/
theorem base64_confined (asserts : Bool) {b : Buffer} (hv : b.Valid) (hb : b.size < 2 ^ 63) (data : List Byte)
    (alloc : Nat → Bool) :
    (data.length < 2 ^ 63 →
      (base64DecodeLogged asserts b data alloc).value = base64Decode asserts b data alloc ∧
        ∃ count, Confined (base64DecodeLogged asserts b data alloc) b (alloc 0) data.length
          (base64DecodeGetSize data.length) count) ∧
      (data.length < 2 ^ 62 →
        (base64EncodeLogged b data alloc).value = base64Encode b data alloc ∧
          ∃ accepted b', base64Encode b data alloc = .ok (accepted, b') ∧
            Confined (base64EncodeLogged b data alloc) b (alloc 0) data.length (base64EncodeGetLength data.length)
              (if accepted then base64EncodeGetLength data.length else 0)) := by
  refine ⟨fun small => ⟨base64DecodeLogged_value asserts b data alloc, base64Decode_confined asserts hv hb small alloc⟩,
    fun small => ⟨base64EncodeLogged_value b data alloc, ?_⟩⟩
  rw [← base64EncodeLogged_value]
  exact base64Encode_confined hv hb small alloc

/-- Two turns of the decoder's loop and of the encoder's, and a rest for the latter. -/
def eightBytes : List Byte := [0x51#8, 0x55#8, 0x4a#8, 0x44#8, 0x52#8, 0x45#8, 0x56#8, 0x47#8]

theorem base64_confined_eight :
    ((base64DecodeLogged false {} eightBytes fun _ => true).value = base64Decode false {} eightBytes (fun _ => true) ∧
      ∃ count, Confined (base64DecodeLogged false {} eightBytes fun _ => true) {} true 8 (base64DecodeGetSize 8) count) ∧
    ((base64EncodeLogged {} eightBytes fun _ => true).value = base64Encode {} eightBytes (fun _ => true) ∧
      ∃ accepted b', base64Encode {} eightBytes (fun _ => true) = .ok (accepted, b') ∧
        Confined (base64EncodeLogged {} eightBytes fun _ => true) {} true 8 (base64EncodeGetLength 8)
          (if accepted then base64EncodeGetLength 8 else 0)) :=
  have both := base64_confined false Buffer.valid_empty (by decide) eightBytes fun _ => true
  ⟨both.1 (by decide), both.2 (by decide)⟩

end Hlib
