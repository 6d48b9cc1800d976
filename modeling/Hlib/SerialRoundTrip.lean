import Hlib.SerialScalar

namespace Hlib

open Overwrite

namespace Serial

variable {floats : Floats} {order : Order}

section Written

/-- The bytes of a field. -/
def encode (floats : Floats) (order : Order) : Field → List Byte
  | .value T U value => transform order U (cast floats T U value)
  | .blob data => data
  | .cString text => Hlib.cString text ++ [0]

def encodeAll (floats : Floats) (order : Order) (fields : List Field) : List Byte :=
  fields.flatMap (encode floats order)

def Field.length : Field → Nat
  | .value _ U _ => U.sizeof
  | .blob data => data.length
  | .cString text => (Hlib.cString text).length + 1

theorem encode_length (field : Field) : (encode floats order field).length = field.length := by
  cases field with
  | value T U value => exact transform_length order U _
  | blob data => rfl
  | cString text => exact List.length_append

def total (fields : List Field) : Nat := (fields.map Field.length).sum

theorem encodeAll_length (fields : List Field) : (encodeAll floats order fields).length = total fields := by
  unfold encodeAll total
  rw [List.length_flatMap]
  congr 2
  funext field
  exact encode_length field

variable {D : Type} [SinkData D]

/-- The data of a sink refuses to grow to `n` bytes. -/
def Refused (s : SinkAdapter D) (alloc : Bool) (n : Nat) : Prop :=
  SinkData.resize s.data n alloc = .error .terminate

theorem produce_cases {s : SinkAdapter D} {n : Nat} (room : s.size + n ≤ s.maximum) (alloc : Bool) :
    (∃ ptr s', s.produce n alloc = .ok (ptr, s')) ∨
      s.produce n alloc = .error .terminate ∧ Refused s alloc (s.size + n) := by
  have allowed : s.maximum = 0 ∨ s.size + n ≤ s.maximum := Or.inr room
  unfold SinkAdapter.produce
  rw [require_of allowed, ok_bind]
  unfold SinkAdapter.resize
  cases hd : SinkData.resize s.data (s.size + n) alloc with
  | ok data => exact Or.inl ⟨_, _, rfl⟩
  | error fault =>
    cases SinkData.resize_fault hd
    exact Or.inr ⟨rfl, hd⟩

/-- The bytes stored where a sink has made room for them stand behind what it held. -/
theorem store_produced {s s' : SinkAdapter D} {bytes : List Byte} {alloc : Bool} {offset : Nat}
    (h : s.produce bytes.length alloc = .ok (some offset, s')) :
    ∃ t, s'.store offset bytes = .ok t ∧ t.maximum = s.maximum ∧
      t.contents = s.contents ++ bytes.map some := by
  obtain ⟨_, maximum, ⟨junk, contents, length⟩, ptr⟩ := SinkAdapter.produce_ok h
  obtain rfl : offset = s.size := by
    rcases ptr with ⟨null, _⟩ | here
    · cases null
    · exact Option.some.inj here
  have size : s'.size = s.size + bytes.length := by
    rw [SinkAdapter.size, contents, List.length_append, length]
    rfl
  have room : s.size + bytes.length ≤ s'.size := Nat.le_of_eq size.symm
  obtain ⟨t, stored, kept, after⟩ := SinkAdapter.store_within room
  refine ⟨t, stored, kept.trans maximum, ?_⟩
  rw [after, contents]
  exact overwrite_last (by rw [length, List.length_map])

/-- A null pointer is given only where there is nothing to store. -/
theorem produced_null {s s' : SinkAdapter D} {n : Nat} {alloc : Bool}
    (h : s.produce n alloc = .ok (none, s')) : n = 0 ∧ s'.contents = s.contents ∧ s'.maximum = s.maximum := by
  obtain ⟨_, maximum, ⟨junk, contents, length⟩, ptr⟩ := SinkAdapter.produce_ok h
  rcases ptr with ⟨_, empty⟩ | here
  · rw [empty] at contents
    obtain ⟨front, rest⟩ := List.append_eq_nil_iff.mp contents.symm
    rw [rest] at length
    exact ⟨length.symm, by rw [empty, front], maximum⟩
  · cases here

theorem produce_bytes_cases {s : SinkAdapter D} {bytes : List Byte}
    (room : s.size + bytes.length ≤ s.maximum) (alloc : Bool) :
    (∃ t, produce s bytes alloc = .ok t ∧ t.maximum = s.maximum ∧
        t.contents = s.contents ++ bytes.map some) ∨
      produce s bytes alloc = .error .terminate ∧ Refused s alloc (s.size + bytes.length) := by
  unfold produce
  rcases produce_cases room alloc with ⟨ptr, s', made⟩ | ⟨failed, refused⟩
  · left
    rw [made, ok_bind]
    cases ptr with
    | none =>
      obtain ⟨nothing, kept, maximum⟩ := produced_null made
      refine ⟨s', rfl, maximum, ?_⟩
      rw [kept, List.length_eq_zero_iff.mp nothing, List.map_nil, List.append_nil]
    | some offset => exact store_produced made
  · right
    rw [failed]
    exact ⟨rfl, refused⟩

theorem headroom_ok {s : SinkAdapter D} (bounded : s.maximum ≠ 0) (room : s.size ≤ s.maximum) :
    headroom s = .ok (s.maximum - s.size) := by
  unfold headroom
  rw [require_of bounded, ok_bind, require_of room, ok_bind]

/-- A field goes into a bounded sink with room for it, unless memory is refused. -/
theorem serialize_cases {s : SinkAdapter D} (bounded : s.maximum ≠ 0) {field : Field}
    (room : s.size + field.length ≤ s.maximum) (alloc : Bool) :
    (∃ t, serialize floats order s alloc field = .ok t ∧ t.maximum = s.maximum ∧
        t.contents = s.contents ++ (encode floats order field).map some) ∨
      serialize floats order s alloc field = .error .terminate ∧
        Refused s alloc (s.size + field.length) := by
  have space := headroom_ok bounded (by omega)
  unfold serialize
  cases field with
  | value T U value =>
    change s.size + U.sizeof ≤ s.maximum at room
    have fits : U.sizeof ≤ s.maximum - s.size := by omega
    dsimp only
    rw [space, ok_bind, require_of fits, ok_bind]
    rcases produce_cases room alloc with ⟨ptr, s', made⟩ | ⟨failed, refused⟩
    · left
      rw [made, ok_bind]
      cases ptr with
      | none =>
        have positive := sizeof_pos U
        have nothing := (produced_null made).1
        omega
      | some offset =>
        have length := transform_length order U (cast floats T U value)
        rw [← length] at made
        exact store_produced made
    · right
      rw [failed]
      exact ⟨rfl, refused⟩
  | blob data =>
    change s.size + data.length ≤ s.maximum at room
    have fits : data.length ≤ s.maximum - s.size := by omega
    dsimp only
    rw [space, ok_bind, require_of fits, ok_bind]
    exact produce_bytes_cases room alloc
  | cString text =>
    change s.size + ((Hlib.cString text).length + 1) ≤ s.maximum at room
    have fits : (Hlib.cString text).length + 1 ≤ s.maximum - s.size := by omega
    have length : (Hlib.cString text ++ [0]).length = (Hlib.cString text).length + 1 := List.length_append
    dsimp only
    rw [space, ok_bind, require_of fits, ok_bind]
    rw [← length] at room
    have produced := produce_bytes_cases room alloc
    rw [length] at produced
    exact produced

/-- A list of fields goes into a bounded sink with room for it, unless memory is refused on the way. -/
theorem serializeAll_cases (alloc : Nat → Bool) (fields : List Field) {s : SinkAdapter D}
    (bounded : s.maximum ≠ 0) (room : s.size + total fields ≤ s.maximum) :
    (∃ t, serializeAll floats order alloc s fields = .ok t ∧
        t.contents = s.contents ++ (encodeAll floats order fields).map some) ∨
      serializeAll floats order alloc s fields = .error .terminate ∧
        ∃ (t : SinkAdapter D) (i n : Nat), n ≤ s.maximum ∧ Refused t (alloc i) n := by
  induction fields generalizing s with
  | nil => exact Or.inl ⟨s, rfl, (List.append_nil _).symm⟩
  | cons field fields ih =>
    have split : total (field :: fields) = field.length + total fields := List.sum_cons
    rw [split] at room
    have first : s.size + field.length ≤ s.maximum := by omega
    have step := @serialize_cases floats order D _ s bounded field first (alloc fields.length)
    unfold serializeAll
    rcases step with
      ⟨t, written, maximum, contents⟩ | ⟨failed, refused⟩
    · have size : t.size = s.size + field.length := by
        rw [SinkAdapter.size, contents, List.length_append, List.length_map, encode_length]
        rfl
      rw [written, ok_bind]
      rcases ih (maximum ▸ bounded) (by omega : t.size + total fields ≤ t.maximum) with
        ⟨u, rest, after⟩ | ⟨failed, u, i, n, within, refused⟩
      · left
        refine ⟨u, rest, ?_⟩
        rw [after, contents, List.append_assoc, ← List.map_append]
        rfl
      · exact Or.inr ⟨failed, u, i, n, maximum ▸ within, refused⟩
    · right
      rw [failed]
      exact ⟨rfl, s, _, _, by omega, refused⟩

end Written

section Read

/-- What is read back for a field. -/
def Field.readBack (floats : Floats) : Field → Field
  | .value T U x => .value T U (cast floats U T (cast floats T U x))
  | .blob data => .blob data
  | .cString text => .cString (Hlib.cString text)

/-- The check of the type `T` holds, with `behind` bytes behind the field. -/
def Field.Fits (behind : Nat) : Field → Prop
  | .value T U _ => T.sizeof ≤ U.sizeof + behind
  | _ => True

/-- The check holds at every field of the list. -/
def Room : List Field → Prop
  | [] => True
  | field :: fields => field.Fits (total fields) ∧ Room fields

variable {asserts : Bool} {source : Source}

theorem assertAvailable_ok (valid : source.Valid) {n : Nat} (h : asserts = true → n ≤ source.remaining.length) :
    assertAvailable asserts source n = .ok () := by
  cases asserts with
  | false => rfl
  | true =>
    have room : n ≤ source.size - source.progress := by
      rw [← Source.remaining_length]
      exact h rfl
    have within : source.progress ≤ source.size := valid
    unfold assertAvailable Source.available
    rw [if_pos rfl, require_of within, ok_bind, ok_bind, require_of room]

theorem assertAvailable_fails (valid : source.Valid) {n : Nat} (h : source.remaining.length < n) :
    assertAvailable true source n = .error .assertion := by
  have short : ¬n ≤ source.size - source.progress := by
    rw [← Source.remaining_length]
    omega
  have within : source.progress ≤ source.size := valid
  unfold assertAvailable Source.available
  rw [if_pos rfl, require_of within, ok_bind, ok_bind]
  exact if_neg short

theorem consume_front (valid : source.Valid) {front rest : List Byte} (h : source.remaining = front ++ rest) :
    source.consume front.length = .ok (front, { source with progress := source.progress + front.length }) := by
  have room : front.length ≤ source.remaining.length := by
    rw [h, List.length_append]
    omega
  rw [Source.consume_of_le valid room, h, List.take_left]

/-- The source behind bytes that were read. -/
theorem behind_front (valid : source.Valid) {front rest : List Byte} (h : source.remaining = front ++ rest) :
    ({ source with progress := source.progress + front.length } : Source).Valid ∧
      ({ source with progress := source.progress + front.length } : Source).remaining = rest := by
  have room : front.length ≤ source.remaining.length := by
    rw [h, List.length_append]
    omega
  refine ⟨Source.valid_advance valid room, ?_⟩
  rw [Source.remaining_advance, h, List.drop_left]

/-- The loop ends behind the terminator, and none of its checks fails. -/
theorem scan_text (asserts : Bool) {source : Source} {text rest : List Byte} (inside : 0 ∉ text) (valid : source.Valid)
    (h : source.remaining = text ++ 0 :: rest) {fuel : Nat} (enough : text.length < fuel) :
    scan asserts fuel source = .ok { source with progress := source.progress + (text.length + 1) } := by
  induction text generalizing source fuel with
  | nil =>
    obtain ⟨fuel, rfl⟩ := Nat.exists_eq_add_of_lt enough
    have one : source.remaining = [0] ++ rest := h
    have read := consume_front valid one
    change source.consume 1 = _ at read
    unfold scan
    rw [read, ok_bind]
    rfl
  | cons byte text ih =>
    obtain ⟨fuel, rfl⟩ : ∃ n, fuel = n + 1 := ⟨fuel - 1, by rw [List.length_cons] at enough; omega⟩
    rw [List.mem_cons, not_or] at inside
    have one : source.remaining = [byte] ++ (text ++ 0 :: rest) := h
    have read := consume_front valid one
    change source.consume 1 = _ at read
    obtain ⟨valid', remaining'⟩ := behind_front valid one
    have differs : ¬[byte] = [0] := by
      intro same
      exact inside.1 (List.singleton_inj.mp same).symm
    have left_over : asserts = true →
        1 ≤ ({ source with progress := source.progress + 1 } : Source).remaining.length := by
      intro _
      rw [show ({ source with progress := source.progress + 1 } : Source).remaining = text ++ 0 :: rest
        from remaining', List.length_append, List.length_cons]
      omega
    have shorter : text.length < fuel := by
      rw [List.length_cons] at enough
      omega
    have next := ih inside.2 valid' remaining' shorter
    unfold scan
    rw [read, ok_bind]
    dsimp only
    rw [if_neg differs, assertAvailable_ok valid' left_over, ok_bind]
    refine next.trans ?_
    have sum : source.progress + 1 + (text.length + 1) = source.progress + (text.length + 1 + 1) := by omega
    exact congrArg (fun n => Except.ok { source with progress := n }) sum

/-- A field is read back from its bytes, if its check holds or is not compiled in. -/
theorem deserialize_encode (valid : source.Valid) {field : Field} {rest : List Byte}
    (h : source.remaining = encode floats order field ++ rest)
    (fits : asserts = true → field.Fits rest.length) :
    deserialize floats order asserts source field.type =
      .ok (field.readBack floats, { source with progress := source.progress + field.length }) := by
  have length := congrArg List.length h
  rw [List.length_append, encode_length] at length
  unfold deserialize
  cases field with
  | value T U x =>
    have read := consume_front valid h
    have size : (encode floats order (.value T U x)).length = U.sizeof := transform_length order U _
    rw [size] at read
    have available : asserts = true → T.sizeof ≤ source.remaining.length := by
      intro ha
      have checked : T.sizeof ≤ U.sizeof + rest.length := fits ha
      rw [length]
      exact checked
    change (assertAvailable asserts source T.sizeof >>= fun _ => source.consume U.sizeof >>= _) = _
    rw [assertAvailable_ok valid available, ok_bind, read, ok_bind]
    have restored : transformFrom order U (encode floats order (.value T U x)) = cast floats T U x :=
      transformFrom_transform order U _
    change Except.ok (Field.value T U (cast floats U T (transformFrom order U (encode floats order _))), _) = _
    rw [restored]
    rfl
  | blob data =>
    have read := consume_front valid h
    change source.consume data.length = _ at read
    have available : asserts = true → data.length ≤ source.remaining.length := by
      intro _
      rw [length]
      exact Nat.le_add_right _ _
    change (assertAvailable asserts source data.length >>= fun _ => source.consume data.length >>= _) = _
    rw [assertAvailable_ok valid available, ok_bind, read, ok_bind]
    rfl
  | cString text =>
    have inside := zero_not_mem_cString text
    have front : source.remaining = Hlib.cString text ++ 0 :: rest := by
      rw [h]
      exact List.append_assoc _ _ _
    change source.remaining.length = (Hlib.cString text).length + 1 + rest.length at length
    have available : 1 ≤ source.remaining.length := by omega
    have within : source.progress + 1 ≤ source.size := by
      rw [Source.remaining_length] at available
      omega
    have found := scan_text asserts inside valid front
      (by omega : (Hlib.cString text).length < source.remaining.length + 1)
    change (assertAvailable asserts source 1 >>= fun _ => source.peek 1 >>= fun _ =>
      scan asserts (source.remaining.length + 1) source >>= _) = _
    rw [assertAvailable_ok valid fun _ => available, ok_bind, Source.peek, require_of within, ok_bind, ok_bind,
      found, ok_bind, front, cString_terminated inside]
    rfl

theorem deserializeAll_encode {fields : List Field} (valid : source.Valid)
    (h : source.remaining = encodeAll floats order fields) (room : asserts = true → Room fields) :
    deserializeAll floats order asserts source (fields.map Field.type) =
      .ok (fields.map (Field.readBack floats), { source with progress := source.progress + total fields }) := by
  induction fields generalizing source with
  | nil => rfl
  | cons field fields ih =>
    have front : source.remaining = encode floats order field ++ encodeAll floats order fields := h
    have behind := behind_front valid front
    rw [encode_length] at behind
    have fits : asserts = true → field.Fits (encodeAll floats order fields).length := by
      intro ha
      rw [encodeAll_length]
      exact (room ha).1
    have first := deserialize_encode valid front fits
    have others := ih behind.1 behind.2 fun ha => (room ha).2
    rw [List.map_cons, deserializeAll, first, ok_bind]
    dsimp only
    rw [others, ok_bind]
    have sum : source.progress + total (field :: fields) = source.progress + field.length + total fields :=
      (Nat.add_assoc _ _ _).symm
    rw [sum]
    rfl

end Read

section RoundTrip

/-- A field whose value comes through: `U` can represent it, and a C string has no terminator inside. -/
def Field.Sound (floats : Floats) : Field → Prop
  | .value T U x => Represents floats T U x
  | .blob _ => True
  | .cString text => 0 ∉ text

theorem readBack_sound {field : Field} (h : field.Sound floats) : field.readBack floats = field := by
  cases field with
  | value T U x => exact congrArg (Field.value T U) (cast_cast h)
  | blob data => rfl
  | cString text =>
    exact congrArg Field.cString (cString_eq.mpr h)

/-- Fields that are written into a bounded sink with room for them, unless memory is refused, are read
back from their bytes, and the reader ends behind the last of these. -/
theorem deserialize_serialize {D : Type} [SinkData D] (floats : Floats) (order : Order)
    (alloc : Nat → Bool) {fields : List Field} (sound : ∀ field ∈ fields, field.Sound floats)
    {s : SinkAdapter D} (bounded : s.maximum ≠ 0) (room : s.size + total fields ≤ s.maximum) :
    ((∃ t, serializeAll floats order alloc s fields = .ok t ∧
          t.contents = s.contents ++ (encodeAll floats order fields).map some) ∨
        serializeAll floats order alloc s fields = .error .terminate ∧
          ∃ (t : SinkAdapter D) (i n : Nat), n ≤ s.maximum ∧ Refused t (alloc i) n) ∧
      deserializeAll floats order false { data := encodeAll floats order fields } (fields.map Field.type) =
        .ok (fields, { data := encodeAll floats order fields,
                       progress := (encodeAll floats order fields).length }) ∧
      ∀ (signed : Bool) (width : Width) (value : BitVec width.bits),
        transformInt .little signed width value = (transformInt .big signed width value).reverse := by
  refine ⟨serializeAll_cases alloc fields bounded room, ?_, transformInt_reverse⟩
  have valid : ({ data := encodeAll floats order fields } : Source).Valid := Nat.zero_le _
  have read := @deserializeAll_encode floats order false _ fields valid rfl nofun
  have same : fields.map (Field.readBack floats) = fields :=
    List.map_congr_left (fun field hf => readBack_sound (sound field hf)) |>.trans (List.map_id fields)
  rw [read, same, Nat.zero_add, encodeAll_length]

/-- Conversions that the sample does not use. -/
def noFloats : Floats where
  convert _ U _ := match U with
    | .integer .bool => false
    | .integer (.int _ _) => 0
    | .float => 0
    | .double => 0

def sampleFields : List Field :=
  [.value (.integer (.int true .w32)) (.integer (.int true .w8)) (-5), .blob [1, 2], .cString [97, 98]]

theorem deserialize_serialize_sample :
    encodeAll noFloats .big sampleFields = [251, 1, 2, 97, 98, 0] ∧
      deserializeAll noFloats .big false { data := [251, 1, 2, 97, 98, 0] } (sampleFields.map Field.type) =
        .ok (sampleFields, { data := [251, 1, 2, 97, 98, 0], progress := 6 }) := by
  have sound : ∀ field ∈ sampleFields, field.Sound noFloats := by
    intro field hf
    rcases List.mem_cons.mp hf with rfl | hf
    · constructor
      · decide
      · decide
    · rcases List.mem_cons.mp hf with rfl | hf
      · exact trivial
      · obtain rfl := List.mem_singleton.mp hf
        change (0 : Byte) ∉ [97, 98]
        decide
  let sink : SinkAdapter StringData := { maximum := 8, data := [] }
  have written := deserialize_serialize noFloats .big (fun _ => true) sound
    (s := sink) (by decide) (by decide)
  exact ⟨by decide, written.2.1⟩

end RoundTrip

end Serial

end Hlib
