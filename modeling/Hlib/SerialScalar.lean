import Hlib.Serial

namespace Hlib

open ByteOrder

namespace Serial

section Shifts

variable {w : Nat}

theorem shifted_logical (value : BitVec w) (n : Nat) :
    shifted false ((places n).reverse) value = bigEndian n value ∧
      shifted false (places n) value = littleEndian n value := by
  have little : shifted false (places n) value = littleEndian n value := by
    unfold shifted places littleEndian
    rw [List.map_map]
    apply List.map_congr_left
    intro k _
    exact byteAt_ushiftRight k value
  refine ⟨?_, little⟩
  rw [bigEndian, ← little, shifted, shifted, List.map_reverse]

theorem shifted_arithmetic (value : BitVec w) {n : Nat} (h : 8 * n ≤ w) :
    shifted true ((places n).reverse) value = bigEndian n value ∧
      shifted true (places n) value = littleEndian n value := by
  have little : shifted true (places n) value = littleEndian n value := by
    unfold shifted places littleEndian
    rw [List.map_map]
    apply List.map_congr_left
    intro k hk
    have below := List.mem_range.mp hk
    exact byteAt_sshiftRight (by omega) value
  refine ⟨?_, little⟩
  rw [bigEndian, ← little, shifted, shifted, List.map_reverse]

/-- A value of 16 bits has the bytes of the `int` it is promoted to. -/
theorem littleEndian_promoted (value : BitVec 16) :
    littleEndian 2 (value.signExtend 32) = littleEndian 2 value ∧
      littleEndian 2 (value.setWidth 32) = littleEndian 2 value := by
  constructor
  · apply List.map_congr_left
    intro k hk
    have below := List.mem_range.mp hk
    exact byteAt_signExtend (by omega) (by omega) value
  · apply List.map_congr_left
    intro k hk
    have below := List.mem_range.mp hk
    exact byteAt_setWidth (by omega) value

theorem littleEndian_byte (value : BitVec 8) : littleEndian 1 value = [value] := by
  have whole : byteAt 0 value = value := BitVec.extractLsb'_eq_self
  change [byteAt 0 value] = [value]
  rw [whole]

end Shifts

section Integers

/-- The specialisations of both byte orders store the bytes of the value. -/
theorem transformInt_little (signed : Bool) (width : Width) (value : BitVec width.bits) :
    Le.transformInt signed width value = littleEndian width.bytes value := by
  cases width with
  | w8 =>
    rw [show Le.transformInt signed .w8 value = [value] by cases signed <;> rfl]
    exact (littleEndian_byte value).symm
  | w16 =>
    cases signed with
    | true => exact (shifted_arithmetic (n := 2) _ (by omega)).2.trans (littleEndian_promoted value).1
    | false => exact (shifted_arithmetic (n := 2) _ (by omega)).2.trans (littleEndian_promoted value).2
  | w32 =>
    cases signed with
    | true => exact (shifted_arithmetic (n := 4) value (Nat.le_refl 32)).2
    | false => exact (shifted_logical value 4).2
  | w64 =>
    cases signed with
    | true => exact (shifted_arithmetic (n := 8) value (Nat.le_refl 64)).2
    | false => exact (shifted_logical value 8).2

/-- The little-endian bytes are the big-endian ones reversed. -/
theorem transformInt_reverse (signed : Bool) (width : Width) (value : BitVec width.bits) :
    Le.transformInt signed width value = (Be.transformInt signed width value).reverse := by
  cases width <;> cases signed <;> rfl

theorem transformInt_big (signed : Bool) (width : Width) (value : BitVec width.bits) :
    Be.transformInt signed width value = bigEndian width.bytes value := by
  rw [bigEndian, ← transformInt_little signed, transformInt_reverse, List.reverse_reverse]

theorem transformInt_length (order : Order) (signed : Bool) (width : Width) (value : BitVec width.bits) :
    (transformInt order signed width value).length = width.bytes := by
  cases order with
  | big => exact (congrArg List.length (transformInt_big signed width value)).trans (bigEndian_length _ _)
  | little =>
    exact (congrArg List.length (transformInt_little signed width value)).trans (littleEndian_length _ _)

theorem transformIntFrom_little (width : Width) (value : BitVec width.bits) :
    Le.transformIntFrom width (littleEndian width.bytes value) = value := by
  cases width with
  | w8 => exact congrArg (List.headD · 0) (littleEndian_byte value)
  | w16 =>
    change (gather 32 (places 2) (littleEndian 2 value)).setWidth 16 = value
    rw [gather_setWidth (by omega), gather_littleEndian (by omega)]
  | w32 => exact gather_littleEndian (n := 4) rfl value
  | w64 => exact gather_littleEndian (n := 8) rfl value

theorem transformIntFrom_big (width : Width) (value : BitVec width.bits) :
    Be.transformIntFrom width (bigEndian width.bytes value) = value := by
  cases width with
  | w8 => exact congrArg (fun bytes => List.headD (List.reverse bytes) 0) (littleEndian_byte value)
  | w16 =>
    change (gather 32 (places 2).reverse (bigEndian 2 value)).setWidth 16 = value
    rw [gather_setWidth (by omega), gather_bigEndian (by omega)]
  | w32 => exact gather_bigEndian (n := 4) rfl value
  | w64 => exact gather_bigEndian (n := 8) rfl value

theorem transformIntFrom_transformInt (order : Order) (signed : Bool) (width : Width)
    (value : BitVec width.bits) :
    transformIntFrom order width (transformInt order signed width value) = value := by
  cases order with
  | big =>
    change Be.transformIntFrom width (Be.transformInt signed width value) = value
    rw [transformInt_big, transformIntFrom_big]
  | little =>
    change Le.transformIntFrom width (Le.transformInt signed width value) = value
    rw [transformInt_little, transformIntFrom_little]

end Integers

section Scalars

theorem transform_length (order : Order) (U : Scalar) (value : U.Value) :
    (transform order U value).length = U.sizeof := by
  cases U with
  | integer kind =>
    cases kind with
    | bool => rfl
    | int signed width => exact transformInt_length order signed width value
  | float => exact transformInt_length order false .w32 value
  | double => exact transformInt_length order false .w64 value

theorem transformFrom_transform (order : Order) (U : Scalar) (value : U.Value) :
    transformFrom order U (transform order U value) = value := by
  cases U with
  | integer kind =>
    cases kind with
    | bool =>
      cases value with
      | true => rfl
      | false => rfl
    | int signed width => exact transformIntFrom_transformInt order signed width value
  | float => exact transformIntFrom_transformInt order false .w32 value
  | double => exact transformIntFrom_transformInt order false .w64 value

theorem sizeof_pos (U : Scalar) : 0 < U.sizeof := by
  cases U with
  | integer kind =>
    cases kind with
    | bool => exact Nat.one_pos
    | int _ width =>
      change 0 < width.bytes
      cases width <;> decide
  | float => decide
  | double => decide

end Scalars

section Conversions

theorem ofInt_toInt (kind : Integer) (value : kind.Value) : kind.ofInt (kind.toInt value) = value := by
  cases kind with
  | bool =>
    cases value with
    | true => rfl
    | false => rfl
  | int signed width =>
    cases signed with
    | true => exact BitVec.ofInt_toInt
    | false =>
      change BitVec.ofInt width.bits (value.toNat : Int) = value
      rw [BitVec.ofInt_natCast, BitVec.ofNat_toNat, BitVec.setWidth_eq]

theorem toInt_ofInt {kind : Integer} {n : Int} (h : kind.InRange n) : kind.toInt (kind.ofInt n) = n := by
  cases kind with
  | bool =>
    rcases h with rfl | rfl
    · rfl
    · rfl
  | int signed width =>
    have positive : 0 < width.bits := by cases width <;> decide
    cases signed with
    | true => exact BitVec.toInt_ofInt_eq_self positive h.1 h.2
    | false =>
      obtain ⟨low, high⟩ := h
      change ((BitVec.ofInt width.bits n).toNat : Int) = n
      rw [BitVec.toNat_ofInt, Int.emod_eq_of_lt low (by exact_mod_cast high), Int.toNat_of_nonneg low]

/-- `U` can represent the value; where a floating point type is involved, this is said by the
conversions. -/
def Represents (floats : Floats) : (T U : Scalar) → T.Value → Prop
  | .integer kind, .integer kind', value => kind'.InRange (kind.toInt value)
  | T, U, value => cast floats U T (cast floats T U value) = value

theorem cast_cast {floats : Floats} {T U : Scalar} {value : T.Value} (h : Represents floats T U value) :
    cast floats U T (cast floats T U value) = value := by
  cases T with
  | integer kind =>
    cases U with
    | integer kind' =>
      change kind.ofInt (kind'.toInt (kind'.ofInt (kind.toInt value))) = value
      rw [toInt_ofInt h, ofInt_toInt]
    | float => exact h
    | double => exact h
  | float => cases U <;> exact h
  | double => cases U <;> exact h

end Conversions

end Serial

end Hlib
