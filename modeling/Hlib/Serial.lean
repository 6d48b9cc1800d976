import Hlib.ByteOrder
import Hlib.Sink
import Hlib.Source
import Hlib.StringNumber

namespace Hlib

open ByteOrder

namespace Serial

section Types

inductive Width
  | w8
  | w16
  | w32
  | w64
  deriving DecidableEq, Repr

abbrev Width.bits : Width → Nat
  | .w8 => 8
  | .w16 => 16
  | .w32 => 32
  | .w64 => 64

def Width.bytes : Width → Nat
  | .w8 => 1
  | .w16 => 2
  | .w32 => 4
  | .w64 => 8

inductive Integer
  | bool
  | int (signed : Bool) (width : Width)
  deriving DecidableEq, Repr

/-- The arithmetic types for which `transform` is specialised; an enumeration is sent like its
underlying type. -/
inductive Scalar
  | integer (kind : Integer)
  | float
  | double
  deriving DecidableEq, Repr

abbrev Integer.Value : Integer → Type
  | .bool => Bool
  | .int _ width => BitVec width.bits

/-- A floating point number is given by its bits. -/
abbrev Scalar.Value : Scalar → Type
  | .integer kind => kind.Value
  | .float => BitVec 32
  | .double => BitVec 64

def Scalar.sizeof : Scalar → Nat
  | .integer .bool => 1
  | .integer (.int _ width) => width.bytes
  | .float => 4
  | .double => 8

/-- The number that an integer stands for. -/
def Integer.toInt : (kind : Integer) → kind.Value → Int
  | .bool, value => if value then 1 else 0
  | .int true _, value => value.toInt
  | .int false _, value => value.toNat

/-- The conversion of a number to an integral type, modulo its range; `bool` tells it from zero. -/
def Integer.ofInt : (kind : Integer) → Int → kind.Value
  | .bool, n => n ≠ 0
  | .int _ width, n => BitVec.ofInt width.bits n

/-- The numbers that an integral type can represent. -/
def Integer.InRange : Integer → Int → Prop
  | .bool, n => n = 0 ∨ n = 1
  | .int true width, n => -2 ^ (width.bits - 1) ≤ n ∧ n < 2 ^ (width.bits - 1)
  | .int false width, n => 0 ≤ n ∧ n < 2 ^ width.bits

/-- The conversions from and to floating point types. -/
structure Floats where
  convert : (T U : Scalar) → T.Value → U.Value

/-- `static_cast<U>(value)`. -/
def cast (floats : Floats) : (T U : Scalar) → T.Value → U.Value
  | .integer kind, .integer kind', value => kind'.ofInt (kind.toInt value)
  | .float, .float, value => value
  | .double, .double, value => value
  | .integer kind, .float, value => floats.convert (.integer kind) .float value
  | .integer kind, .double, value => floats.convert (.integer kind) .double value
  | .float, .integer kind, value => floats.convert .float (.integer kind) value
  | .float, .double, value => floats.convert .float .double value
  | .double, .integer kind, value => floats.convert .double (.integer kind) value
  | .double, .float, value => floats.convert .double .float value

end Types

section Bytes

inductive Order
  | big
  | little
  deriving DecidableEq, Repr

/-- `ptr[i] = (uint8_t)(value >> shift)`, one shift after the other. -/
def shifted {w : Nat} (signed : Bool) (shifts : List Nat) (value : BitVec w) : List Byte :=
  shifts.map fun n => (if signed then value.sshiftRight n else value >>> n).setWidth 8

end Bytes

namespace Be

/-- The specialisations of `transform` for integers; 16 bits are promoted to `int`. -/
def transformInt : (signed : Bool) → (width : Width) → BitVec width.bits → List Byte
  | _, .w8, value => [value]
  | true, .w16, value => shifted true [8, 0] (value.signExtend 32)
  | true, .w32, value => shifted true [24, 16, 8, 0] value
  | true, .w64, value => shifted true [56, 48, 40, 32, 24, 16, 8, 0] value
  | false, .w16, value => shifted true [8, 0] (value.setWidth 32)
  | false, .w32, value => shifted false [24, 16, 8, 0] value
  | false, .w64, value => shifted false [56, 48, 40, 32, 24, 16, 8, 0] value

/-- The same in the other direction, from the bytes at `data`. -/
def transformIntFrom : (width : Width) → List Byte → BitVec width.bits
  | .w8, data => data.headD 0
  | .w16, data => (gather 32 [8, 0] data).setWidth 16
  | .w32, data => gather 32 [24, 16, 8, 0] data
  | .w64, data => gather 64 [56, 48, 40, 32, 24, 16, 8, 0] data

end Be

namespace Le

def transformInt : (signed : Bool) → (width : Width) → BitVec width.bits → List Byte
  | _, .w8, value => [value]
  | true, .w16, value => shifted true [0, 8] (value.signExtend 32)
  | true, .w32, value => shifted true [0, 8, 16, 24] value
  | true, .w64, value => shifted true [0, 8, 16, 24, 32, 40, 48, 56] value
  | false, .w16, value => shifted true [0, 8] (value.setWidth 32)
  | false, .w32, value => shifted false [0, 8, 16, 24] value
  | false, .w64, value => shifted false [0, 8, 16, 24, 32, 40, 48, 56] value

def transformIntFrom : (width : Width) → List Byte → BitVec width.bits
  | .w8, data => data.headD 0
  | .w16, data => (gather 32 [0, 8] data).setWidth 16
  | .w32, data => gather 32 [0, 8, 16, 24] data
  | .w64, data => gather 64 [0, 8, 16, 24, 32, 40, 48, 56] data

end Le

section Transform

def transformInt (order : Order) (signed : Bool) (width : Width) (value : BitVec width.bits) : List Byte :=
  match order with
  | .big => Be.transformInt signed width value
  | .little => Le.transformInt signed width value

def transformIntFrom (order : Order) (width : Width) (data : List Byte) : BitVec width.bits :=
  match order with
  | .big => Be.transformIntFrom width data
  | .little => Le.transformIntFrom width data

/-- `transform<U>(data, value)`, as the bytes it stores. -/
def transform (order : Order) : (U : Scalar) → U.Value → List Byte
  | .integer .bool, value => [if value then 1 else 0]
  | .integer (.int signed width), value => transformInt order signed width value
  | .float, value => transformInt order false .w32 value
  | .double, value => transformInt order false .w64 value

def transformFrom (order : Order) : (U : Scalar) → List Byte → U.Value
  | .integer .bool, data => data.headD 0 ≠ 0
  | .integer (.int _ width), data => transformIntFrom order width data
  | .float, data => transformIntFrom order .w32 data
  | .double, data => transformIntFrom order .w64 data

end Transform

section Fields

/-- A field with its value; a blob is anything with `data()` and `size()`. -/
inductive Field
  | value (T U : Scalar) (value : T.Value)
  | blob (data : List Byte)
  | cString (text : List Byte)

/-- What a `Deserializer` is told of a field. -/
inductive FieldType
  | value (T U : Scalar)
  | blob (size : Nat)
  | cString

def Field.type : Field → FieldType
  | .value T U _ => .value T U
  | .blob data => .blob data.length
  | .cString _ => .cString

end Fields

section Serializer

variable {D : Type} [SinkData D]

/-- `headroom()`. -/
def headroom (s : SinkAdapter D) : Checked Nat := do
  require (s.maximum ≠ 0) .assertion
  require (s.size ≤ s.maximum) .assertion
  .ok (s.maximum - s.size)

/-- `produce(data, size)`. -/
def produce (s : SinkAdapter D) (data : List Byte) (alloc : Bool) : Checked (SinkAdapter D) := do
  let (ptr, s) ← s.produce data.length alloc
  match ptr with
  | none => .ok s
  | some offset => s.store offset data

/-- `Serializer::transform`, in its three overloads. -/
def serialize (floats : Floats) (order : Order) (s : SinkAdapter D) (alloc : Bool) :
    Field → Checked (SinkAdapter D)
  | .value T U value => do
    let room ← headroom s
    require (U.sizeof ≤ room) .assertion
    let (ptr, s) ← s.produce U.sizeof alloc
    match ptr with
    | none => .error .outOfBounds
    | some offset => s.store offset (transform order U (cast floats T U value))
  | .blob data => do
    let room ← headroom s
    require (data.length ≤ room) .assertion
    produce s data alloc
  | .cString text => do
    let room ← headroom s
    require ((Hlib.cString text).length + 1 ≤ room) .assertion
    produce s (Hlib.cString text ++ [0]) alloc

/-- One field after the other; `alloc` answers the sink when it asks for memory. -/
def serializeAll (floats : Floats) (order : Order) (alloc : Nat → Bool) (s : SinkAdapter D) :
    List Field → Checked (SinkAdapter D)
  | [] => .ok s
  | field :: fields => do
    let s ← serialize floats order s (alloc fields.length) field
    serializeAll floats order alloc s fields

end Serializer

section Deserializer

/-- `assert(size <= m_source.available())`, where assertions are compiled in. -/
def assertAvailable (asserts : Bool) (source : Source) (size : Nat) : Checked Unit :=
  if asserts then do
    let available ← source.available
    require (size ≤ available) .assertion
  else .ok ()

/-- The loop that looks for the terminator; `fuel` is more than the bytes that are left. -/
def scan (asserts : Bool) : Nat → Source → Checked Source
  | 0, _ => .error .outOfBounds
  | fuel + 1, source => do
    let (data, source) ← source.consume 1
    if data = [0] then return source
    assertAvailable asserts source 1
    scan asserts fuel source

/-- `Deserializer::transform`, in its three overloads, into a value of its own. -/
def deserialize (floats : Floats) (order : Order) (asserts : Bool) (source : Source) :
    FieldType → Checked (Field × Source)
  | .value T U => do
    assertAvailable asserts source T.sizeof
    let (data, source) ← source.consume U.sizeof
    return (.value T U (cast floats U T (transformFrom order U data)), source)
  | .blob size => do
    assertAvailable asserts source size
    let (data, source) ← source.consume size
    return (.blob data, source)
  | .cString => do
    assertAvailable asserts source 1
    let _ ← source.peek 1
    let rest ← scan asserts (source.remaining.length + 1) source
    return (.cString (Hlib.cString source.remaining), rest)

def deserializeAll (floats : Floats) (order : Order) (asserts : Bool) (source : Source) :
    List FieldType → Checked (List Field × Source)
  | [] => .ok ([], source)
  | type :: types => do
    let (field, source) ← deserialize floats order asserts source type
    let (fields, source) ← deserializeAll floats order asserts source types
    return (field :: fields, source)

end Deserializer

end Serial

end Hlib
