import TensorInference.ElementType

/-!
# Scalars

A single value of any concrete element type.  The two half-precision types and the one-bit type
have no arithmetic here, so their values are kept as bits.
-/

namespace TensorInference

/-- A value of a concrete element type. -/
inductive Scalar where
  | boolean (value : Bool)
  | bf16 (bits : UInt16)
  | f16 (bits : UInt16)
  | f32 (value : Float32)
  | f64 (value : Float)
  | i8 (value : Int8)
  | i16 (value : Int16)
  | i32 (value : Int32)
  | i64 (value : Int64)
  | u1 (bit : UInt8)
  | u8 (value : UInt8)
  | u16 (value : UInt16)
  | u32 (value : UInt32)
  | u64 (value : UInt64)
  deriving Repr

/-- The element type of a value. -/
def Scalar.elementType : Scalar → ElementType
  | boolean _ => .boolean
  | bf16 _ => .bf16
  | f16 _ => .f16
  | f32 _ => .f32
  | f64 _ => .f64
  | i8 _ => .i8
  | i16 _ => .i16
  | i32 _ => .i32
  | i64 _ => .i64
  | u1 _ => .u1
  | u8 _ => .u8
  | u16 _ => .u16
  | u32 _ => .u32
  | u64 _ => .u64

end TensorInference
