import TensorInference.Reduction.Basic
import TensorInference.Scalar

/-!
# Identities of reductions

The value that a reduction over no elements gives, for each concrete element type.  A maximum
starts at the lowest value, a minimum at the highest, a sum at zero and a product at one.  For
floating-point types the lowest and the highest value are the infinities.

The half-precision types are given as bits: `0xFC00` and `0xFF80` are their negative infinities,
`0x3C00` and `0x3F80` their ones.
-/

namespace TensorInference

namespace Scalar

/-- The lowest value of a numeric type. -/
def lowest? : ElementType → Option Scalar
  | .bf16 => some (bf16 0xFF80)
  | .f16 => some (f16 0xFC00)
  | .f32 => some (f32 (Float32.ofBits 0xFF800000))
  | .f64 => some (f64 (Float.ofBits 0xFFF0000000000000))
  | .i8 => some (i8 (-0x80))
  | .i16 => some (i16 (-0x8000))
  | .i32 => some (i32 (-0x80000000))
  | .i64 => some (i64 (-0x8000000000000000))
  | .u1 => some (u1 0)
  | .u8 => some (u8 0)
  | .u16 => some (u16 0)
  | .u32 => some (u32 0)
  | .u64 => some (u64 0)
  | _ => none

/-- The highest value of a numeric type. -/
def highest? : ElementType → Option Scalar
  | .bf16 => some (bf16 0x7F80)
  | .f16 => some (f16 0x7C00)
  | .f32 => some (f32 (Float32.ofBits 0x7F800000))
  | .f64 => some (f64 (Float.ofBits 0x7FF0000000000000))
  | .i8 => some (i8 0x7F)
  | .i16 => some (i16 0x7FFF)
  | .i32 => some (i32 0x7FFFFFFF)
  | .i64 => some (i64 0x7FFFFFFFFFFFFFFF)
  | .u1 => some (u1 1)
  | .u8 => some (u8 0xFF)
  | .u16 => some (u16 0xFFFF)
  | .u32 => some (u32 0xFFFFFFFF)
  | .u64 => some (u64 0xFFFFFFFFFFFFFFFF)
  | _ => none

/-- The zero of a numeric type. -/
def zero? : ElementType → Option Scalar
  | .bf16 => some (bf16 0)
  | .f16 => some (f16 0)
  | .f32 => some (f32 0)
  | .f64 => some (f64 0)
  | .i8 => some (i8 0)
  | .i16 => some (i16 0)
  | .i32 => some (i32 0)
  | .i64 => some (i64 0)
  | .u1 => some (u1 0)
  | .u8 => some (u8 0)
  | .u16 => some (u16 0)
  | .u32 => some (u32 0)
  | .u64 => some (u64 0)
  | _ => none

/-- The one of a numeric type. -/
def one? : ElementType → Option Scalar
  | .bf16 => some (bf16 0x3F80)
  | .f16 => some (f16 0x3C00)
  | .f32 => some (f32 1)
  | .f64 => some (f64 1)
  | .i8 => some (i8 1)
  | .i16 => some (i16 1)
  | .i32 => some (i32 1)
  | .i64 => some (i64 1)
  | .u1 => some (u1 1)
  | .u8 => some (u8 1)
  | .u16 => some (u16 1)
  | .u32 => some (u32 1)
  | .u64 => some (u64 1)
  | _ => none

end Scalar

/-- The value of a reduction over no elements of a type, if the type is concrete and supported. -/
def Reduction.identity? (r : Reduction) (t : ElementType) : Option Scalar :=
  match r with
  | max => Scalar.lowest? t
  | min => Scalar.highest? t
  | sum => Scalar.zero? t
  | prod => Scalar.one? t
  | logicalAnd => if t = .boolean then some (.boolean true) else none
  | logicalOr => if t = .boolean then some (.boolean false) else none

/-- There is an identity just for the concrete types that pass the check of the reduction. -/
theorem Reduction.identity?_isSome (r : Reduction) (t : ElementType) :
    (r.identity? t).isSome = (t.isStatic && r.supports t) := by
  cases r <;> cases t <;> rfl

end TensorInference
