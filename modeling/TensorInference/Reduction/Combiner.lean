import TensorInference.FixedInt
import TensorInference.Reduction.Basic
import TensorInference.Scalar

/-!
# Combining elements

A combiner is what a reduction does to elements of one type: the value that it starts from and
the step that takes in one more element.  `Element` names the types that tensors hold and says
which reductions have a combiner for them: the six reductions are split between booleans and
numbers, so no type has all.

A maximum takes the next element only if it is greater than what is held.  An element that does
not compare, as a float that is not a number, is therefore passed over.  Sums and products of
integers wrap.
-/

namespace TensorInference

/-- A start and a step. -/
structure Combiner (α : Type) where
  identity : α
  combine : α → α → α

namespace Combiner

variable {α : Type}

/-- The result of taking in all values in turn. -/
def fold (c : Combiner α) (values : List α) : α :=
  values.foldl c.combine c.identity

/-- What is held after each value, beginning with `held`. -/
def scan (c : Combiner α) (held : α) : List α → List α
  | [] => [held]
  | value :: values => held :: c.scan (c.combine held value) values

/-- The combiners of numbers. -/
def numeric? [Add α] [Mul α] [LT α] [DecidableLT α] (lowest highest zero one : α) :
    Reduction → Option (Combiner α)
  | .max => some ⟨lowest, fun held value => if held < value then value else held⟩
  | .min => some ⟨highest, fun held value => if value < held then value else held⟩
  | .sum => some ⟨zero, fun held value => held + value⟩
  | .prod => some ⟨one, fun held value => held * value⟩
  | .logicalAnd | .logicalOr => none

/-- The combiners of truth values. -/
def logical? : Reduction → Option (Combiner Bool)
  | .logicalAnd => some ⟨true, fun held value => held && value⟩
  | .logicalOr => some ⟨false, fun held value => held || value⟩
  | .max | .min | .sum | .prod => none

/-- The combiners of integers of a fixed width. -/
def integer? [FixedInt α] [Add α] [Mul α] [LT α] [DecidableLT α] :
    Reduction → Option (Combiner α) :=
  numeric? (FixedInt.ofInt (FixedInt.least α)) (FixedInt.ofInt (FixedInt.greatest α))
    (FixedInt.ofInt 0) (FixedInt.ofInt 1)

end Combiner

/-- A type of values that tensors hold. -/
class Element (α : Type) where
  elementType : ElementType
  toScalar : α → Scalar
  ofScalar? : Scalar → Option α
  combiner? : Reduction → Option (Combiner α)
  ofScalar?_toScalar : ∀ a, ofScalar? (toScalar a) = some a := by intro _; rfl
  elementType_toScalar : ∀ a, (toScalar a).elementType = elementType := by intro _; rfl
  combiner?_isSome : ∀ r, (combiner? r).isSome = r.supports elementType := by
    intro r; cases r <;> rfl

namespace Element

instance : Element Bool where
  elementType := .boolean
  toScalar := .boolean
  ofScalar? | .boolean a => some a | _ => none
  combiner? := Combiner.logical?

instance : Element Float32 where
  elementType := .f32
  toScalar := .f32
  ofScalar? | .f32 a => some a | _ => none
  combiner? := Combiner.numeric? (Float32.ofBits 0xFF800000) (Float32.ofBits 0x7F800000) 0 1

instance : Element Float where
  elementType := .f64
  toScalar := .f64
  ofScalar? | .f64 a => some a | _ => none
  combiner? :=
    Combiner.numeric? (Float.ofBits 0xFFF0000000000000) (Float.ofBits 0x7FF0000000000000) 0 1

instance : Element Int8 where
  elementType := .i8
  toScalar := .i8
  ofScalar? | .i8 a => some a | _ => none
  combiner? := Combiner.integer?

instance : Element Int16 where
  elementType := .i16
  toScalar := .i16
  ofScalar? | .i16 a => some a | _ => none
  combiner? := Combiner.integer?

instance : Element Int32 where
  elementType := .i32
  toScalar := .i32
  ofScalar? | .i32 a => some a | _ => none
  combiner? := Combiner.integer?

instance : Element Int64 where
  elementType := .i64
  toScalar := .i64
  ofScalar? | .i64 a => some a | _ => none
  combiner? := Combiner.integer?

instance : Element UInt8 where
  elementType := .u8
  toScalar := .u8
  ofScalar? | .u8 a => some a | _ => none
  combiner? := Combiner.integer?

instance : Element UInt16 where
  elementType := .u16
  toScalar := .u16
  ofScalar? | .u16 a => some a | _ => none
  combiner? := Combiner.integer?

instance : Element UInt32 where
  elementType := .u32
  toScalar := .u32
  ofScalar? | .u32 a => some a | _ => none
  combiner? := Combiner.integer?

instance : Element UInt64 where
  elementType := .u64
  toScalar := .u64
  ofScalar? | .u64 a => some a | _ => none
  combiner? := Combiner.integer?

end Element

/-- What a reduction holds after each value, beginning with `start`, or with its identity where no
start is given.  A reduction that the type does not have can hold a start, but take in nothing. -/
def Reduction.accumulate? {α : Type} [Element α] (r : Reduction) (start : Option α)
    (values : List α) : Option (List α) :=
  match Element.combiner? (α := α) r, start, values with
  | some c, start, values => some (c.scan (start.getD c.identity) values)
  | none, some held, [] => some [held]
  | none, _, _ => none

end TensorInference
