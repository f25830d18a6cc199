import TensorInference.Document.Error

/-!
# Values of one token

Counts, dimensions, element types and the elements of tensors are written as one token each.  A real
number is never taken for an integer, even if it is whole, while integers are taken for the real
numbers nearest to them.
-/

namespace TensorInference.Document

/-- Reads a count. -/
def readCount (t : Token) : Except Error Nat :=
  match t with
  | .number (.integer n) =>
    if 0 ≤ n ∧ n ≤ Word.maxValue then .ok n.toNat else .error (.outOfRange n .count)
  | t => .error (t.refuse .count)

/-- Reads a dimension, where no value stands for an unknown one. -/
def readDimension (t : Token) : Except Error Dimension :=
  match t with
  | .null => .ok .unknown
  | t => (readCount t).map .known

/-- Reads the name of an element type. -/
def readElementType (t : Token) : Except Error ElementType :=
  match t with
  | .text name =>
    match ElementType.ofName? name with
    | some elementType => .ok elementType
    | none => .error (.unknownElementType name)
  | t => .error (t.refuse .text)

/-- A type whose values are read from tokens. -/
class ReadElement (α : Type) where
  read : Token → Except Error α

/-- A type whose values are written as tokens. -/
class WriteElement (α : Type) where
  write : α → Token

/-- An integer in double precision. -/
def toDouble (n : Int) : Float :=
  if n < 0 then -n.natAbs.toUInt64.toFloat else n.natAbs.toUInt64.toFloat

/-- An integer in single precision. -/
def toSingle (n : Int) : Float32 :=
  if n < 0 then -n.natAbs.toUInt64.toFloat32 else n.natAbs.toUInt64.toFloat32

instance : ReadElement Bool where
  read
    | .boolean b => .ok b
    | t => .error (t.refuse (.element .boolean))

instance : WriteElement Bool where
  write b := .boolean b

instance {α : Type} [FixedInt α] : ReadElement α where
  read
    | .number (.integer n) =>
      if FixedInt.least α ≤ n ∧ n ≤ FixedInt.greatest α then .ok (FixedInt.ofInt n)
      else .error (.outOfRange n (.element (FixedInt.elementType α)))
    | t => .error (t.refuse (.element (FixedInt.elementType α)))

instance {α : Type} [FixedInt α] : WriteElement α where
  write a := .number (.integer (FixedInt.toInt a))

instance : ReadElement Float32 where
  read
    | .number (.integer n) => .ok (toSingle n)
    | .number (.real x) => .ok x.toFloat32
    | t => .error (t.refuse (.element .f32))

instance : ReadElement Float where
  read
    | .number (.integer n) => .ok (toDouble n)
    | .number (.real x) => .ok x
    | t => .error (t.refuse (.element .f64))

/-- Writes a count. -/
def writeCount (n : Nat) : Token :=
  .number (.integer n)

/-- Writes a dimension. -/
def writeDimension : Dimension → Token
  | .known n => writeCount n
  | .unknown => .null

/-- Writes the name of an element type. -/
def writeElementType (t : ElementType) : Token :=
  .text t.name

end TensorInference.Document
