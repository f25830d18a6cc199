/-!
# Element types

`ElementType` lists the kinds of scalar that a tensor holds.  Besides the concrete kinds it has
`dynamic`, the type that is not known yet, and `undefined`.  Types that meet on an edge are
unified by `merge`: `dynamic` gives way to the other side, and two other types unify only if they
are the same.

The order of the constructors is the order of `all`, by which types are compared and sorted.  It
says nothing about the ranges of the types.

* `ofName?` reads what `name` writes, and nothing else.
* `attributes` is the table of fixed attributes, which the two sentinels do not have.
-/

namespace TensorInference

/-- The kind of scalar that a tensor holds. -/
inductive ElementType where
  | undefined
  | dynamic
  | boolean
  | bf16
  | f16
  | f32
  | f64
  | i8
  | i16
  | i32
  | i64
  | u1
  | u8
  | u16
  | u32
  | u64
  deriving DecidableEq, Repr, Inhabited

namespace ElementType

/-- Every element type, in order. -/
def all : List ElementType :=
  [undefined, dynamic, boolean, bf16, f16, f32, f64, i8, i16, i32, i64, u1, u8, u16, u32, u64]

theorem mem_all (t : ElementType) : t ∈ all := by
  cases t <;> decide

/-- The position of a type in `all`. -/
def ordinal (t : ElementType) : Nat :=
  all.idxOf t

/-- Types are compared by their positions. -/
def order (a b : ElementType) : Ordering :=
  compare a.ordinal b.ordinal

/-- Types in order, repetitions kept. -/
def sort (types : List ElementType) : List ElementType :=
  types.mergeSort fun a b => a.ordinal ≤ b.ordinal

/-- The written name of a type. -/
def name : ElementType → String
  | undefined => "undefined"
  | dynamic => "dynamic"
  | boolean => "boolean"
  | bf16 => "bf16"
  | f16 => "f16"
  | f32 => "f32"
  | f64 => "f64"
  | i8 => "i8"
  | i16 => "i16"
  | i32 => "i32"
  | i64 => "i64"
  | u1 => "u1"
  | u8 => "u8"
  | u16 => "u16"
  | u32 => "u32"
  | u64 => "u64"

/-- The type with a given name. -/
def ofName? (name : String) : Option ElementType :=
  all.find? fun t => t.name == name

theorem ofName?_name (t : ElementType) : ofName? t.name = some t := by
  cases t <;> decide

theorem name_of_ofName? {s : String} {t : ElementType} (h : ofName? s = some t) : t.name = s := by
  simpa using List.find?_some h

/-- What is said of a name that no type has. -/
def unknownNameMessage (name : String) : String :=
  s!"unknown element type \"{name}\""

/-- A type is static when it is neither of the two sentinels. -/
def isStatic (t : ElementType) : Bool :=
  t != undefined && t != dynamic

/-- A type is dynamic when it is not known yet. -/
def isDynamic (t : ElementType) : Bool :=
  t == dynamic

/-! ## Attributes -/

/-- The fixed attributes of a concrete element type. -/
structure Attributes where
  bitwidth : Nat
  isReal : Bool
  isSigned : Bool
  isQuantized : Bool
  /-- The name of the type that stores one element. -/
  storageName : String
  deriving DecidableEq, Repr

/-- Whole bytes that hold one element. -/
def Attributes.byteSize (a : Attributes) : Nat :=
  (a.bitwidth + 7) / 8

/-- Every type that is not real is integral. -/
def Attributes.isIntegral (a : Attributes) : Bool :=
  !a.isReal

/-- The attributes of a type, if it has any. -/
def attributes? : ElementType → Option Attributes
  | undefined | dynamic => none
  | boolean => some ⟨8, false, true, false, "char"⟩
  | bf16 => some ⟨16, true, true, false, "bfloat16"⟩
  | f16 => some ⟨16, true, true, false, "float16"⟩
  | f32 => some ⟨32, true, true, false, "float"⟩
  | f64 => some ⟨64, true, true, false, "double"⟩
  | i8 => some ⟨8, false, true, true, "int8_t"⟩
  | i16 => some ⟨16, false, true, false, "int16_t"⟩
  | i32 => some ⟨32, false, true, true, "int32_t"⟩
  | i64 => some ⟨64, false, true, false, "int64_t"⟩
  | u1 => some ⟨1, false, false, false, "uint8_t"⟩
  | u8 => some ⟨8, false, false, true, "uint8_t"⟩
  | u16 => some ⟨16, false, false, false, "uint16_t"⟩
  | u32 => some ⟨32, false, false, false, "uint32_t"⟩
  | u64 => some ⟨64, false, false, false, "uint64_t"⟩

/-- Attributes were asked of a type that has none. -/
structure AttributeError where
  elementType : ElementType
  deriving DecidableEq, Repr

def AttributeError.message (e : AttributeError) : String :=
  "cannot query attributes of element type " ++ e.elementType.name

/-- The attributes of a type, with an error for the two sentinels. -/
def attributes (t : ElementType) : Except AttributeError Attributes :=
  match t.attributes? with
  | some a => .ok a
  | none => .error ⟨t⟩

theorem attributes?_isSome (t : ElementType) : t.attributes?.isSome = t.isStatic := by
  cases t <;> rfl

/-- An integral type is a number unless it is boolean. -/
def isIntegralNumber (t : ElementType) : Except AttributeError Bool :=
  t.attributes.map fun a => a.isIntegral && t != boolean

/-! ## Unification -/

/-- Two types that do not unify. -/
structure Conflict where
  left : ElementType
  right : ElementType
  deriving DecidableEq, Repr

def Conflict.message (c : Conflict) : String :=
  s!"element types {c.left.name} and {c.right.name} are incompatible"

/-- Two types are compatible when they are equal or one of them is not known yet. -/
def compatible (a b : ElementType) : Bool :=
  a == b || a == dynamic || b == dynamic

/-- The type that both sides agree on. -/
def merge (a b : ElementType) : Except Conflict ElementType :=
  if a = dynamic then .ok b
  else if b = dynamic ∨ a = b then .ok a
  else .error ⟨a, b⟩

end ElementType

end TensorInference
