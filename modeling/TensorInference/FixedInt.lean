import TensorInference.ElementType

/-!
# Integers of a fixed width

The eight integer types whose arithmetic is exact modulo a power of two.  `toInt` reads a value as
an integer and `ofInt` wraps an integer into the type; between `least` and `greatest` nothing is
wrapped, so the two undo each other.
-/

namespace TensorInference

/-- A type of integers between two bounds. -/
class FixedInt (α : Type) where
  elementType : ElementType
  least : Int
  greatest : Int
  toInt : α → Int
  ofInt : Int → α
  ofInt_toInt : ∀ a, ofInt (toInt a) = a
  toInt_ofInt : ∀ n, least ≤ n → n ≤ greatest → toInt (ofInt n) = n
  least_le_toInt : ∀ a, least ≤ toInt a
  toInt_le_greatest : ∀ a, toInt a ≤ greatest

namespace FixedInt

instance : FixedInt Int8 where
  elementType := .i8
  least := -0x80
  greatest := 0x7F
  toInt := Int8.toInt
  ofInt := Int8.ofInt
  ofInt_toInt := Int8.ofInt_toInt
  toInt_ofInt n h h' := Int8.toInt_ofInt_of_le (by omega) (by omega)
  least_le_toInt a := by have := a.le_toInt; omega
  toInt_le_greatest a := by have := a.toInt_lt; omega

instance : FixedInt Int16 where
  elementType := .i16
  least := -0x8000
  greatest := 0x7FFF
  toInt := Int16.toInt
  ofInt := Int16.ofInt
  ofInt_toInt := Int16.ofInt_toInt
  toInt_ofInt n h h' := Int16.toInt_ofInt_of_le (by omega) (by omega)
  least_le_toInt a := by have := a.le_toInt; omega
  toInt_le_greatest a := by have := a.toInt_lt; omega

instance : FixedInt Int32 where
  elementType := .i32
  least := -0x80000000
  greatest := 0x7FFFFFFF
  toInt := Int32.toInt
  ofInt := Int32.ofInt
  ofInt_toInt := Int32.ofInt_toInt
  toInt_ofInt n h h' := Int32.toInt_ofInt_of_le (by omega) (by omega)
  least_le_toInt a := by have := a.le_toInt; omega
  toInt_le_greatest a := by have := a.toInt_lt; omega

instance : FixedInt Int64 where
  elementType := .i64
  least := -0x8000000000000000
  greatest := 0x7FFFFFFFFFFFFFFF
  toInt := Int64.toInt
  ofInt := Int64.ofInt
  ofInt_toInt := Int64.ofInt_toInt
  toInt_ofInt n h h' := Int64.toInt_ofInt_of_le (by omega) (by omega)
  least_le_toInt a := by have := a.le_toInt; omega
  toInt_le_greatest a := by have := a.toInt_lt; omega

instance : FixedInt UInt8 where
  elementType := .u8
  least := 0
  greatest := 0xFF
  toInt a := a.toNat
  ofInt := UInt8.ofInt
  ofInt_toInt a := by
    apply UInt8.toNat_inj.1
    have := a.toNat_lt
    simp only [UInt8.ofInt, UInt8.toNat_ofNat']
    omega
  toInt_ofInt n h h' := by
    simp only [UInt8.ofInt, UInt8.toNat_ofNat']
    omega
  least_le_toInt a := by omega
  toInt_le_greatest a := by have := a.toNat_lt; omega

instance : FixedInt UInt16 where
  elementType := .u16
  least := 0
  greatest := 0xFFFF
  toInt a := a.toNat
  ofInt := UInt16.ofInt
  ofInt_toInt a := by
    apply UInt16.toNat_inj.1
    have := a.toNat_lt
    simp only [UInt16.ofInt, UInt16.toNat_ofNat']
    omega
  toInt_ofInt n h h' := by
    simp only [UInt16.ofInt, UInt16.toNat_ofNat']
    omega
  least_le_toInt a := by omega
  toInt_le_greatest a := by have := a.toNat_lt; omega

instance : FixedInt UInt32 where
  elementType := .u32
  least := 0
  greatest := 0xFFFFFFFF
  toInt a := a.toNat
  ofInt := UInt32.ofInt
  ofInt_toInt a := by
    apply UInt32.toNat_inj.1
    have := a.toNat_lt
    simp only [UInt32.ofInt, UInt32.toNat_ofNat']
    omega
  toInt_ofInt n h h' := by
    simp only [UInt32.ofInt, UInt32.toNat_ofNat']
    omega
  least_le_toInt a := by omega
  toInt_le_greatest a := by have := a.toNat_lt; omega

instance : FixedInt UInt64 where
  elementType := .u64
  least := 0
  greatest := 0xFFFFFFFFFFFFFFFF
  toInt a := a.toNat
  ofInt := UInt64.ofInt
  ofInt_toInt a := by
    apply UInt64.toNat_inj.1
    have := a.toNat_lt
    simp only [UInt64.ofInt, UInt64.toNat_ofNat']
    omega
  toInt_ofInt n h h' := by
    simp only [UInt64.ofInt, UInt64.toNat_ofNat']
    omega
  least_le_toInt a := by omega
  toInt_le_greatest a := by have := a.toNat_lt; omega

end FixedInt

end TensorInference
