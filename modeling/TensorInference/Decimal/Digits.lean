/-!
# Decimal digits

Reading a run of ASCII digits as a natural number, the leftmost digit first.
-/

namespace TensorInference.Decimal

/-- The value of an ASCII digit. -/
def digitValue (c : Char) : Nat :=
  c.toNat - '0'.toNat

/-- The number that `held` becomes when the digits are written after it. -/
def extend (held : Nat) (digits : List Char) : Nat :=
  digits.foldl (fun n c => 10 * n + digitValue c) held

/-- The number that a run of digits writes, if it is one or more digits and nothing else. -/
def ofDigits? (digits : List Char) : Option Nat :=
  if digits ≠ [] ∧ digits.all Char.isDigit then some (extend 0 digits) else none

end TensorInference.Decimal
