/-!
# Machine words

Extents, counts and offsets are natural numbers.  A machine word has 64 bits and holds those up to
`Word.maxValue`, and an operation whose result leaves the word has no result: `add?`, `mul?` and
`sub?` say so with an `Option`.  `mulCapped` is the product that stops at the largest word instead.

`product?` multiplies a list from the left, starting at one, and gives up at the first partial
product that leaves the word.  A zero further right does not save it.

`Fault` names what can stop a computation on words and on stored data.
-/

namespace TensorInference

namespace Word

/-- The largest number that a word holds. -/
def maxValue : Nat := 0xFFFFFFFFFFFFFFFF

/-- A sum, unless it leaves the word. -/
def add? (a b : Nat) : Option Nat :=
  if a + b ≤ maxValue then some (a + b) else none

/-- A difference, unless it falls below zero. -/
def sub? (a b : Nat) : Option Nat :=
  if b ≤ a then some (a - b) else none

/-- A product, unless it leaves the word. -/
def mul? (a b : Nat) : Option Nat :=
  if a * b ≤ maxValue then some (a * b) else none

/-- A product, or the largest word when the product leaves the word. -/
def mulCapped (a b : Nat) : Nat :=
  min (a * b) maxValue

/-- The product of a list, multiplied from the left starting at one, unless a partial product
leaves the word. -/
def product? (factors : List Nat) : Option Nat :=
  factors.foldlM mul? 1

theorem add?_eq_some_iff {a b c : Nat} : add? a b = some c ↔ a + b = c ∧ c ≤ maxValue := by
  unfold add?
  split <;> simp <;> omega

theorem sub?_eq_some_iff {a b c : Nat} : sub? a b = some c ↔ a = b + c := by
  unfold sub?
  split <;> simp <;> omega

theorem mul?_eq_some_iff {a b c : Nat} : mul? a b = some c ↔ a * b = c ∧ c ≤ maxValue := by
  unfold mul?
  split <;> simp <;> omega

@[simp] theorem product?_nil : product? [] = some 1 := rfl

end Word

/-- What stops a computation on words and stored data. -/
inductive Fault where
  /-- A sum or a product leaves the word. -/
  | overflow
  /-- A difference falls below zero. -/
  | underflow
  /-- A quotient or a remainder by zero. -/
  | zeroDivisor
  /-- An offset at or past the end of the data. -/
  | outsideStorage
  /-- An operation that the element type does not have. -/
  | unsupported
  /-- More entries than storage holds. -/
  | exhausted
  deriving DecidableEq, Repr

/-- The value of an option, with `fault` where there is none. -/
def Fault.unless {α : Type} (fault : Fault) : Option α → Except Fault α
  | some a => .ok a
  | none => .error fault

@[simp] theorem Fault.unless_some {α : Type} (fault : Fault) (a : α) :
    fault.unless (some a) = .ok a := rfl

@[simp] theorem Fault.unless_none {α : Type} (fault : Fault) :
    fault.unless (none : Option α) = .error fault := rfl

theorem Fault.unless_eq_ok_iff {α : Type} {fault : Fault} {o : Option α} {a : α} :
    fault.unless o = .ok a ↔ o = some a := by
  cases o <;> simp

end TensorInference
