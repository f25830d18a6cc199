import TensorInference.Decimal.Digits
import TensorInference.Word

/-!
# Numbers in documents

A number without a point and without an exponent is an integer as long as it fits a word, unsigned,
or signed after a minus sign.  Minus zero, larger integers and all other numbers are real numbers in
double precision.

The digits of a real number are gathered in a word.  Digits that no longer fit are dropped: before
the point each dropped digit counts as a power of ten, after the point it counts for nothing.  The
gathered digits are then scaled by the power of ten that the point and the exponent ask for.  That
is one rounding for the digits and one or more for the scaling, so the result need not be the double
nearest to what is written.  A result that is not finite is no number.
-/

namespace TensorInference.Document

/-- A number as it is understood. -/
inductive Number where
  | integer (value : Int)
  | real (value : Float)
  deriving Repr

/-- The written parts of a number. -/
structure Numeral where
  negative : Bool
  /-- The digits before the point. -/
  whole : List Char
  /-- The digits after the point, if there is one. -/
  fraction : Option (List Char)
  /-- Whether the exponent is negative, and its digits, if there is one. -/
  exponent : Option (Bool × List Char)
  deriving Repr

namespace Numeral

/-- The largest absolute value of a signed word. -/
def greatestNegated : Nat := 0x8000000000000000

/-- The largest exponent that is told apart from all larger ones. -/
def greatestExponent : Nat := 0x7FFFFFFF

/-- The number that `held` becomes when digits are written after it, as long as it fits a word, and
the digits that did not fit. -/
def gather (held : Nat) : List Char → Nat × List Char
  | [] => (held, [])
  | c :: digits =>
    let next := 10 * held + Decimal.digitValue c
    if next ≤ Word.maxValue then gather next digits else (held, c :: digits)

/-- A natural number in double precision. -/
def toReal (n : Nat) : Float :=
  Float.ofNat n

/-- A power of ten in double precision. -/
def powerOfTen (exponent : Nat) : Float :=
  Float.ofScientific 1 false exponent

/-- A number times a power of ten, unless it is not finite.  Exponents below `-308` are taken in
steps. -/
def scale (x : Float) (exponent : Int) : Option Float :=
  if exponent.natAbs ≤ 308 then
    if 0 ≤ exponent then
      let scaled := x * powerOfTen exponent.natAbs
      if scaled.isInf then none else some scaled
    else some (x / powerOfTen exponent.natAbs)
  else if x == 0 then some x
  else if 0 ≤ exponent then none
  else scale (x / powerOfTen 308) (exponent + 308)
termination_by exponent.natAbs
decreasing_by omega

/-- A number with the sign in front of it. -/
def signed (negative : Bool) (x : Float) : Float :=
  if negative then -x else x

/-- An exponent, brought between the bounds of the exponents that are told apart. -/
def clampExponent (exponent : Int) : Int :=
  max (-greatestExponent - 1) (min greatestExponent exponent)

/-- The value of a numeral as a real number. -/
def real? (n : Numeral) : Option Float :=
  let (held, dropped) := gather 0 n.whole
  let (held, point) :=
    match n.fraction with
    | none => (held, (dropped.length : Int))
    | some fraction =>
      let (held, ignored) := gather held fraction
      (held, (dropped.length : Int) - (fraction.length - ignored.length : Nat))
  let scaled :=
    match n.exponent with
    | none => scale (toReal held) point
    | some (down, digits) =>
      let exponent := Decimal.extend 0 digits
      if exponent ≤ greatestExponent then
        scale (toReal held) (clampExponent (if down then point - exponent else point + exponent))
      else if held ≠ 0 ∧ !down then none
      else some 0
  scaled.map (signed n.negative)

/-- The value of a numeral as an integer. -/
def integer? (n : Numeral) : Option Int :=
  match n.fraction, n.exponent, gather 0 n.whole with
  | none, none, (held, []) =>
    if !n.negative then some held
    else if held ≠ 0 ∧ held ≤ greatestNegated then some (-held)
    else none
  | _, _, _ => none

/-- The value of a numeral. -/
def value? (n : Numeral) : Option Number :=
  match n.integer? with
  | some value => some (.integer value)
  | none => n.real?.map .real

/-! ## Splitting off a numeral -/

/-- Digits and what follows them. -/
def splitDigits (text : List Char) : List Char × List Char :=
  (text.takeWhile Char.isDigit, text.dropWhile Char.isDigit)

/-- The point and the digits after it, of which there is at least one.  Without a point there is no
fraction. -/
def splitFraction : List Char → Option (Option (List Char) × List Char)
  | '.' :: text =>
    match splitDigits text with
    | ([], _) => none
    | (digits, rest) => some (some digits, rest)
  | text => some (none, text)

/-- The sign of an exponent, which may be missing. -/
def splitSign : List Char → Bool × List Char
  | '+' :: text => (false, text)
  | '-' :: text => (true, text)
  | text => (false, text)

/-- The letter of an exponent, its sign and its digits, of which there is at least one. -/
def splitExponent (text : List Char) : Option (Option (Bool × List Char) × List Char) :=
  match text with
  | c :: text' =>
    if c = 'e' ∨ c = 'E' then
      match splitDigits (splitSign text').2 with
      | ([], _) => none
      | (digits, rest) => some (some ((splitSign text').1, digits), rest)
    else some (none, text)
  | [] => some (none, [])

/-- The digits before the point: a single zero, or digits that begin with another one. -/
def splitWhole (text : List Char) : Option (List Char × List Char) :=
  match splitDigits text with
  | ([], _) => none
  | (['0'], rest) => some (['0'], rest)
  | ('0' :: _, _) => none
  | (digits, rest) => some (digits, rest)

/-- The sign of a number, which can only be a minus. -/
def splitMinus : List Char → Bool × List Char
  | '-' :: text => (true, text)
  | text => (false, text)

/-- The numeral at the front of a text, and what follows it. -/
def split (text : List Char) : Option (Numeral × List Char) := do
  let (negative, text) := splitMinus text
  let (whole, text) ← splitWhole text
  let (fraction, text) ← splitFraction text
  let (exponent, text) ← splitExponent text
  return (⟨negative, whole, fraction, exponent⟩, text)

/-! ## What is split off has a length -/

theorem length_splitDigits (text : List Char) :
    (splitDigits text).1.length + (splitDigits text).2.length = text.length := by
  rw [splitDigits, ← List.length_append, List.takeWhile_append_dropWhile]

theorem length_of_splitWhole {text digits rest : List Char}
    (h : splitWhole text = some (digits, rest)) : rest.length < text.length := by
  have hd := length_splitDigits text
  unfold splitWhole at h
  generalize splitDigits text = parts at h hd
  obtain ⟨front, back⟩ := parts
  cases front with
  | nil => simp at h
  | cons c front =>
    have : back = rest := by
      split at h <;> simp_all
    subst this
    simp only [List.length_cons] at hd
    omega

theorem length_of_splitFraction {text rest : List Char} {fraction : Option (List Char)}
    (h : splitFraction text = some (fraction, rest)) : rest.length ≤ text.length := by
  unfold splitFraction at h
  split at h
  · next text' =>
    have := length_splitDigits text'
    split at h
    · simp at h
    · next h' =>
      simp only [Option.some.injEq, Prod.mk.injEq] at h
      obtain ⟨_, rfl⟩ := h
      simp only [h', List.length_cons] at this ⊢
      omega
  · simp only [Option.some.injEq, Prod.mk.injEq] at h
    exact h.2 ▸ Nat.le_refl _

theorem length_splitSign (text : List Char) : (splitSign text).2.length ≤ text.length := by
  unfold splitSign
  split <;> simp

theorem length_of_splitExponent {text rest : List Char} {exponent : Option (Bool × List Char)}
    (h : splitExponent text = some (exponent, rest)) : rest.length ≤ text.length := by
  unfold splitExponent at h
  split at h
  · next c text' =>
    split at h
    · have hs := length_splitSign text'
      have hd := length_splitDigits (splitSign text').2
      split at h
      · simp at h
      · next h' =>
        simp only [Option.some.injEq, Prod.mk.injEq] at h
        obtain ⟨_, rfl⟩ := h
        simp only [h', List.length_cons] at hd ⊢
        omega
    · simp only [Option.some.injEq, Prod.mk.injEq] at h
      exact h.2 ▸ Nat.le_refl _
  · simp only [Option.some.injEq, Prod.mk.injEq] at h
    exact h.2 ▸ Nat.le_refl _

theorem length_splitMinus (text : List Char) : (splitMinus text).2.length ≤ text.length := by
  unfold splitMinus
  split <;> simp

/-- A numeral takes at least one character. -/
theorem length_of_split {text rest : List Char} {n : Numeral} (h : split text = some (n, rest)) :
    rest.length < text.length := by
  simp only [split, Option.bind_eq_bind, Option.bind_eq_some_iff, Option.pure_def,
    Option.some.injEq, Prod.mk.injEq, Prod.exists] at h
  obtain ⟨whole, t₁, hw, fraction, t₂, hf, exponent, t₃, he, _, rfl⟩ := h
  have h₀ := length_splitMinus text
  have h₁ := length_of_splitWhole hw
  have h₂ := length_of_splitFraction hf
  have h₃ := length_of_splitExponent he
  omega

end Numeral

end TensorInference.Document
