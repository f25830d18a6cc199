import Mathlib.Data.List.Basic
import TensorInference.Document.Number

/-!
# Integers, written and read again

An integer is written in decimal digits, after a minus sign if it is negative.  In front of anything
that a number could not go on with, this text is split off as a numeral of its own, and as long as
the integer fits a word, unsigned or signed, the numeral has the integer for its value.

The digits of a number begin with a zero only if there is no other digit.  This is what the reader
asks for before the point.

* `Numeral.split_toString` --- the numeral of a written integer.
* `Numeral.value?_ofInt` --- the value of that numeral.
-/

namespace TensorInference

namespace Decimal

theorem extend_toDigits (n : Nat) : extend 0 (Nat.toDigits 10 n) = n :=
  Nat.ofDigitChars_ten_toDigits

/-- Further digits do not make a number smaller. -/
theorem le_extend (held : Nat) (digits : List Char) : held ≤ extend held digits := by
  induction digits generalizing held with
  | nil => exact Nat.le_refl _
  | cons c digits ih =>
    calc held ≤ 10 * held + digitValue c := by omega
      _ ≤ extend (10 * held + digitValue c) digits := ih _

/-- The digits of a number other than zero do not begin with a zero. -/
theorem head?_toDigits_ne_zero {n : Nat} (h : 0 < n) :
    (Nat.toDigits 10 n).head? ≠ some '0' := by
  induction n using Nat.strongRecOn with
  | _ n ih =>
    by_cases hn : n < 10
    · have hdigit : ∀ d < 10, 0 < d → some (Nat.digitChar d) ≠ some '0' := by decide
      rw [Nat.toDigits_of_lt_base hn]
      exact hdigit n hn h
    · have hfront : 0 < n / 10 := by omega
      rw [Nat.toDigits_of_base_le (by decide) (by omega),
        List.head?_append_of_ne_nil _ Nat.toDigits_ne_nil]
      exact ih (n / 10) (by omega) hfront

end Decimal

namespace Document.Numeral

/-- A text that no number goes on with: it does not begin with a digit, a point or the letter of an
exponent. -/
def Ends (text : List Char) : Prop :=
  ∀ c ∈ text.head?, c.isDigit = false ∧ c ≠ '.' ∧ c ≠ 'e' ∧ c ≠ 'E'

theorem ends_nil : Ends [] := fun _ h => nomatch h

theorem ends_cons {c : Char} {text : List Char} :
    Ends (c :: text) ↔ c.isDigit = false ∧ c ≠ '.' ∧ c ≠ 'e' ∧ c ≠ 'E' := by
  simp [Ends]

/-! ## Splitting off the digits -/

theorem splitDigits_append {digits rest : List Char} (hdigits : ∀ c ∈ digits, c.isDigit = true)
    (hrest : Ends rest) : splitDigits (digits ++ rest) = (digits, rest) := by
  have hstop : rest.takeWhile Char.isDigit = [] ∧ rest.dropWhile Char.isDigit = rest := by
    cases rest with
    | nil => exact ⟨rfl, rfl⟩
    | cons c rest =>
      have hc := (ends_cons.1 hrest).1
      exact ⟨by rw [List.takeWhile_cons_of_neg (by simp [hc])],
        by rw [List.dropWhile_cons_of_neg (by simp [hc])]⟩
  rw [splitDigits, List.takeWhile_append_of_pos hdigits, List.dropWhile_append_of_pos hdigits,
    hstop.1, hstop.2, List.append_nil]

theorem isDigit_of_mem_toDigits {n : Nat} {c : Char} (h : c ∈ Nat.toDigits 10 n) :
    c.isDigit = true :=
  Nat.isDigit_of_mem_toDigits (by decide) (by decide) h

/-- A number has a first digit. -/
theorem exists_toDigits_eq_cons (n : Nat) :
    ∃ c digits, Nat.toDigits 10 n = c :: digits ∧ c.isDigit = true := by
  obtain ⟨c, digits, hdigits⟩ := List.exists_cons_of_ne_nil (Nat.toDigits_ne_nil (b := 10) (n := n))
  exact ⟨c, digits, hdigits, isDigit_of_mem_toDigits (hdigits ▸ List.mem_cons_self)⟩

theorem splitWhole_toDigits (n : Nat) {rest : List Char} (hrest : Ends rest) :
    splitWhole (Nat.toDigits 10 n ++ rest) = some (Nat.toDigits 10 n, rest) := by
  have hsplit := splitDigits_append (fun c => isDigit_of_mem_toDigits (n := n)) hrest
  rcases Nat.eq_zero_or_pos n with rfl | hn
  · rw [splitWhole, hsplit]
    rfl
  · have hhead := Decimal.head?_toDigits_ne_zero hn
    obtain ⟨c, digits, hdigits, -⟩ := exists_toDigits_eq_cons n
    rw [hdigits] at hsplit hhead ⊢
    -- A leading zero is refused unless it stands alone, but these digits have none.
    have hc : c ≠ '0' := fun hc => hhead (congrArg some hc)
    rw [splitWhole, hsplit]
    split
    · next h => simp at h
    · next h =>
      simp only [Prod.mk.injEq, List.cons.injEq] at h
      exact absurd h.1.1 hc
    · next h =>
      simp only [Prod.mk.injEq, List.cons.injEq] at h
      exact absurd h.1.1 hc
    · next h =>
      cases h
      rfl

theorem splitFraction_eq_none {rest : List Char} (hrest : Ends rest) :
    splitFraction rest = some (none, rest) := by
  unfold splitFraction
  split
  · exact absurd rfl (ends_cons.1 hrest).2.1
  · rfl

theorem splitExponent_eq_none {rest : List Char} (hrest : Ends rest) :
    splitExponent rest = some (none, rest) := by
  cases rest with
  | nil => rfl
  | cons c rest =>
    obtain ⟨-, -, hsmall, hcapital⟩ := ends_cons.1 hrest
    have hletter : ¬(c = 'e' ∨ c = 'E') := by simp [hsmall, hcapital]
    rw [splitExponent, if_neg hletter]

/-! ## Integers -/

/-- The numeral as which an integer is written. -/
def ofInt (n : Int) : Numeral :=
  ⟨n < 0, Nat.toDigits 10 n.natAbs, none, none⟩

/-- An integer that fits a word, unsigned, or signed if it is negative. -/
def Fits (n : Int) : Prop :=
  -(greatestNegated : Int) ≤ n ∧ n ≤ Word.maxValue

instance (n : Int) : Decidable (Fits n) :=
  inferInstanceAs (Decidable (_ ∧ _))

theorem toList_toString_nat (n : Nat) : (toString n).toList = Nat.toDigits 10 n := by
  rw [Nat.toString_eq_ofList_toDigits, String.toList_ofList]

/-- The minus sign of a negative integer, and nothing for the others. -/
def minus (n : Int) : List Char :=
  if n < 0 then ['-'] else []

theorem toList_toString (n : Int) :
    (toString n).toList = minus n ++ Nat.toDigits 10 n.natAbs := by
  cases n with
  | ofNat n => exact toList_toString_nat n
  | negSucc n =>
    show ("-" ++ toString (n + 1)).toList = _
    rw [String.toList_append, toList_toString_nat, minus, if_pos (Int.negSucc_lt_zero n)]
    rfl

theorem splitMinus_append (n : Int) {rest : List Char} :
    splitMinus (minus n ++ (Nat.toDigits 10 n.natAbs ++ rest)) =
      (decide (n < 0), Nat.toDigits 10 n.natAbs ++ rest) := by
  unfold minus
  split
  · next hneg => simp [splitMinus, hneg]
  · next hneg =>
    obtain ⟨c, digits, hdigits, hc⟩ := exists_toDigits_eq_cons n.natAbs
    simp only [hdigits, hneg, decide_false, List.nil_append, List.cons_append]
    unfold splitMinus
    split
    · next h =>
      cases h
      exact absurd hc (by decide)
    · rfl

/-- A character that an integer begins with. -/
def Begins (c : Char) : Prop :=
  c.isDigit = true ∨ c = '-'

instance (c : Char) : Decidable (Begins c) :=
  inferInstanceAs (Decidable (_ ∨ _))

theorem exists_toString_eq_cons (n : Int) :
    ∃ c chars, (toString n).toList = c :: chars ∧ Begins c := by
  rw [toList_toString, minus]
  split
  · exact ⟨'-', _, rfl, .inr rfl⟩
  · obtain ⟨c, digits, hdigits, hc⟩ := exists_toDigits_eq_cons n.natAbs
    exact ⟨c, digits, hdigits, .inl hc⟩

/-- A written integer is split off as a whole. -/
theorem split_toString (n : Int) {rest : List Char} (hrest : Ends rest) :
    split ((toString n).toList ++ rest) = some (ofInt n, rest) := by
  rw [toList_toString, List.append_assoc]
  simp only [split, splitMinus_append, splitWhole_toDigits n.natAbs hrest,
    splitFraction_eq_none hrest, splitExponent_eq_none hrest, Option.bind_eq_bind,
    Option.bind_some, Option.pure_def]
  rfl

/-- Digits are gathered without loss as long as they fit a word together. -/
theorem gather_eq_extend {held : Nat} {digits : List Char}
    (h : Decimal.extend held digits ≤ Word.maxValue) :
    gather held digits = (Decimal.extend held digits, []) := by
  induction digits generalizing held with
  | nil => rfl
  | cons c digits ih =>
    have hnext : 10 * held + Decimal.digitValue c ≤ Word.maxValue :=
      Nat.le_trans (Decimal.le_extend _ digits) h
    rw [gather, if_pos hnext]
    exact ih h

theorem value?_ofInt {n : Int} (h : Fits n) : (ofInt n).value? = some (.integer n) := by
  obtain ⟨hlow, hhigh⟩ := h
  have hword : n.natAbs ≤ Word.maxValue := by
    unfold greatestNegated at hlow
    unfold Word.maxValue at hhigh ⊢
    omega
  have hgather : gather 0 (Nat.toDigits 10 n.natAbs) = (n.natAbs, []) := by
    rw [gather_eq_extend (by rwa [Decimal.extend_toDigits]), Decimal.extend_toDigits]
  have hinteger : (ofInt n).integer? = some n := by
    by_cases hneg : n < 0
    · have habs : n.natAbs ≠ 0 ∧ n.natAbs ≤ greatestNegated := by omega
      simp only [integer?, ofInt, hgather, hneg, habs, decide_true, Bool.not_true,
        Bool.false_eq_true, if_false, and_self, if_true, ne_eq, not_false_eq_true]
      congr 1
      omega
    · simp only [integer?, ofInt, hgather, hneg, decide_false, Bool.not_false, if_true]
      congr 1
      omega
  rw [value?, hinteger]

end Document.Numeral

end TensorInference
