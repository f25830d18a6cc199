import Mathlib.Data.Int.ModEq
import TensorInference.Proofs.Reduction.Laws
import TensorInference.Proofs.Unification

/-!
# Reductions without rounding are exact

A fold of integers of a fixed width wraps at every step, and still it ends with the one value that the
sum or the product of the integers themselves leaves modulo a power of two.  The reason is that wrapping
respects sums and products, and that the integers which are wrapped to one value are those of one
residue class (`FixedInt.toInt_modEq_iff`).  This follows from the laws of a type of integers as soon as
the type has as many values as its width allows.  Maxima and minima do not wrap, and folds of truth
values are what they are called.

Since order and grouping do not matter, a `Bracketing` of the elements ends with the same value as the
fold, in whatever order they stand and however often the identity stands between them.

* `FixedInt.toInt_modEq_iff` --- wrapping.
* `ExactType.IsExact`, `ExactType.isExact_iff` --- the exact reductions, and that folds are these.
* `Combiner.IsCommMonoid.combine_eq_fold_of_perm` --- other ways to go through the elements.
-/

namespace TensorInference

/-! ## Wrapping -/

namespace FixedInt

/-- The number of bits of a type of integers. -/
def width (α : Type) [FixedInt α] : Nat :=
  ((elementType α).attributes?.map (·.bitwidth)).getD 0

/-- The number of values that so many bits can have. -/
def modulus (α : Type) [FixedInt α] : Int :=
  2 ^ width α

/-- A type of integers has as many values as its width allows. -/
class FillsWidth (α : Type) [FixedInt α] : Prop where
  greatest_eq : greatest α = least α + modulus α - 1

instance : FillsWidth Int8 := ⟨rfl⟩
instance : FillsWidth Int16 := ⟨rfl⟩
instance : FillsWidth Int32 := ⟨rfl⟩
instance : FillsWidth Int64 := ⟨rfl⟩
instance : FillsWidth UInt8 := ⟨rfl⟩
instance : FillsWidth UInt16 := ⟨rfl⟩
instance : FillsWidth UInt32 := ⟨rfl⟩
instance : FillsWidth UInt64 := ⟨rfl⟩

variable {α : Type} [FixedInt α] [Add α] [Mul α] [LT α] [LawfulFixedInt α] [FillsWidth α]

theorem modulus_pos (α : Type) [FixedInt α] : 0 < modulus α :=
  Int.pow_pos (by decide)

omit [FillsWidth α] in
theorem ofInt_add_congr {m n : Int} (h : (ofInt m : α) = ofInt n) (k : Int) :
    (ofInt (m + k) : α) = ofInt (n + k) := by
  rw [LawfulFixedInt.ofInt_add, h, ← LawfulFixedInt.ofInt_add]

/-- Integers that are a modulus apart are wrapped to the same value. -/
theorem ofInt_add_modulus (n : Int) : (ofInt (n + modulus α) : α) = ofInt n := by
  have hfill := FillsWidth.greatest_eq (α := α)
  -- One more than the greatest integer is wrapped to the same value as an integer `d` below it.
  obtain ⟨low, hlow⟩ : ∃ low, toInt (ofInt (greatest α + 1) : α) = low := ⟨_, rfl⟩
  obtain ⟨d, hd⟩ : ∃ d, low + d = greatest α + 1 := ⟨greatest α + 1 - low, by omega⟩
  have hle := least_le_toInt (ofInt (greatest α + 1) : α)
  have hge := toInt_le_greatest (ofInt (greatest α + 1) : α)
  have hsame : (ofInt (low + d) : α) = ofInt low := by
    rw [hd, ← hlow, ofInt_toInt]
  have hshift (k : Int) : (ofInt (k + d) : α) = ofInt k := by
    have hadd := ofInt_add_congr hsame (k - low)
    rwa [show low + d + (k - low) = k + d by omega, show low + (k - low) = k by omega] at hadd
  -- A shorter distance would make two integers between the bounds one value.
  have hmodulus : d = modulus α := by
    by_contra hne
    have hleast := congrArg toInt (hshift (least α))
    rw [toInt_ofInt _ (by omega) (by omega), toInt_ofInt_least] at hleast
    omega
  rw [← hmodulus, hshift]

theorem ofInt_add_modulus_mul (n k : Int) : (ofInt (n + modulus α * k) : α) = ofInt n := by
  induction k using Int.induction_on with
  | zero => rw [Int.mul_zero, Int.add_zero]
  | succ k ih =>
    rw [Int.mul_add, Int.mul_one, ← Int.add_assoc, ofInt_add_modulus]
    exact ih
  | pred k ih =>
    rw [Int.mul_sub, Int.mul_one, ← ofInt_add_modulus, ← Int.add_sub_assoc, Int.sub_add_cancel]
    exact ih

theorem ofInt_eq_of_modEq {m n : Int} (h : m ≡ n [ZMOD modulus α]) :
    (ofInt m : α) = ofInt n := by
  obtain ⟨k, hk⟩ := h.dvd
  obtain rfl : n = m + modulus α * k := by omega
  exact (ofInt_add_modulus_mul m k).symm

/-- **The integers that are wrapped to a value are those of its residue class.** -/
theorem toInt_modEq_iff {a : α} {n : Int} : toInt a ≡ n [ZMOD modulus α] ↔ a = ofInt n := by
  constructor
  · intro h
    rw [← ofInt_toInt a]
    exact ofInt_eq_of_modEq h
  · rintro rfl
    -- The residue class has a member between the bounds.
    have hpos := modulus_pos α
    have hfill := FillsWidth.greatest_eq (α := α)
    have hlow := Int.emod_nonneg (n - least α) (Int.ne_of_gt hpos)
    have hhigh := Int.emod_lt_of_pos (n - least α) hpos
    have hmember : least α + (n - least α) % modulus α ≡ n [ZMOD modulus α] := by
      have hresidue := (Int.mod_modEq (n - least α) (modulus α)).add_left (least α)
      rwa [add_sub_cancel] at hresidue
    rw [← ofInt_eq_of_modEq hmember, toInt_ofInt _ (by omega) (by omega)]
    exact hmember

end FixedInt

/-! ## Other ways through the elements -/

variable {α : Type}

namespace Bracketing

/-- Combines all items. -/
def combine (c : Combiner α) : Bracketing α → α
  | item a => a
  | pair left right => c.combine (left.combine c) (right.combine c)

end Bracketing

namespace Combiner

variable {c : Combiner α}

namespace IsCommMonoid

theorem fold_singleton (h : c.IsCommMonoid) (a : α) : c.fold [a] = a :=
  h.identity_combine a

theorem combine_eq_fold (h : c.IsCommMonoid) (s : Bracketing α) :
    s.combine c = c.fold s.items := by
  induction s with
  | item a => exact (h.fold_singleton a).symm
  | pair left right ihleft ihright =>
    rw [Bracketing.combine, Bracketing.items, h.fold_append, ihleft, ihright]

theorem fold_replicate_identity (h : c.IsCommMonoid) (n : Nat) :
    c.fold (List.replicate n c.identity) = c.identity := by
  induction n with
  | zero => rfl
  | succ n ih => rw [List.replicate_succ, h.fold_cons, ih, h.identity_combine]

/-- Whatever the order and the grouping of the elements, and however many identities stand between
them, they combine to their fold. -/
theorem combine_eq_fold_of_perm (h : c.IsCommMonoid) {l : List α} {n : Nat} {s : Bracketing α}
    (hs : s.items.Perm (List.replicate n c.identity ++ l)) : s.combine c = c.fold l := by
  rw [h.combine_eq_fold, h.fold_perm hs, h.fold_append, h.fold_replicate_identity,
    h.identity_combine]

end IsCommMonoid

/-! ## Truth values -/

/-- What a logical reduction of truth values is. -/
def IsExactTruth (r : Reduction) (l : List Bool) (a : Bool) : Prop :=
  match r with
  | .logicalAnd => a = true ↔ ∀ b ∈ l, b = true
  | .logicalOr => a = true ↔ ∃ b ∈ l, b = true
  | .max | .min | .sum | .prod => False

/-- Folds of truth values are what they are called, and nothing else is. -/
theorem isExactTruth_iff {r : Reduction} {c : Combiner Bool} (h : logical? r = some c)
    {l : List Bool} {a : Bool} : IsExactTruth r l a ↔ a = c.fold l := by
  have hlaws := logical?_isCommMonoid h
  cases r with
  | logicalAnd =>
    obtain rfl := Option.some.inj h
    have hfold : fold ⟨true, fun held value => held && value⟩ l = true ↔ ∀ b ∈ l, b = true := by
      induction l with
      | nil => exact iff_of_true rfl nofun
      | cons b l ih => rw [hlaws.fold_cons, Bool.and_eq_true, ih, List.forall_mem_cons]
    exact (iff_congr Iff.rfl hfold.symm).trans Bool.eq_iff_iff.symm
  | logicalOr =>
    obtain rfl := Option.some.inj h
    have hfold : fold ⟨false, fun held value => held || value⟩ l = true ↔ ∃ b ∈ l, b = true := by
      induction l with
      | nil => exact iff_of_false nofun nofun
      | cons b l ih => rw [hlaws.fold_cons, Bool.or_eq_true, ih, List.exists_mem_cons_iff]
    exact (iff_congr Iff.rfl hfold.symm).trans Bool.eq_iff_iff.symm
  | max => cases h
  | min => cases h
  | sum => cases h
  | prod => cases h

/-! ## Highest values -/

/-- A fold that takes the higher of two values ends with the highest. -/
theorem highest_fold (hc : c.IsCommMonoid) {height : α → Int}
    (hinj : ∀ a b, height a = height b → a = b)
    (hcombine : ∀ a b, height (c.combine a b) = max (height a) (height b)) {l : List α}
    (hl : l ≠ []) : c.fold l ∈ l ∧ ∀ b ∈ l, height b ≤ height (c.fold l) := by
  induction l with
  | nil => exact absurd rfl hl
  | cons a l ih =>
    rcases eq_or_ne l [] with rfl | hne
    · rw [hc.fold_singleton]
      exact ⟨List.mem_singleton_self a, fun b hb => by rw [List.mem_singleton.1 hb]⟩
    · obtain ⟨hmem, hle⟩ := ih hne
      have hmax := hcombine a (c.fold l)
      rw [hc.fold_cons, List.forall_mem_cons]
      refine ⟨?_, by omega, fun b hb => Int.le_trans (hle b hb) (by omega)⟩
      rcases Int.le_total (height a) (height (c.fold l)) with h | h
      · rw [hinj (c.combine a (c.fold l)) (c.fold l) (by omega)]
        exact List.mem_cons_of_mem _ hmem
      · rw [hinj (c.combine a (c.fold l)) a (by omega)]
        exact List.mem_cons_self

/-- Nothing else is the highest, or is the identity where there is nothing. -/
theorem highest_iff_eq_fold (hc : c.IsCommMonoid) {height : α → Int}
    (hinj : ∀ a b, height a = height b → a = b)
    (hcombine : ∀ a b, height (c.combine a b) = max (height a) (height b)) {l : List α} {a : α} :
    (l = [] ∧ height a = height c.identity) ∨ (a ∈ l ∧ ∀ b ∈ l, height b ≤ height a) ↔
      a = c.fold l := by
  rcases eq_or_ne l [] with rfl | hne
  · constructor
    · rintro (⟨-, ha⟩ | ⟨hmem, -⟩)
      · exact hinj _ _ ha
      · exact absurd hmem List.not_mem_nil
    · rintro rfl
      exact .inl ⟨rfl, rfl⟩
  · obtain ⟨hmem, hle⟩ := highest_fold hc hinj hcombine hne
    constructor
    · rintro (⟨hnil, -⟩ | ⟨hmem', hle'⟩)
      · exact absurd hnil hne
      · exact hinj _ _ (Int.le_antisymm (hle a hmem') (hle' _ hmem))
    · rintro rfl
      exact .inr ⟨hmem, hle⟩

/-! ## Integers -/

section Integer

open FixedInt

variable [FixedInt α]

/-- What a reduction of integers of a fixed width is: the residue of the sum or of the product, the
greatest or the least element, or a bound of the type where there is no element. -/
def IsExactInteger (r : Reduction) (l : List α) (a : α) : Prop :=
  match r with
  | .sum => toInt a ≡ (l.map toInt).sum [ZMOD modulus α]
  | .prod => toInt a ≡ (l.map toInt).prod [ZMOD modulus α]
  | .max => (l = [] ∧ toInt a = least α) ∨ a ∈ l ∧ ∀ b ∈ l, toInt b ≤ toInt a
  | .min => (l = [] ∧ toInt a = greatest α) ∨ a ∈ l ∧ ∀ b ∈ l, toInt a ≤ toInt b
  | .logicalAnd | .logicalOr => False

/-- A fold wraps once as it wraps at every step. -/
theorem fold_eq_ofInt (hc : c.IsCommMonoid) {op : Int → Int → Int} {e : Int}
    (he : c.identity = ofInt e) (hop : ∀ m n, ofInt (op m n) = c.combine (ofInt m) (ofInt n))
    (l : List α) : c.fold l = ofInt ((l.map toInt).foldr op e) := by
  induction l with
  | nil => exact he
  | cons a l ih => rw [hc.fold_cons, ih, List.map_cons, List.foldr_cons, hop, ofInt_toInt]

variable [Add α] [Mul α] [LT α] [DecidableLT α] [LawfulFixedInt α] [FillsWidth α]

/-- **Folds of integers are exact**, and no other value is. -/
theorem isExactInteger_iff {r : Reduction} (h : integer? r = some c) {l : List α} {a : α} :
    IsExactInteger r l a ↔ a = c.fold l := by
  have hlaws := integer?_isCommMonoid h
  cases r with
  | sum =>
    obtain rfl := Option.some.inj h
    have hfold := fold_eq_ofInt hlaws rfl LawfulFixedInt.ofInt_add l
    rw [hfold]
    exact toInt_modEq_iff
  | prod =>
    obtain rfl := Option.some.inj h
    have hfold := fold_eq_ofInt hlaws rfl LawfulFixedInt.ofInt_mul l
    rw [hfold]
    exact toInt_modEq_iff
  | max =>
    obtain rfl := Option.some.inj h
    have hfold := highest_iff_eq_fold hlaws toInt_injective toInt_ite_max (l := l) (a := a)
    rwa [toInt_ofInt_least] at hfold
  | min =>
    obtain rfl := Option.some.inj h
    -- The least of the values is the highest of the opposites.
    have hinj (a b : α) (hab : -toInt a = -toInt b) : a = b :=
      toInt_injective a b (Int.neg_inj.1 hab)
    have hmin (a b : α) : -toInt (if b < a then b else a) = max (-toInt a) (-toInt b) := by
      rw [toInt_ite_min]
      omega
    have hfold := highest_iff_eq_fold hlaws hinj hmin (l := l) (a := a)
    simp only [neg_inj, toInt_ofInt_greatest, neg_le_neg_iff] at hfold
    exact hfold
  | logicalAnd => cases h
  | logicalOr => cases h

end Integer

end Combiner

/-! ## The types without rounding -/

namespace ExactType

open Combiner

/-- What a reduction of values without rounding is. -/
def IsExact : (τ : ExactType) → Reduction → List τ.Value → τ.Value → Prop
  | boolean => IsExactTruth
  | i8 => IsExactInteger (α := Int8)
  | i16 => IsExactInteger (α := Int16)
  | i32 => IsExactInteger (α := Int32)
  | i64 => IsExactInteger (α := Int64)
  | u8 => IsExactInteger (α := UInt8)
  | u16 => IsExactInteger (α := UInt16)
  | u32 => IsExactInteger (α := UInt32)
  | u64 => IsExactInteger (α := UInt64)

/-- Folds of values without rounding are exact, and no other value is. -/
theorem isExact_iff {τ : ExactType} {r : Reduction} {c : Combiner τ.Value}
    (h : Element.combiner? r = some c) {l : List τ.Value} {a : τ.Value} :
    τ.IsExact r l a ↔ a = c.fold l := by
  cases τ with
  | boolean => exact isExactTruth_iff h
  | i8 => exact isExactInteger_iff (α := Int8) h
  | i16 => exact isExactInteger_iff (α := Int16) h
  | i32 => exact isExactInteger_iff (α := Int32) h
  | i64 => exact isExactInteger_iff (α := Int64) h
  | u8 => exact isExactInteger_iff (α := UInt8) h
  | u16 => exact isExactInteger_iff (α := UInt16) h
  | u32 => exact isExactInteger_iff (α := UInt32) h
  | u64 => exact isExactInteger_iff (α := UInt64) h

end ExactType

end TensorInference
