import TensorInference.Proofs.Reduction.Identity
import TensorInference.Proofs.Reduction.Packed

/-!
# Combining rounded numbers with an identity

The start of a reduction is neutral for most rounded numbers, but not for all.  A maximum or a minimum
passes over what is not a number and so keeps its start, an infinity.  A sum that starts from zero
loses the sign of a zero.  A product with one is rounded to the other factor.

* `Rounded` --- numbers that are held packed and computed with unpacked.
* `StoredType.combine_identity` --- which numbers a reduction leaves alone.
-/

namespace TensorInference

open Float.Model (Format UnpackedFloat totalExponent)
open Float.Model.UnpackedFloat

/-! ## Types of rounded numbers -/

/-- Numbers that are held packed and computed with unpacked. -/
class Rounded (α : Type) [Add α] [Mul α] [LT α] where
  format : Format
  unpack : α → UnpackedFloat
  pack : UnpackedFloat → α
  pack_unpack : ∀ a, pack (unpack a) = a
  canonical : ∀ a, Packed.Canonical format (unpack a)
  add_eq : ∀ a b, a + b = pack (UnpackedFloat.add format (unpack a) (unpack b))
  mul_eq : ∀ a b, a * b = pack (UnpackedFloat.mul format (unpack a) (unpack b))
  lt_iff : ∀ a b, a < b ↔ UnpackedFloat.lt (unpack a) (unpack b) = true

namespace Rounded

instance : Rounded Float32 where
  format := .binary32
  unpack a := a.toModel.unpack
  pack x := .ofModel (.pack x)
  pack_unpack := by
    rintro ⟨bits, hvalid⟩
    have hbits : (Float32.Model.pack (Float32.Model.unpack ⟨bits, hvalid⟩)).toBits = bits :=
      UInt32.eq_of_toBitVec_eq (Packed.pack_unpack (by decide) hvalid)
    exact congrArg Float32.ofModel ((Float32.Model.mk.injEq _ _ _ _).mpr hbits)
  canonical a := Packed.canonical_unpack _
  add_eq _ _ := rfl
  mul_eq _ _ := rfl
  lt_iff _ _ := decide_eq_true_iff

instance : Rounded Float where
  format := .binary64
  unpack a := a.toModel.unpack
  pack x := .ofModel (.pack x)
  pack_unpack := by
    rintro ⟨bits, hvalid⟩
    have hbits : (Float.Model.pack (Float.Model.unpack ⟨bits, hvalid⟩)).toBits = bits :=
      UInt64.eq_of_toBitVec_eq (Packed.pack_unpack (by decide) hvalid)
    exact congrArg Float.ofModel ((Float.Model.mk.injEq _ _ _ _).mpr hbits)
  canonical a := Packed.canonical_unpack _
  add_eq _ _ := rfl
  mul_eq _ _ := rfl
  lt_iff _ _ := decide_eq_true_iff

variable {α : Type} [Add α] [Mul α] [LT α] [Rounded α]

theorem unpack_injective {a b : α} (h : unpack a = unpack b) : a = b := by
  rw [← pack_unpack a, h, pack_unpack]

/-- What a reduction does not see, or takes for its start. -/
def IsLost (r : Reduction) (a : α) : Prop :=
  match r with
  | .max | .min => (unpack a).isNaN = true
  | .sum => unpack a = .zero .negative
  | .prod | .logicalAnd | .logicalOr => False

/-- A choice that never falls on what is not a number. -/
theorem ite_start {start a : α} {p : Prop} [Decidable p] (hstart : (unpack start).isNaN = false)
    (hnumber : (unpack a).isNaN = false → p ∨ unpack a = unpack start)
    (hlost : unpack a = .notANumber → ¬p) :
    ¬(unpack a).isNaN = true ∧ (if p then a else start) = a ∨
      (unpack a).isNaN = true ∧ (if p then a else start) = start ∧ start ≠ a := by
  cases hnan : (unpack a).isNaN with
  | false =>
    refine .inl ⟨Bool.false_ne_true, ?_⟩
    rcases hnumber hnan with hp | hsame
    · exact if_pos hp
    · rw [unpack_injective hsame, ite_self]
  | true =>
    refine .inr ⟨rfl, if_neg (hlost (Packed.eq_notANumber hnan)), ?_⟩
    rintro rfl
    exact Bool.false_ne_true (hstart.symm.trans hnan)

variable [DecidableLT α] {lowest highest zero one : α} {n : Nat} {hn : 0 < 2 ^ n}

/-- The start of a reduction is neutral, except that it takes the place of what is lost. -/
theorem combine_identity (hlowest : unpack lowest = .infinity .negative)
    (hhighest : unpack highest = .infinity .positive) (hzero : unpack zero = .zero .positive)
    (hone : unpack one = .finite .positive (2 ^ n) (-n) hn) {r : Reduction} {c : Combiner α}
    (h : Combiner.numeric? lowest highest zero one r = some c) (a : α) :
    ¬IsLost r a ∧ c.combine c.identity a = a ∨
      IsLost r a ∧ c.combine c.identity a = c.identity ∧ c.identity ≠ a := by
  cases r with
  | max =>
    obtain rfl := Option.some.inj h
    refine ite_start (by rw [hlowest]; rfl) (fun hnan => ?_) fun hlost => ?_
    · rw [lt_iff, hlowest]
      exact Packed.lowest_lt_or_eq hnan
    · rw [lt_iff, hlowest, hlost]
      exact Bool.false_ne_true
  | min =>
    obtain rfl := Option.some.inj h
    refine ite_start (by rw [hhighest]; rfl) (fun hnan => ?_) fun hlost => ?_
    · rw [lt_iff, hhighest]
      exact Packed.lt_highest_or_eq hnan
    · rw [lt_iff, hhighest, hlost]
      exact Bool.false_ne_true
  | sum =>
    obtain rfl := Option.some.inj h
    show ¬unpack a = .zero .negative ∧ zero + a = a ∨
      unpack a = .zero .negative ∧ zero + a = zero ∧ zero ≠ a
    by_cases hlost : unpack a = .zero .negative
    · refine .inr ⟨hlost, ?_, ?_⟩
      · rw [add_eq, hzero, hlost, ← pack_unpack zero, hzero]
        rfl
      · rintro rfl
        cases hzero.symm.trans hlost
    · refine .inl ⟨hlost, ?_⟩
      rw [add_eq, hzero, Packed.zero_add_of_ne hlost, pack_unpack]
  | prod =>
    obtain rfl := Option.some.inj h
    refine .inl ⟨not_false, ?_⟩
    show one * a = a
    rw [mul_eq, hone, Packed.mul_of_canonical (canonical a), pack_unpack]
  | logicalAnd => cases h
  | logicalOr => cases h

end Rounded

/-! ## All types -/

namespace StoredType

/-- What a reduction does not see, or takes for its start. -/
def IsLost : (σ : StoredType) → Reduction → σ.Value → Prop
  | exact _, _, _ => False
  | f32, r, a => Rounded.IsLost (α := Float32) r a
  | f64, r, a => Rounded.IsLost (α := Float) r a

/-- **The start of a reduction is neutral, except that it takes the place of what is lost.** -/
theorem combine_identity {σ : StoredType} {r : Reduction} {c : Combiner σ.Value}
    (h : Element.combiner? r = some c) (a : σ.Value) :
    ¬σ.IsLost r a ∧ c.combine c.identity a = a ∨
      σ.IsLost r a ∧ c.combine c.identity a = c.identity ∧ c.identity ≠ a := by
  cases σ with
  | exact τ => exact .inl ⟨not_false, (ExactType.isCommMonoid h).identity_combine a⟩
  | f32 =>
    exact Rounded.combine_identity (α := Float32) (n := 23) rfl rfl rfl rfl h a
  | f64 =>
    exact Rounded.combine_identity (α := Float) (n := 52) rfl rfl rfl rfl h a

end StoredType

end TensorInference
