import Mathlib.Algebra.Group.Int.Defs
import Mathlib.Algebra.Group.Nat.Defs

/-!
# Packed numbers

A floating-point number is held packed, as bits, and is computed with as a sign, a mantissa and an
exponent.  Bits are unpacked to one of five sorts of numbers (`unpacks_unpack`).  Nothing is lost in
this, and what is unpacked is canonical: its exponent is the one that rounding aims at.  For this
reason a product with one, which is rounded as any product is, comes out as it went in.

* `canonical_unpack` --- unpacked numbers are canonical.
* `pack_unpack` --- they are packed as they were.
* `mul_of_canonical` --- products with one, whatever power of two it is written with.
* `zero_add_of_ne`, `lowest_lt_or_eq`, `lt_highest_or_eq` --- sums with zero, and comparisons with the
  infinities.
-/

namespace TensorInference

open Float.Model (Format UnpackedFloat totalExponent)
open Float.Model.UnpackedFloat

namespace Packed

variable {S : Format}

/-! ## Unpacking -/

theorem toNat_eq_zero_iff {n : Nat} {v : BitVec n} : v.toNat = 0 ↔ v = 0#_ := by
  rw [← BitVec.toNat_inj, BitVec.toNat_ofNat, Nat.zero_mod]

/-- The mantissa of a normal number has its leading bit put back. -/
theorem toNat_one_append (v : BitVec S.mantissaBitsWithoutImplicit) :
    (1#1 ++ v).toNat = 2 ^ S.mantissaBitsWithoutImplicit + v.toNat := by
  rw [BitVec.toNat_append, ← Nat.shiftLeft_add_eq_or_of_lt v.isLt, Nat.shiftLeft_eq,
    BitVec.toNat_ofNat, Nat.mod_eq_of_lt (by decide), Nat.one_mul]

theorem log2_one_append (v : BitVec S.mantissaBitsWithoutImplicit) :
    (1#1 ++ v).toNat.log2 = S.mantissaBitsWithoutImplicit := by
  have hlt := v.isLt
  rw [toNat_one_append]
  refine (Nat.log2_eq_iff (by omega)).2 ⟨by omega, ?_⟩
  rw [Nat.pow_succ]
  omega

theorem log2_toNat_lt {v : BitVec S.mantissaBitsWithoutImplicit} (hv : v ≠ 0#_) :
    v.toNat.log2 < S.mantissaBitsWithoutImplicit :=
  (Nat.log2_lt (mt toNat_eq_zero_iff.1 hv)).2 v.isLt

/-- The exponent of a number is the one that rounding aims at. -/
def Canonical (S : Format) : UnpackedFloat → Prop
  | .finite _ mantissa exponent _ => S.targetExponent (totalExponent mantissa exponent) = exponent
  | .infinity _ | .zero _ | .notANumber => True

theorem mantissaBits_eq (S : Format) : S.mantissaBits = 1 + S.mantissaBitsWithoutImplicit :=
  rfl

/-- The bias is one less than what separates the least exponent from it. -/
theorem minExponent_eq (S : Format) :
    S.minExponent = 1 - (S.exponentBias + S.mantissaBitsWithoutImplicit : Int) := by
  have hpos : 0 < 2 ^ (S.exponentBits - 1) := Nat.two_pow_pos _
  have hbias : (S.exponentBias : Int) = 2 ^ (S.exponentBits - 1) - 1 := by
    rw [Format.exponentBias, Int.ofNat_sub hpos, Int.natCast_pow]
    rfl
  rw [Format.minExponent, mantissaBits_eq, hbias]
  omega

/-- The sorts of numbers that bits are unpacked to, told apart by exponent and mantissa. -/
inductive Unpacks (b : BitVec S.numBits) : UnpackedFloat → Prop
  /-- The last exponent without a mantissa. -/
  | infinity (he : unpackExponent b = -1#_) (hm : unpackMantissa b = 0#_) :
    Unpacks b (.infinity (.ofBitVec (unpackSign b)))
  /-- The last exponent with a mantissa. -/
  | notANumber (he : unpackExponent b = -1#_) (hm : unpackMantissa b ≠ 0#_) :
    Unpacks b .notANumber
  /-- The first exponent without a mantissa. -/
  | zero (he : unpackExponent b = 0#_) (hm : unpackMantissa b = 0#_) :
    Unpacks b (.zero (.ofBitVec (unpackSign b)))
  /-- The first exponent with a mantissa, which counts as the second exponent. -/
  | subnormal (he : unpackExponent b = 0#_) (hm : unpackMantissa b ≠ 0#_)
    (hpos : 0 < (unpackMantissa b).toNat) :
    Unpacks b (.finite (.ofBitVec (unpackSign b)) (unpackMantissa b).toNat
      (1 - (S.exponentBias + S.mantissaBitsWithoutImplicit)) hpos)
  /-- Any other exponent, with a leading bit before the mantissa. -/
  | normal (hlast : unpackExponent b ≠ -1#_) (hfirst : unpackExponent b ≠ 0#_)
    (hpos : 0 < (1#1 ++ unpackMantissa b).toNat) :
    Unpacks b (.finite (.ofBitVec (unpackSign b)) (1#1 ++ unpackMantissa b).toNat
      ((unpackExponent b).toNat - (S.exponentBias + S.mantissaBitsWithoutImplicit)) hpos)

/-- Unpacking is opened here and nowhere else. -/
theorem unpacks_unpack (b : BitVec S.numBits) : Unpacks b (unpack S b) := by
  by_cases hlast : unpackExponent b = -1#_
  · by_cases hm : unpackMantissa b = 0#_
    · have h : unpack S b = .infinity (.ofBitVec (unpackSign b)) :=
        (if_pos hlast).trans (if_pos hm)
      rw [h]
      exact .infinity hlast hm
    · have h : unpack S b = .notANumber := (if_pos hlast).trans (if_neg hm)
      rw [h]
      exact .notANumber hlast hm
  · by_cases hfirst : unpackExponent b = 0#_
    · by_cases hm : unpackMantissa b = 0#_
      · have h : unpack S b = .zero (.ofBitVec (unpackSign b)) :=
          (if_neg hlast).trans ((if_pos hfirst).trans (dif_pos hm))
        rw [h]
        exact .zero hfirst hm
      · have hpos : 0 < (unpackMantissa b).toNat :=
          Nat.pos_of_ne_zero (mt toNat_eq_zero_iff.1 hm)
        have hexponent : ((unpackExponent b).toNat -
            (S.exponentBias + S.mantissaBitsWithoutImplicit) + 1 : Int) =
              1 - (S.exponentBias + S.mantissaBitsWithoutImplicit) := by
          rw [toNat_eq_zero_iff.2 hfirst]
          omega
        have h : unpack S b = .finite (.ofBitVec (unpackSign b)) (unpackMantissa b).toNat
            ((unpackExponent b).toNat - (S.exponentBias + S.mantissaBitsWithoutImplicit) + 1) hpos :=
          (if_neg hlast).trans ((if_pos hfirst).trans (dif_neg hm))
        rw [h, hexponent]
        exact .subnormal hfirst hm hpos
    · have hpos : 0 < (1#1 ++ unpackMantissa b).toNat := by
        rw [toNat_one_append]
        exact Nat.add_pos_left (Nat.two_pow_pos _) _
      have h : unpack S b = .finite (.ofBitVec (unpackSign b)) (1#1 ++ unpackMantissa b).toNat
          ((unpackExponent b).toNat - (S.exponentBias + S.mantissaBitsWithoutImplicit)) hpos :=
        (if_neg hlast).trans (if_neg hfirst)
      rw [h]
      exact .normal hlast hfirst hpos

theorem canonical_unpack (b : BitVec S.numBits) : Canonical S (unpack S b) := by
  have hbits := mantissaBits_eq S
  have hmin := minExponent_eq S
  have hunpacks := unpacks_unpack b
  generalize unpack S b = x at hunpacks ⊢
  cases hunpacks with
  | infinity he hm => trivial
  | notANumber he hm => trivial
  | zero he hm => trivial
  | subnormal he hm hpos =>
    have hlog := log2_toNat_lt hm
    show S.targetExponent (totalExponent _ _) = _
    rw [Format.targetExponent, totalExponent]
    omega
  | normal hlast hfirst hpos =>
    have hexponent := mt toNat_eq_zero_iff.1 hfirst
    show S.targetExponent (totalExponent _ _) = _
    rw [Format.targetExponent, totalExponent, log2_one_append]
    omega

/-! ## Packing again -/

theorem toBitVec_ofBitVec (b : BitVec 1) : (Sign.ofBitVec b).toBitVec = b := by
  decide +revert

/-- Bits are sign, exponent and mantissa, side by side. -/
theorem packComponents_unpack (b : BitVec S.numBits) :
    packComponents S (Sign.ofBitVec (unpackSign b)) (unpackExponent b) (unpackMantissa b) = b := by
  have hmantissa : unpackMantissa b = b.extractLsb' 0 S.mantissaBitsWithoutImplicit := by
    ext
    simp [unpackMantissa, BitVec.extractLsb]
  have hexponent : unpackExponent b =
      b.extractLsb' S.mantissaBitsWithoutImplicit S.exponentBits := by
    ext
    simp [unpackExponent, BitVec.extractLsb]
  have hsign : unpackSign b =
      b.extractLsb' (S.mantissaBitsWithoutImplicit + S.exponentBits) 1 := by
    ext
    unfold unpackSign
    simp [BitVec.extractLsb]
  rw [packComponents, toBitVec_ofBitVec, hsign, hexponent, hmantissa,
    BitVec.extractLsb'_append_extractLsb'_eq_extractLsb' rfl,
    BitVec.extractLsb'_append_extractLsb'_eq_extractLsb' (Nat.zero_add _).symm,
    BitVec.extractLsb'_eq_self]

/-- The exponent is raised by the bias, and what is below the normal numbers keeps none. -/
theorem pack_finite (s : Sign) (m : Nat) (e : Int) (h : 0 < m) :
    pack S (.finite s m e h) =
      if 2 ^ S.exponentBits ≤ (e + S.exponentBias + S.mantissaBitsWithoutImplicit).toNat + 1 then
        packedInfinity S s
      else if m.log2 + 1 = S.mantissaBits then
        packComponents S s
          (BitVec.ofNat _ (e + S.exponentBias + S.mantissaBitsWithoutImplicit).toNat)
          (BitVec.ofNat _ m)
      else packComponents S s 0#_ (BitVec.ofNat _ m) :=
  rfl

/-- A normal number is packed with its exponent, and without its leading bit. -/
theorem pack_normal {v : BitVec S.mantissaBitsWithoutImplicit} {e : BitVec S.exponentBits}
    (he : e ≠ -1#_) (s : Sign) (h : 0 < (1#1 ++ v).toNat) :
    pack S (.finite s (1#1 ++ v).toNat
      (e.toNat - (S.exponentBias + S.mantissaBitsWithoutImplicit)) h) = packComponents S s e v := by
  have hexponent : ((e.toNat - (S.exponentBias + S.mantissaBitsWithoutImplicit) : Int) +
      S.exponentBias + S.mantissaBitsWithoutImplicit).toNat = e.toNat := by omega
  have hbelow : ¬2 ^ S.exponentBits ≤ e.toNat + 1 := by
    have hlt := e.isLt
    have hne : e.toNat ≠ 2 ^ S.exponentBits - 1 := fun h =>
      he (BitVec.eq_of_toNat_eq (by rw [h, BitVec.neg_one_eq_allOnes, BitVec.toNat_allOnes]))
    omega
  have hmantissa : S.mantissaBitsWithoutImplicit + 1 = S.mantissaBits := by
    rw [mantissaBits_eq, Nat.add_comm]
  have hfirst : BitVec.ofNat S.mantissaBitsWithoutImplicit (1#1 ++ v).toNat = v := by
    rw [toNat_one_append]
    exact BitVec.eq_of_toNat_eq (by simp [Nat.mod_eq_of_lt v.isLt])
  rw [pack_finite, hexponent, if_neg hbelow, log2_one_append, if_pos hmantissa, hfirst,
    BitVec.ofNat_toNat, BitVec.setWidth_eq]

/-- A number below the normal ones is packed with the first exponent, though its own is that of the
second.  With a single bit for exponents, the second would be the last. -/
theorem pack_subnormal (hbits : 2 ≤ S.exponentBits) {v : BitVec S.mantissaBitsWithoutImplicit}
    (hv : v ≠ 0#_) (s : Sign) (h : 0 < v.toNat) :
    pack S (.finite s v.toNat (1 - (S.exponentBias + S.mantissaBitsWithoutImplicit)) h) =
      packComponents S s 0#_ v := by
  have hexponent : ((1 - (S.exponentBias + S.mantissaBitsWithoutImplicit) : Int) +
      S.exponentBias + S.mantissaBitsWithoutImplicit).toNat = 1 := by omega
  have hbelow : ¬2 ^ S.exponentBits ≤ 1 + 1 := by
    have hpow : 2 ^ 2 ≤ 2 ^ S.exponentBits := Nat.pow_le_pow_right (by decide) hbits
    omega
  have hmantissa : v.toNat.log2 + 1 ≠ S.mantissaBits := by
    have hlog := log2_toNat_lt hv
    rw [mantissaBits_eq]
    omega
  rw [pack_finite, hexponent, if_neg hbelow, if_neg hmantissa, BitVec.ofNat_toNat,
    BitVec.setWidth_eq]

/-- Nothing is lost when a number is unpacked. -/
theorem pack_unpack (hbits : 2 ≤ S.exponentBits) {b : BitVec S.numBits} (hb : S.Valid b) :
    pack S (unpack S b) = b := by
  have hparts := packComponents_unpack b
  have hunpacks := unpacks_unpack b
  generalize unpack S b = x at hunpacks ⊢
  cases hunpacks with
  | infinity he hm =>
    rw [he, hm] at hparts
    exact hparts
  | notANumber he hm => exact (hb.eq_packedNaN he hm).symm
  | zero he hm =>
    rw [he, hm] at hparts
    exact hparts
  | subnormal he hm hpos =>
    rw [he] at hparts
    exact (pack_subnormal hbits hm _ hpos).trans hparts
  | normal hlast hfirst hpos => exact (pack_normal hlast _ hpos).trans hparts

/-! ## Rounding -/

/-- Halving drops nothing from a multiple of a power of two. -/
theorem shiftRight_eq (n m : Nat) :
    ExtendedMantissa.mk (2 ^ n * m) false false >>> n = ⟨m, false, false⟩ := by
  show n.repeat ExtendedMantissa.shiftRightOne ⟨2 ^ n * m, false, false⟩ = _
  induction n generalizing m with
  | zero => rw [Nat.pow_zero, Nat.one_mul, Nat.repeat]
  | succ n ih =>
    rw [Nat.repeat, Nat.pow_succ, Nat.mul_assoc, ih, ExtendedMantissa.shiftRightOne]
    simp

theorem log2_two_pow_mul {m : Nat} (hm : m ≠ 0) (n : Nat) :
    (2 ^ n * m).log2 = n + m.log2 := by
  induction n with
  | zero => rw [Nat.pow_zero, Nat.one_mul, Nat.zero_add]
  | succ n ih =>
    have hne : 2 ^ n * m ≠ 0 := Nat.mul_ne_zero (Nat.ne_of_gt (Nat.two_pow_pos n)) hm
    rw [Nat.pow_succ', Nat.mul_assoc, Nat.log2_two_mul hne, ih, Nat.add_right_comm]

/-- Rounding finds the canonical exponent again, and what it shifts away is zero. -/
theorem shiftToTargetExponent_two_pow_mul {m : Nat} {e : Int} (hm : 0 < m)
    (hcanonical : S.targetExponent (totalExponent m e) = e) (n : Nat) :
    shiftToTargetExponent S (2 ^ n * m) (-n + e) .exact = (⟨m, false, false⟩, e) := by
  have htotal : totalExponent (2 ^ n * m) (-n + e) = totalExponent m e := by
    rw [totalExponent, totalExponent, log2_two_pow_mul (Nat.ne_of_gt hm)]
    omega
  have hamount : (e - (-n + e)).toNat = n := by omega
  have hexponent : -(n : Int) + e + n = e := by omega
  rw [shiftToTargetExponent, htotal, hcanonical, shiftToExponent]
  simp only [hamount, hexponent, ExtendedMantissa.ofMantissaAndAccuracy, shiftRight_eq]

theorem roundWithAccuracy_two_pow_mul {m : Nat} {e : Int} (hm : 0 < m)
    (hcanonical : S.targetExponent (totalExponent m e) = e) (s : Sign) (n : Nat) :
    roundWithAccuracy S s (2 ^ n * m) (-n + e) .exact = .finite s m e hm := by
  have hstay := shiftToTargetExponent_two_pow_mul hm hcanonical 0
  rw [Nat.pow_zero, Nat.one_mul, Int.natCast_zero, Int.neg_zero, Int.zero_add] at hstay
  have hrounded : (ExtendedMantissa.mk m false false).roundedMantissa = m := rfl
  unfold roundWithAccuracy
  rw [shiftToTargetExponent_two_pow_mul hm hcanonical n]
  dsimp only
  rw [hrounded, hstay, dif_neg (Nat.ne_of_gt hm)]

/-- **A product with one** is rounded to the other factor. -/
theorem mul_of_canonical {x : UnpackedFloat} (hx : Canonical S x) (n : Nat) (h : 0 < 2 ^ n) :
    mul S (.finite .positive (2 ^ n) (-n) h) x = x := by
  cases x with
  | finite s m e hm =>
    have hsign : Sign.positive * s = s := by cases s <;> rfl
    show roundWithAccuracy S (.positive * s) (2 ^ n * m) (-n + e) .exact = _
    rw [roundWithAccuracy_two_pow_mul hm hx, hsign]
  | infinity s => cases s <;> rfl
  | zero s => cases s <;> rfl
  | notANumber => rfl

/-! ## Sums and comparisons -/

theorem zero_add_of_ne {x : UnpackedFloat} (hx : x ≠ .zero .negative) :
    add S (.zero .positive) x = x := by
  cases x with
  | zero s =>
    cases s with
    | positive => rfl
    | negative => exact absurd rfl hx
  | _ => rfl

theorem eq_notANumber {x : UnpackedFloat} (hx : x.isNaN = true) : x = .notANumber := by
  cases x with
  | notANumber => rfl
  | _ => cases hx

/-- A number is above negative infinity, unless it is that itself. -/
theorem lowest_lt_or_eq {x : UnpackedFloat} (hx : x.isNaN = false) :
    UnpackedFloat.lt (.infinity .negative) x = true ∨ x = .infinity .negative := by
  cases x with
  | infinity s =>
    cases s with
    | positive => exact .inl rfl
    | negative => exact .inr rfl
  | notANumber => cases hx
  | _ => exact .inl rfl

/-- A number is below infinity, unless it is that itself. -/
theorem lt_highest_or_eq {x : UnpackedFloat} (hx : x.isNaN = false) :
    UnpackedFloat.lt x (.infinity .positive) = true ∨ x = .infinity .positive := by
  cases x with
  | infinity s =>
    cases s with
    | positive => exact .inr rfl
    | negative => exact .inl rfl
  | notANumber => cases hx
  | _ => exact .inl rfl

end Packed

end TensorInference
