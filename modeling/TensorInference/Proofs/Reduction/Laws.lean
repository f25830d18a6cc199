import Mathlib.Data.List.Perm.Basic
import TensorInference.Reduction.Combiner

/-!
# Combining in any order

If combining is commutative and associative and the identity adds nothing, the elements of a list can
be taken in any order (`fold_perm`) and in any groups (`fold_groups`), and a group of none counts for
nothing.  Floating-point sums have no such laws, since every sum rounds, and floating-point maxima have
none either, since not every pair of floats compares.  Booleans and integers have them.

For an integer type the laws are those of the integers themselves, carried over: sums and products
along `ofInt`, which wraps and meets every value, maxima and minima along `toInt`, which keeps the
order and tells all values apart.

* `Combiner.integer?_isCommMonoid`, `Combiner.logical?_isCommMonoid` --- the laws.
* `ExactType` --- the types that have them, as one family.
-/

namespace TensorInference

namespace Combiner

variable {α : Type} {c : Combiner α}

/-- Order and grouping do not matter, and the identity adds nothing. -/
structure IsCommMonoid (c : Combiner α) : Prop where
  identity_combine : ∀ a, c.combine c.identity a = a
  comm : ∀ a b, c.combine a b = c.combine b a
  assoc : ∀ a b d, c.combine (c.combine a b) d = c.combine a (c.combine b d)

/-! ## Folds -/

namespace IsCommMonoid

theorem fold_cons (h : c.IsCommMonoid) (a : α) (l : List α) :
    c.fold (a :: l) = c.combine a (c.fold l) := by
  have : Std.Associative c.combine := ⟨h.assoc⟩
  calc c.fold (a :: l)
      = l.foldl c.combine (c.combine c.identity a) := rfl
    _ = l.foldl c.combine (c.combine a c.identity) := by rw [h.comm]
    _ = c.combine a (c.fold l) := List.foldl_assoc

theorem fold_append (h : c.IsCommMonoid) (l l' : List α) :
    c.fold (l ++ l') = c.combine (c.fold l) (c.fold l') := by
  induction l with
  | nil => exact (h.identity_combine _).symm
  | cons a l ih => rw [List.cons_append, h.fold_cons, h.fold_cons, ih, h.assoc]

/-- Elements can be taken in any order. -/
theorem fold_perm (h : c.IsCommMonoid) {l l' : List α} (hl : l.Perm l') : c.fold l = c.fold l' := by
  refine hl.foldl_eq' (fun a _ b _ held => ?_) c.identity
  rw [h.assoc, h.comm a b, h.assoc]

/-- Elements can be taken group by group, where a key says to which group an element belongs. -/
theorem fold_groups {β γ : Type} [DecidableEq γ] (h : c.IsCommMonoid) (f : β → α) (key : β → γ)
    {keys : List γ} (hkeys : keys.Nodup) {l : List β} (hl : ∀ b ∈ l, key b ∈ keys) :
    c.fold (keys.map fun k => c.fold ((l.filter fun b => key b = k).map f)) = c.fold (l.map f) := by
  induction keys generalizing l with
  | nil =>
    obtain rfl : l = [] := List.eq_nil_iff_forall_not_mem.2 fun b hb => nomatch hl b hb
    rfl
  | cons k keys ih =>
    rw [List.nodup_cons] at hkeys
    -- The other groups are those of the elements that are left when the first group is taken out.
    have hleft : ∀ b ∈ l.filter (fun b => !decide (key b = k)), key b ∈ keys := by
      intro b hb
      obtain ⟨hmem, hne⟩ := List.mem_filter.1 hb
      have hne : key b ≠ k := by simpa using hne
      exact (List.mem_cons.1 (hl b hmem)).resolve_left hne
    have hgroup : ∀ k' ∈ keys, (l.filter fun b => key b = k') =
        (l.filter fun b => !decide (key b = k)).filter fun b => key b = k' := by
      intro k' hk'
      have hne : k' ≠ k := fun heq => hkeys.1 (heq ▸ hk')
      rw [List.filter_filter]
      refine List.filter_congr fun b _ => ?_
      by_cases hb : key b = k'
      · simp [hb, hne]
      · simp [hb]
    have hrest : (keys.map fun k' => c.fold ((l.filter fun b => key b = k').map f)) =
        keys.map fun k' => c.fold (((l.filter fun b => !decide (key b = k)).filter
          fun b => key b = k').map f) :=
      List.map_congr_left fun k' hk' => by rw [hgroup k' hk']
    have hperm := (List.filter_append_perm (fun b => decide (key b = k)) l).map f
    rw [List.map_append] at hperm
    rw [List.map_cons, h.fold_cons, hrest, ih hkeys.2 hleft, ← h.fold_append, h.fold_perm hperm]

/-! ## Laws carried over -/

/-- Laws are inherited along a map that tells all values apart. -/
theorem of_injective {β : Type} {f : α → β} {op : β → β → β} [Std.Commutative op]
    [Std.Associative op] (hf : ∀ a b, f a = f b → a = b)
    (hop : ∀ a b, f (c.combine a b) = op (f a) (f b))
    (hidentity : ∀ a, op (f c.identity) (f a) = f a) : c.IsCommMonoid where
  identity_combine a := hf _ _ ((hop _ _).trans (hidentity a))
  comm a b := by
    apply hf
    rw [hop, hop]
    exact Std.Commutative.comm _ _
  assoc a b d := by
    apply hf
    rw [hop, hop, hop, hop]
    exact Std.Associative.assoc _ _ _

/-- Laws are passed on along a map that meets every value. -/
theorem of_surjective {β : Type} {f : β → α} {op : β → β → β} [Std.Commutative op]
    [Std.Associative op] {e : β} (hf : ∀ a, ∃ b, f b = a)
    (hop : ∀ x y, c.combine (f x) (f y) = f (op x y)) (he : c.identity = f e)
    (hidentity : ∀ x, op e x = x) : c.IsCommMonoid where
  identity_combine a := by
    obtain ⟨x, rfl⟩ := hf a
    rw [he, hop, hidentity]
  comm a b := by
    obtain ⟨x, rfl⟩ := hf a
    obtain ⟨y, rfl⟩ := hf b
    rw [hop, hop]
    exact congrArg f (Std.Commutative.comm x y)
  assoc a b d := by
    obtain ⟨x, rfl⟩ := hf a
    obtain ⟨y, rfl⟩ := hf b
    obtain ⟨z, rfl⟩ := hf d
    rw [hop, hop, hop, hop]
    exact congrArg f (Std.Associative.assoc x y z)

end IsCommMonoid

end Combiner

/-! ## Integers -/

/-- The arithmetic of a type of integers is that of the integers, wrapped, and so is its order, as far
as it goes. -/
class LawfulFixedInt (α : Type) [FixedInt α] [Add α] [Mul α] [LT α] : Prop where
  ofInt_add : ∀ m n : Int, (FixedInt.ofInt (m + n) : α) = FixedInt.ofInt m + FixedInt.ofInt n
  ofInt_mul : ∀ m n : Int, (FixedInt.ofInt (m * n) : α) = FixedInt.ofInt m * FixedInt.ofInt n
  lt_iff : ∀ a b : α, a < b ↔ FixedInt.toInt a < FixedInt.toInt b

namespace FixedInt

instance : LawfulFixedInt Int8 where
  ofInt_add := Int8.ofInt_add
  ofInt_mul := Int8.ofInt_mul
  lt_iff _ _ := Int8.lt_iff_toInt_lt

instance : LawfulFixedInt Int16 where
  ofInt_add := Int16.ofInt_add
  ofInt_mul := Int16.ofInt_mul
  lt_iff _ _ := Int16.lt_iff_toInt_lt

instance : LawfulFixedInt Int32 where
  ofInt_add := Int32.ofInt_add
  ofInt_mul := Int32.ofInt_mul
  lt_iff _ _ := Int32.lt_iff_toInt_lt

instance : LawfulFixedInt Int64 where
  ofInt_add := Int64.ofInt_add
  ofInt_mul := Int64.ofInt_mul
  lt_iff _ _ := Int64.lt_iff_toInt_lt

instance : LawfulFixedInt UInt8 where
  ofInt_add := UInt8.ofInt_add
  ofInt_mul := UInt8.ofInt_mul
  lt_iff _ _ := UInt8.lt_iff_toNat_lt.trans Int.ofNat_lt.symm

instance : LawfulFixedInt UInt16 where
  ofInt_add := UInt16.ofInt_add
  ofInt_mul := UInt16.ofInt_mul
  lt_iff _ _ := UInt16.lt_iff_toNat_lt.trans Int.ofNat_lt.symm

instance : LawfulFixedInt UInt32 where
  ofInt_add := UInt32.ofInt_add
  ofInt_mul := UInt32.ofInt_mul
  lt_iff _ _ := UInt32.lt_iff_toNat_lt.trans Int.ofNat_lt.symm

instance : LawfulFixedInt UInt64 where
  ofInt_add := UInt64.ofInt_add
  ofInt_mul := UInt64.ofInt_mul
  lt_iff _ _ := UInt64.lt_iff_toNat_lt.trans Int.ofNat_lt.symm

variable {α : Type} [FixedInt α]

theorem toInt_injective (a b : α) (h : toInt a = toInt b) : a = b := by
  rw [← ofInt_toInt a, h, ofInt_toInt]

theorem least_le_greatest (α : Type) [FixedInt α] : least α ≤ greatest α :=
  Int.le_trans (least_le_toInt (ofInt 0)) (toInt_le_greatest _)

theorem toInt_ofInt_least : toInt (ofInt (least α) : α) = least α :=
  toInt_ofInt _ (Int.le_refl _) (least_le_greatest α)

theorem toInt_ofInt_greatest : toInt (ofInt (greatest α) : α) = greatest α :=
  toInt_ofInt _ (least_le_greatest α) (Int.le_refl _)

variable [Add α] [Mul α] [LT α] [DecidableLT α] [LawfulFixedInt α]

theorem toInt_ite_max (a b : α) :
    toInt (if a < b then b else a) = max (toInt a) (toInt b) := by
  by_cases h : a < b
  · have hlt := (LawfulFixedInt.lt_iff a b).1 h
    rw [if_pos h]
    omega
  · have hle := mt (LawfulFixedInt.lt_iff a b).2 h
    rw [if_neg h]
    omega

theorem toInt_ite_min (a b : α) :
    toInt (if b < a then b else a) = min (toInt a) (toInt b) := by
  by_cases h : b < a
  · have hlt := (LawfulFixedInt.lt_iff b a).1 h
    rw [if_pos h]
    omega
  · have hle := mt (LawfulFixedInt.lt_iff b a).2 h
    rw [if_neg h]
    omega

end FixedInt

namespace Combiner

open FixedInt in
/-- Integers can be combined in any order, in every way that they have. -/
theorem integer?_isCommMonoid {α : Type} [FixedInt α] [Add α] [Mul α] [LT α] [DecidableLT α]
    [LawfulFixedInt α] {r : Reduction} {c : Combiner α} (h : integer? r = some c) :
    c.IsCommMonoid := by
  have hmeets (a : α) : ∃ n, ofInt n = a := ⟨toInt a, ofInt_toInt a⟩
  cases r with
  | max =>
    obtain rfl := Option.some.inj h
    refine .of_injective toInt_injective toInt_ite_max fun a => ?_
    show max (toInt (ofInt (least α) : α)) (toInt a) = toInt a
    have hle := least_le_toInt a
    rw [toInt_ofInt_least]
    omega
  | min =>
    obtain rfl := Option.some.inj h
    refine .of_injective toInt_injective toInt_ite_min fun a => ?_
    show min (toInt (ofInt (greatest α) : α)) (toInt a) = toInt a
    have hle := toInt_le_greatest a
    rw [toInt_ofInt_greatest]
    omega
  | sum =>
    obtain rfl := Option.some.inj h
    exact .of_surjective hmeets (fun m n => (LawfulFixedInt.ofInt_add m n).symm) rfl Int.zero_add
  | prod =>
    obtain rfl := Option.some.inj h
    exact .of_surjective hmeets (fun m n => (LawfulFixedInt.ofInt_mul m n).symm) rfl Int.one_mul
  | logicalAnd => cases h
  | logicalOr => cases h

/-- So can truth values. -/
theorem logical?_isCommMonoid {r : Reduction} {c : Combiner Bool} (h : logical? r = some c) :
    c.IsCommMonoid := by
  cases r with
  | logicalAnd =>
    obtain rfl := Option.some.inj h
    exact ⟨Bool.true_and, Bool.and_comm, Bool.and_assoc⟩
  | logicalOr =>
    obtain rfl := Option.some.inj h
    exact ⟨Bool.false_or, Bool.or_comm, Bool.or_assoc⟩
  | max => cases h
  | min => cases h
  | sum => cases h
  | prod => cases h

end Combiner

/-! ## The types without rounding -/

/-- The element types of tensors that are not floating-point types. -/
inductive ExactType where
  | boolean
  | i8
  | i16
  | i32
  | i64
  | u8
  | u16
  | u32
  | u64
  deriving DecidableEq, Repr

namespace ExactType

/-- The values of a type. -/
def Value : ExactType → Type
  | boolean => Bool
  | i8 => Int8
  | i16 => Int16
  | i32 => Int32
  | i64 => Int64
  | u8 => UInt8
  | u16 => UInt16
  | u32 => UInt32
  | u64 => UInt64

instance : (τ : ExactType) → Element τ.Value
  | boolean => inferInstanceAs (Element Bool)
  | i8 => inferInstanceAs (Element Int8)
  | i16 => inferInstanceAs (Element Int16)
  | i32 => inferInstanceAs (Element Int32)
  | i64 => inferInstanceAs (Element Int64)
  | u8 => inferInstanceAs (Element UInt8)
  | u16 => inferInstanceAs (Element UInt16)
  | u32 => inferInstanceAs (Element UInt32)
  | u64 => inferInstanceAs (Element UInt64)

/-- Values without rounding can be combined in any order, in every way that their type has. -/
theorem isCommMonoid {τ : ExactType} {r : Reduction} {c : Combiner τ.Value}
    (h : Element.combiner? r = some c) : c.IsCommMonoid := by
  cases τ with
  | boolean => exact Combiner.logical?_isCommMonoid h
  | i8 => exact Combiner.integer?_isCommMonoid (α := Int8) h
  | i16 => exact Combiner.integer?_isCommMonoid (α := Int16) h
  | i32 => exact Combiner.integer?_isCommMonoid (α := Int32) h
  | i64 => exact Combiner.integer?_isCommMonoid (α := Int64) h
  | u8 => exact Combiner.integer?_isCommMonoid (α := UInt8) h
  | u16 => exact Combiner.integer?_isCommMonoid (α := UInt16) h
  | u32 => exact Combiner.integer?_isCommMonoid (α := UInt32) h
  | u64 => exact Combiner.integer?_isCommMonoid (α := UInt64) h

end ExactType

end TensorInference
