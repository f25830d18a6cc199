import Mathlib.Data.List.Perm.Basic
import TensorInference.Proofs.Word
import TensorInference.Shape.Basic

/-!
# Two ways to count

The elements of a shape are counted exactly by `count?`, and from the left by `runningCount?`.  Both
know the product of the extents when they have an answer.  They part where a zero comes too late
(`LateZero`): the extents before it outgrow the word already, so counting from the left has given up
before it learns that there is nothing to count.

Whether a zero comes too late is a matter of order.  The exact count is the same for all orders of the
extents; the running count is the same for all of them just when no order has a late zero, that is,
unless extents that outgrow the word stand beside a zero.

* `count?_eq_some_iff`, `count?_eq_none_iff` --- the exact count.
* `runningCount?_eq_none_iff`, `runningCount?_eq_count?` --- the running count, by itself and against
  the exact one.
* `runningCount?_perm_iff` --- when it does not depend on the order.
-/

namespace TensorInference.Shape

/-! ## The exact count -/

/-- The exact number of elements of a shape, if it stays in the word. -/
theorem count?_eq_some_iff {s : Shape} {n : Nat} :
    s.count? = some n ↔ s.dims.prod = n ∧ n ≤ Word.maxValue := by
  rw [count?]
  by_cases hzero : 0 ∈ s.dims
  · have hprod : s.dims.prod = 0 := List.prod_eq_zero_iff_exists_zero_nat.2 ⟨0, hzero, rfl⟩
    rw [if_pos hzero, Option.some_inj, hprod]
    constructor
    · rintro rfl
      exact ⟨rfl, Nat.zero_le _⟩
    · exact fun h => h.1
  · rw [if_neg hzero, Word.product?_eq_some_iff]
    constructor
    · rintro ⟨hruns, rfl⟩
      have hwhole := hruns s.dims.length
      rw [List.take_length] at hwhole
      exact ⟨rfl, hwhole⟩
    · rintro ⟨rfl, hle⟩
      rw [← Word.prod_max_eq_prod hzero] at hle
      exact ⟨Word.runsWithin_of_prod_le hle, rfl⟩

theorem count?_eq_none_iff {s : Shape} : s.count? = none ↔ Word.maxValue < s.dims.prod := by
  rw [← Nat.not_le, Option.eq_none_iff_forall_ne_some]
  constructor
  · intro h hle
    exact h _ (count?_eq_some_iff.2 ⟨rfl, hle⟩)
  · intro h n hn
    obtain ⟨rfl, hle⟩ := count?_eq_some_iff.1 hn
    exact h hle

theorem count?_of_perm {s s' : Shape} (h : s'.dims.Perm s.dims) : s'.count? = s.count? := by
  refine Option.ext fun n => ?_
  rw [count?_eq_some_iff, count?_eq_some_iff, h.prod_eq]

/-! ## The running count -/

/-- The extents before the first zero outgrow the word, so the zero comes too late for counting from
the left. -/
def LateZero (s : Shape) : Prop :=
  0 ∈ s.dims ∧ Word.maxValue < (s.dims.takeWhile (· ≠ 0)).prod

instance (s : Shape) : Decidable s.LateZero :=
  inferInstanceAs (Decidable (_ ∧ _))

theorem LateZero.count?_eq {s : Shape} (h : s.LateZero) : s.count? = some 0 :=
  if_pos h.1

theorem runningCount?_eq_some_iff {s : Shape} {n : Nat} :
    s.runningCount? = some n ↔
      (s.dims.takeWhile (· ≠ 0)).prod ≤ Word.maxValue ∧ s.dims.prod = n := by
  rw [runningCount?, Word.product?_eq_some_iff, Word.runsWithin_iff_takeWhile]

theorem runningCount?_eq_none_iff {s : Shape} :
    s.runningCount? = none ↔ Word.maxValue < (s.dims.takeWhile (· ≠ 0)).prod := by
  rw [runningCount?, Word.product?_eq_none_iff, Word.runsWithin_iff_takeWhile, Nat.not_le]

theorem LateZero.runningCount?_eq {s : Shape} (h : s.LateZero) : s.runningCount? = none :=
  runningCount?_eq_none_iff.2 h.2

/-- The two counts part nowhere but at a late zero. -/
theorem runningCount?_eq_count? {s : Shape} (h : ¬s.LateZero) : s.runningCount? = s.count? := by
  rw [LateZero, not_and, Nat.not_lt] at h
  by_cases hzero : 0 ∈ s.dims
  · have hprod : s.dims.prod = 0 := List.prod_eq_zero_iff_exists_zero_nat.2 ⟨0, hzero, rfl⟩
    rw [count?, if_pos hzero, runningCount?_eq_some_iff]
    exact ⟨h hzero, hprod⟩
  · rw [count?, if_neg hzero, runningCount?]

theorem runningCount?_eq_count?_iff {s : Shape} :
    s.runningCount? = s.count? ↔ ¬s.LateZero := by
  constructor
  · intro h hlate
    rw [hlate.runningCount?_eq, hlate.count?_eq] at h
    cases h
  · exact runningCount?_eq_count?

/-! ## Orders of the extents -/

/-- Some order of the extents has a late zero just when extents that outgrow the word stand beside a
zero: in the worst order all zeros come last. -/
theorem exists_perm_lateZero_iff {s : Shape} :
    (∃ s' : Shape, s'.dims.Perm s.dims ∧ s'.LateZero) ↔
      0 ∈ s.dims ∧ Word.maxValue < (s.dims.filter (· ≠ 0)).prod := by
  constructor
  · rintro ⟨s', hperm, hzero, hlt⟩
    refine ⟨hperm.mem_iff.1 hzero, Nat.lt_of_lt_of_le hlt ?_⟩
    calc (s'.dims.takeWhile (· ≠ 0)).prod
        ≤ ((s'.dims.takeWhile (· ≠ 0)).map (max · 1)).prod := Word.prod_le_prod_max _
      _ ≤ (s'.dims.map (max · 1)).prod :=
          Word.prod_max_le_of_sublist (List.takeWhile_sublist _)
      _ = (s.dims.map (max · 1)).prod := (hperm.map _).prod_eq
      _ = (s.dims.filter (· ≠ 0)).prod := (Word.prod_filter_ne_zero _).symm
  · rintro ⟨hzero, hlt⟩
    refine ⟨⟨s.dims.filter (· ≠ 0) ++ s.dims.filter fun size => !decide (size ≠ 0)⟩,
      List.filter_append_perm _ _, ?_, ?_⟩
    · exact List.mem_append_right _ (List.mem_filter.2 ⟨hzero, rfl⟩)
    · rw [List.takeWhile_append_of_pos fun size hsize => (List.mem_filter.1 hsize).2]
      refine Nat.lt_of_lt_of_le hlt ?_
      rw [List.prod_append]
      refine Nat.le_mul_of_pos_right _ (Nat.pos_of_ne_zero fun hprod => ?_)
      obtain ⟨size, hsize, rfl⟩ := List.prod_eq_zero_iff_exists_zero_nat.1 hprod
      exact Word.zero_notMem_takeWhile _ hsize

/-- Counting from the left does not depend on the order of the extents just when no order has a late
zero. -/
theorem runningCount?_perm_iff {s : Shape} :
    (∀ s' : Shape, s'.dims.Perm s.dims → s'.runningCount? = s.runningCount?) ↔
      ¬∃ s' : Shape, s'.dims.Perm s.dims ∧ s'.LateZero := by
  constructor
  · rintro hsame ⟨s', hperm, hlate⟩
    -- A zero that comes first is never late.
    have hzero : 0 ∈ s.dims := hperm.mem_iff.1 hlate.1
    have hfirst : Shape.runningCount? ⟨0 :: s.dims.erase 0⟩ = some 0 :=
      runningCount?_eq_some_iff.2 ⟨by simp [Word.maxValue], by simp⟩
    have hnone : s.runningCount? = none := (hsame s' hperm).symm.trans hlate.runningCount?_eq
    rw [hsame ⟨0 :: s.dims.erase 0⟩ (List.perm_cons_erase hzero).symm, hnone] at hfirst
    cases hfirst
  · intro hnone s' hperm
    have hlate : ¬s.LateZero := fun h => hnone ⟨s, .refl _, h⟩
    have hlate' : ¬s'.LateZero := fun h => hnone ⟨s', hperm, h⟩
    rw [runningCount?_eq_count? hlate, runningCount?_eq_count? hlate', count?_of_perm hperm]

end TensorInference.Shape
