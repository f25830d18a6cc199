import Mathlib.Algebra.BigOperators.Group.List.Basic
import Mathlib.Data.List.TakeWhile
import TensorInference.Word

/-!
# Running products

`Word.product?` multiplies from the left and gives up at the first product that leaves the word, so
it depends on every product of a first few factors, not on the whole one alone.  `RunsWithin` says
that all of them stay in the word.

Factors of zero hide what follows them: what counts is the product of the factors before the first
zero (`runsWithin_iff_takeWhile`).  Counting zeros as ones bounds all running products at once
(`runsWithin_of_prod_le`), which is how a tensor without elements is kept from running over.
-/

namespace TensorInference.Word

/-- Every product of a first few factors stays in the word. -/
def RunsWithin (factors : List Nat) : Prop :=
  ∀ k, (factors.take k).prod ≤ maxValue

theorem foldlM_mul?_eq_some_iff {a n : Nat} {factors : List Nat} (ha : a ≤ maxValue) :
    factors.foldlM mul? a = some n ↔
      (∀ k, a * (factors.take k).prod ≤ maxValue) ∧ a * factors.prod = n := by
  induction factors generalizing a with
  | nil => simp [ha]
  | cons factor factors ih =>
    simp only [List.foldlM_cons, Option.bind_eq_bind, Option.bind_eq_some_iff, mul?_eq_some_iff]
    constructor
    · rintro ⟨m, ⟨rfl, hm⟩, hrest⟩
      obtain ⟨hruns, rfl⟩ := (ih hm).1 hrest
      refine ⟨fun k => ?_, by rw [List.prod_cons, Nat.mul_assoc]⟩
      cases k with
      | zero => simpa using ha
      | succ k =>
        rw [List.take_succ_cons, List.prod_cons, ← Nat.mul_assoc]
        exact hruns k
    · rintro ⟨hruns, rfl⟩
      have hruns' (k : Nat) : a * factor * (factors.take k).prod ≤ maxValue := by
        rw [Nat.mul_assoc, ← List.prod_cons, ← List.take_succ_cons]
        exact hruns (k + 1)
      have hm : a * factor ≤ maxValue := by simpa using hruns' 0
      exact ⟨a * factor, ⟨rfl, hm⟩, (ih hm).2 ⟨hruns', by rw [List.prod_cons, Nat.mul_assoc]⟩⟩

theorem product?_eq_some_iff {factors : List Nat} {n : Nat} :
    product? factors = some n ↔ RunsWithin factors ∧ factors.prod = n := by
  rw [product?, foldlM_mul?_eq_some_iff (by decide), RunsWithin]
  simp only [Nat.one_mul]

theorem product?_eq_none_iff {factors : List Nat} :
    product? factors = none ↔ ¬RunsWithin factors := by
  constructor
  · intro h hruns
    rw [product?_eq_some_iff.2 ⟨hruns, rfl⟩] at h
    cases h
  · intro h
    cases hproduct : product? factors with
    | none => rfl
    | some n => exact absurd (product?_eq_some_iff.1 hproduct).1 h

/-! ## Zeros counted as ones -/

theorem prod_le_prod_max (factors : List Nat) : factors.prod ≤ (factors.map (max · 1)).prod := by
  induction factors with
  | nil => simp
  | cons factor factors ih =>
    rw [List.map_cons, List.prod_cons, List.prod_cons]
    exact Nat.mul_le_mul (Nat.le_max_left _ _) ih

theorem prod_max_le_of_sublist {factors factors' : List Nat} (h : factors.Sublist factors') :
    (factors.map (max · 1)).prod ≤ (factors'.map (max · 1)).prod := by
  induction h with
  | slnil => simp
  | cons factor _ ih =>
    rw [List.map_cons, List.prod_cons]
    exact Nat.le_trans ih (Nat.le_mul_of_pos_left _ (by omega))
  | cons_cons factor _ ih =>
    rw [List.map_cons, List.map_cons, List.prod_cons, List.prod_cons]
    exact Nat.mul_le_mul_left _ ih

/-- The product of the factors other than zero. -/
theorem prod_filter_ne_zero (factors : List Nat) :
    (factors.filter (· ≠ 0)).prod = (factors.map (max · 1)).prod := by
  induction factors with
  | nil => rfl
  | cons factor factors ih =>
    rw [List.map_cons, List.prod_cons]
    by_cases hfactor : factor = 0
    · subst hfactor
      simpa using ih
    · rw [List.filter_cons_of_pos (by simpa using hfactor), List.prod_cons, ih,
        Nat.max_eq_left (by omega)]

theorem prod_max_eq_prod {factors : List Nat} (h : 0 ∉ factors) :
    (factors.map (max · 1)).prod = factors.prod := by
  rw [← prod_filter_ne_zero, List.filter_eq_self.2]
  intro factor hfactor
  simpa using fun hzero : factor = 0 => h (hzero ▸ hfactor)

/-- A list runs within the word when its product does with zeros counted as ones. -/
theorem runsWithin_of_prod_le {factors : List Nat}
    (h : (factors.map (max · 1)).prod ≤ maxValue) : RunsWithin factors := by
  intro k
  calc (factors.take k).prod
      ≤ ((factors.take k).map (max · 1)).prod := prod_le_prod_max _
    _ ≤ (factors.map (max · 1)).prod := prod_max_le_of_sublist (List.take_sublist k factors)
    _ ≤ maxValue := h

/-! ## Zeros as ends -/

theorem zero_notMem_takeWhile (factors : List Nat) : 0 ∉ factors.takeWhile (· ≠ 0) :=
  fun h => by simpa using List.mem_takeWhile_imp h

/-- A list runs within the word when its product up to the first zero does. -/
theorem runsWithin_iff_takeWhile {factors : List Nat} :
    RunsWithin factors ↔ (factors.takeWhile (· ≠ 0)).prod ≤ maxValue := by
  constructor
  · intro h
    rw [List.prefix_iff_eq_take.1 (List.takeWhile_prefix _)]
    exact h _
  · intro h k
    by_cases hzero : 0 ∈ factors.take k
    · rw [List.prod_eq_zero_iff_exists_zero_nat.2 ⟨0, hzero, rfl⟩]
      exact Nat.zero_le _
    · -- A zero has not come yet, so the factors taken are some of those before it.
      have hprefix : factors.take k <+: factors.takeWhile (· ≠ 0) := by
        rw [← List.take_append_drop k factors, List.takeWhile_append_of_pos, List.take_append_drop]
        · exact List.prefix_append _ _
        · intro factor hfactor
          simpa using fun hne : factor = 0 => hzero (hne ▸ hfactor)
      calc (factors.take k).prod
          ≤ ((factors.take k).map (max · 1)).prod := prod_le_prod_max _
        _ ≤ ((factors.takeWhile (· ≠ 0)).map (max · 1)).prod :=
            prod_max_le_of_sublist hprefix.sublist
        _ = (factors.takeWhile (· ≠ 0)).prod := prod_max_eq_prod (zero_notMem_takeWhile factors)
        _ ≤ maxValue := h

end TensorInference.Word
