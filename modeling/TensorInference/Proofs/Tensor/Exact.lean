import TensorInference.Proofs.Reduction.Exact
import TensorInference.Proofs.Tensor.Compose

/-!
# What the elements of a reduction are

On booleans and integers a reduction computes what it is named for.  Every element of the result is the
exact reduction of its lane, the only value that is, and every other way to combine the elements of the
lane ends with it as well.

This puts together that an element of the result is the fold of its lane (`get?_folded`) and that folds
without rounding are exact (`ExactType.isExact_iff`).
-/

namespace TensorInference.Tensor

variable {α : Type} {axes : AxisSet}

/-- The elements of the lane that an index of the result stands for, in row-major order. -/
def laneElements (t : Tensor α) (axes : AxisSet) (keepDims : Bool) (index : List Nat) : List α :=
  (t.lane axes (t.freeIndex axes keepDims index)).map Prod.snd

/-- **Reductions without rounding are exact.**  On an addressable tensor of booleans or integers, a
reduction along axes of the tensor has a result, unless storage does not hold it.  Each of its elements
is the exact reduction of the lane, and no other value is: the residue of the sum or of the product, the
greatest or the least element or a bound of the type, or whether all or some elements are true.  The
elements of the lane combine to it in every order and in every grouping, and also with any number of
identities between them. -/
theorem reduce_exact {τ : ExactType} {t : Tensor τ.Value} {r : Reduction} {requests : List Int}
    (ht : t.Addressable) (hr : r.supports (Element.elementType τ.Value) = true)
    (haxes : AxisSet.ofRequests (some t.rank) requests = .ok axes) (keepDims : Bool) :
    ∃ c u, Element.combiner? r = some c ∧ (Kernel.reduce r requests keepDims).Gives t u ∧
      u.shape = t.shape.reduce axes keepDims ∧
      ∀ index, Index.InRange u.shape.dims index →
        ∃ a, u.get? index = .ok (some a) ∧
          (∀ b, τ.IsExact r (t.laneElements axes keepDims index) b ↔ b = a) ∧
          ∀ (n : Nat) (s : Bracketing τ.Value),
            s.items.Perm (List.replicate n c.identity ++ t.laneElements axes keepDims index) →
              s.combine c = a := by
  obtain ⟨c, hc⟩ := exists_combiner_of_supports hr
  have hlaws := ExactType.isCommMonoid hc
  refine ⟨c, t.folded c axes keepDims, hc, gives_folded ht hr haxes hc, rfl, fun index hindex => ?_⟩
  refine ⟨c.fold (t.laneElements axes keepDims index), get?_folded c (ht.traversable axes) hindex,
    fun b => ExactType.isExact_iff hc, fun n s hs => ?_⟩
  exact hlaws.combine_eq_fold_of_perm hs

/-- Bytes are added up row by row: the first row has a sum of 203, which is 53 less than a byte goes
round. -/
theorem reduce_exact_row_wraps :
    ∃ u, (Kernel.reduce .sum [-1] true).Gives
        (⟨⟨[2, 3]⟩, #[100, 100, 3, 4, 5, 6]⟩ : Tensor Int8) u ∧
      u.get? [0, 0] = .ok (some (-53)) := by
  have ht : (⟨⟨[2, 3]⟩, #[100, 100, 3, 4, 5, 6]⟩ : Tensor Int8).Addressable := ⟨rfl, by decide⟩
  have haxes : AxisSet.ofRequests (some 2) [-1] = .ok (AxisSet.ofList [1]) := rfl
  obtain ⟨c, u, -, hgives, hshape, helement⟩ :=
    reduce_exact (τ := .i8) (r := .sum) ht rfl haxes true
  have hindex : Index.InRange u.shape.dims [0, 0] := by
    rw [hshape]
    decide
  obtain ⟨a, hget, hexact, -⟩ := helement [0, 0] hindex
  have hsum : Combiner.IsExactInteger .sum [100, 100, 3] (-53 : Int8) := by
    show (-53 : Int) ≡ 203 [ZMOD 256]
    decide
  obtain rfl : (-53 : Int8) = a := (hexact (-53 : Int8)).1 hsum
  exact ⟨u, hgives, hget⟩

end TensorInference.Tensor
