import TensorInference.Proofs.Reduction.Identity
import TensorInference.Proofs.Tensor.Reduce

/-!
# Reducing along an axis without coordinates

Along an axis of extent zero there is nothing to combine.  All lanes are empty, however many there
are, and each of them gives the identity of the reduction.

A tensor with such an axis has no elements itself, so its other extents can be huge, and then the
kernel may fail to count to its result: the reduced extents are multiplied although a zero is among
them, and the beginning of every lane is computed although nothing is read there.  `Traversable`
says when neither of the two leaves the word.

* `folded_eq_replicate` --- the result, if nothing is in the way.
* `reduce_fills_identity` --- when it is computed, and what it holds.
-/

namespace TensorInference

/-- There are no indices when an extent is zero. -/
theorem Index.all_eq_nil {dims : List Nat} (h : 0 ∈ dims) : all dims = [] := by
  refine List.eq_nil_iff_forall_not_mem.2 fun index hindex => ?_
  exact zero_notMem_of_inRange (mem_all_iff.1 hindex) h

namespace Tensor

variable {α : Type} {t : Tensor α} {axes : AxisSet} {keepDims : Bool}

theorem zero_mem_dims_of_zero_mem_reducedDims (h : 0 ∈ t.reducedDims axes) : 0 ∈ t.shape.dims := by
  obtain ⟨axis, -, hsize⟩ := List.mem_filterMap.1 h
  exact List.mem_of_getElem? hsize

theorem lane_eq_nil (h : 0 ∈ t.reducedDims axes) (free : List Nat) : t.lane axes free = [] := by
  rw [lane, entries, Index.all_eq_nil (zero_mem_dims_of_zero_mem_reducedDims h), List.zip_nil_left,
    List.filter_nil]

/-- Every lane that is empty gives the identity. -/
theorem folded_eq_replicate (c : Combiner α) (h : 0 ∈ t.reducedDims axes) :
    t.folded c axes keepDims =
      ⟨t.shape.reduce axes keepDims, Array.replicate (t.keptDims axes).prod c.identity⟩ := by
  have hlanes : ((Index.all (t.keptDims axes)).map fun free =>
      c.fold ((t.lane axes free).map Prod.snd)) =
        List.replicate (t.keptDims axes).prod c.identity := by
    refine List.eq_replicate_iff.2 ⟨?_, fun a ha => ?_⟩
    · rw [List.length_map, Index.length_all, Index.count_eq_prod]
    · obtain ⟨free, -, rfl⟩ := List.mem_map.1 ha
      rw [lane_eq_nil h]
      rfl
  rw [folded, hlanes, List.toArray_replicate]

/-- **Reducing along an axis without coordinates fills the result with the identity.**  For a
reduction that the element type supports and axes that are accepted, the result has one element for
each index over the axes that stay, and all of them are what the table lists, as long as the tensor
can be traversed along the axes; otherwise counting runs over.  A tensor whose extents other than
zero have a product within the word can be traversed along any axes. -/
theorem reduce_fills_identity {σ : StoredType} {t : Tensor σ.Value} {shape : Shape}
    {data : Array σ.Value} {r : Reduction} {requests : List Int}
    (ht : ofData shape data = .ok t)
    (hr : r.supports (Element.elementType σ.Value) = true)
    (haxes : AxisSet.ofRequests (some t.rank) requests = .ok axes)
    (hzero : 0 ∈ t.reducedDims axes) (keepDims : Bool) :
    ∃ identity, r.identity? (Element.elementType σ.Value) = some identity ∧
      (t.Traversable axes → ∃ u, t.reduce r requests keepDims = .ok u ∧
        u.shape = t.shape.reduce axes keepDims ∧ u.data.size = (t.keptDims axes).prod ∧
        (∀ a ∈ u.data, Element.toScalar a = identity) ∧
        (Kernel.reduce r requests keepDims).run t =
          if fits σ.Value u.size then .ok u else .error (.stopped .exhausted)) ∧
      (¬t.Traversable axes → t.reduce r requests keepDims = .error (.stopped .overflow)) ∧
      (t.Addressable → t.Traversable axes) := by
  obtain ⟨rfl, ht⟩ := ofData_eq_ok_iff.1 ht
  obtain ⟨c, hc⟩ := exists_combiner_of_supports hr
  have hinfer : (Operator.reduce r requests keepDims).infer [Tensor.info ⟨shape, data⟩] =
      .ok (Tensor.info (folded ⟨shape, data⟩ c axes keepDims)) :=
    infer_reduce_eq_ok_iff.2 ⟨hr, axes, haxes, info_folded c⟩
  refine ⟨_, StoredType.identity?_eq_toScalar hc, fun htraversable => ?_,
    reduce_eq_overflow ht hinfer haxes hc, fun h => h.traversable axes⟩
  have hreduce := reduce_eq_ok ht hinfer haxes hc htraversable
  have hrun := Kernel.run_eq_of_compute (k := .reduce r requests keepDims) hinfer hreduce
    (wellSized_folded c htraversable)
  rw [folded_eq_replicate c hzero] at hreduce hrun
  refine ⟨_, hreduce, rfl, Array.size_replicate, fun a ha => ?_, hrun⟩
  rw [Array.eq_of_mem_replicate ha]

/-- Three lanes without elements, beside an extent of `2 ^ 62`, have the lowest number for their
maximum. -/
theorem reduce_fills_identity_lowest :
    ∃ u, (⟨⟨[3, 0, 2 ^ 62]⟩, #[]⟩ : Tensor Int8).reduce .max [1, -1] true = .ok u ∧
      u.data.size = 3 ∧ ∀ a ∈ u.data, Scalar.i8 a = .i8 (-0x80) := by
  have ht : ofData ⟨[3, 0, 2 ^ 62]⟩ (#[] : Array Int8) = .ok ⟨⟨[3, 0, 2 ^ 62]⟩, #[]⟩ := rfl
  have haxes : AxisSet.ofRequests (some 3) [1, -1] = .ok (AxisSet.ofList [1, 2]) := rfl
  have htraversable :
      (⟨⟨[3, 0, 2 ^ 62]⟩, #[]⟩ : Tensor Int8).Traversable (AxisSet.ofList [1, 2]) :=
    Addressable.traversable ⟨rfl, by decide⟩ _
  obtain ⟨identity, hidentity, hok, -⟩ := reduce_fills_identity (σ := .exact .i8)
    (r := .max) ht rfl haxes (by decide) true
  obtain ⟨u, hreduce, -, hsize, hfill, -⟩ := hok htraversable
  cases hidentity
  exact ⟨u, hreduce, hsize, hfill⟩

/-- Filling three lanes with the identity can run over: the last of them begins at two strides, and
a stride here is as large as a word gets, although the extent beside the zero is never stepped
through. -/
theorem reduce_overflow_zero_extent :
    ofData ⟨[3, 0, 2 ^ 63, 2]⟩ (#[] : Array Int32) = .ok ⟨⟨[3, 0, 2 ^ 63, 2]⟩, #[]⟩ ∧
      Reduction.sum.supports .i32 = true ∧
      AxisSet.ofRequests (some 4) [1, 2, 3] = .ok (AxisSet.ofList [1, 2, 3]) ∧
      ((⟨⟨[3, 0, 2 ^ 63, 2]⟩, #[]⟩ : Tensor Int32).keptDims (AxisSet.ofList [1, 2, 3])).prod = 3 ∧
      (⟨⟨[3, 0, 2 ^ 63, 2]⟩, #[]⟩ : Tensor Int32).reduce .sum [1, 2, 3] false =
        .error (.stopped .overflow) :=
  ⟨rfl, rfl, rfl, rfl, rfl⟩

end Tensor

end TensorInference
