import TensorInference.Proofs.Reduction.Exact
import TensorInference.Proofs.Reduction.Rounded
import TensorInference.Proofs.Tensor.Compose

/-!
# Reducing along axes of extent one

Along axes of extent one, and along no axes at all, every lane has one element.  A reduction does not
copy this element to its result, it combines the element with the identity.  Shape and order stay, and
so do the elements if the identity is neutral for them, as it is for booleans and integers.  With
floating-point numbers it is not neutral for all: what is lost is replaced by the identity.

* `folded_eq_mapped` --- the result, element by element.
* `reduce_unit_axes` --- when the result is the tensor itself.
-/

namespace TensorInference

/-! ## Axes of extent one -/

/-- Extents of one are not changed when the axes are kept. -/
theorem AxisSet.fill_one_eq_self {axes : AxisSet} {dims : List Nat}
    (hunit : ∀ axis ∈ axes.axes, dims[axis]? = some 1) :
    Marks.fill 1 (axes.marks dims.length) dims = dims := by
  rw [← collapse_some_eq_fill, collapse_some_eq]
  refine List.ext_getElem? fun axis => ?_
  rw [List.getElem?_mapIdx]
  by_cases haxis : axis ∈ axes.axes
  · rw [hunit axis haxis, Option.map_some, if_pos haxis]
  · simp only [haxis, if_false, Option.map_id']

/-- The only coordinate along such an axis is zero. -/
theorem Index.fill_zero_eq_self {marks : List Bool} {dims index : List Nat}
    (hlen : dims.length = marks.length) (hunit : Marks.fill 1 marks dims = dims)
    (h : InRange dims index) : Marks.fill 0 marks index = index := by
  induction marks generalizing dims index with
  | nil =>
    obtain rfl := List.eq_nil_of_length_eq_zero hlen
    obtain rfl := List.eq_nil_of_length_eq_zero (length_of_inRange h)
    rfl
  | cons mark marks ih =>
    obtain ⟨size, dims, rfl⟩ := List.exists_cons_of_length_eq_add_one hlen
    obtain ⟨coordinate, index, rfl⟩ :=
      List.exists_cons_of_length_eq_add_one (length_of_inRange h)
    obtain ⟨hsize, hdims⟩ := List.cons.inj hunit
    rw [Marks.fill, ih (Nat.succ.inj hlen) hdims h.2]
    cases mark with
    | false => rfl
    | true =>
      have hcoordinate : coordinate < size := h.1
      have hsize : 1 = size := hsize
      obtain rfl : coordinate = 0 := by omega
      rfl

namespace Tensor

variable {α β : Type} {t : Tensor α} {axes : AxisSet} {c : Combiner α}

/-- The tensor with another value for each element. -/
def mapped (t : Tensor α) (f : α → β) : Tensor β :=
  ⟨t.shape, t.data.map f⟩

theorem mapped_eq_self_iff {f : α → α} : t.mapped f = t ↔ ∀ a ∈ t.data.toList, f a = a := by
  obtain ⟨shape, data⟩ := t
  rw [mapped, Tensor.mk.injEq, ← Array.toList_inj, Array.toList_map]
  constructor
  · rintro ⟨-, h⟩
    rw [← List.map_id data.toList, List.map_map] at h
    exact List.map_inj_left.1 h
  · intro h
    exact ⟨rfl, (List.map_congr_left h).trans (List.map_id _)⟩

theorem elementAt_mapped {f : α → α} {default : α} (hsize : t.data.size = t.shape.dims.prod)
    {index : List Nat} (hindex : Index.InRange t.shape.dims index) :
    (t.mapped f).elementAt default index = f (t.elementAt default index) := by
  have hlt := position_lt_size hsize hindex
  have hlt' : Index.position t.shape.dims index < (t.mapped f).data.size := by
    rwa [mapped, Array.size_map]
  rw [elementAt_eq_getElem default hlt, elementAt_eq_getElem default hlt']
  exact Array.getElem_map _ _

/-- Each index is alone in its lane. -/
theorem sources_eq_singleton (hunit : ∀ axis ∈ axes.axes, t.shape.dims[axis]? = some 1)
    {index : List Nat} (hindex : Index.InRange t.shape.dims index) :
    t.sources axes index = [index] := by
  have hself : ∀ source, Index.InRange t.shape.dims source →
      Marks.fill 0 (axes.marks t.rank) source = source := fun source hsource =>
    Index.fill_zero_eq_self (length_dims_eq_length_marks t axes)
      (AxisSet.fill_one_eq_self hunit) hsource
  have hnodup := nodup_sources t axes index
  refine List.perm_singleton.1 ((List.perm_ext_iff_of_nodup hnodup (List.nodup_singleton _)).2 ?_)
  intro source
  rw [mem_sources_iff, List.mem_singleton]
  constructor
  · rintro ⟨hsource, hindex⟩
    rwa [hself source hsource] at hindex
  · rintro rfl
    exact ⟨hindex, hself source hindex⟩

/-- **Every element is combined with the identity**, and stays where it is. -/
theorem folded_eq_mapped (ht : t.Addressable)
    (hunit : ∀ axis ∈ axes.axes, t.shape.dims[axis]? = some 1) :
    t.folded c axes true = t.mapped (c.combine c.identity) := by
  have hdims : (t.folded c axes true).shape.dims = t.shape.dims := by
    rw [dims_folded_true]
    exact AxisSet.fill_one_eq_self hunit
  refine ext_elementAt c.identity hdims (size_folded c) ?_ fun index hindex => ?_
  · rw [mapped, Array.size_map]
    exact ht.size_eq
  · rw [elementAt_folded ht hindex]
    rw [hdims] at hindex
    rw [sources_eq_singleton hunit hindex, elementAt_mapped ht.size_eq hindex]
    rfl

/-! ## Main result -/

/-- **A reduction along axes of extent one combines each element with the identity.**  The axes are
kept, and there may be none of them.  The result is the tensor itself just when no element is lost,
and only floating-point numbers can be: what is not a number under a maximum or a minimum, and the
negative zero under a sum.  In the place of what is lost stands the identity. -/
theorem reduce_unit_axes {σ : StoredType} {t : Tensor σ.Value} {r : Reduction}
    {requests : List Int} (ht : t.Addressable)
    (hr : r.supports (Element.elementType σ.Value) = true)
    (haxes : AxisSet.ofRequests (some t.rank) requests = .ok axes)
    (hunit : ∀ axis ∈ axes.axes, t.shape.dims[axis]? = some 1) :
    ∃ (c : Combiner σ.Value) (u : Tensor σ.Value),
      Element.combiner? r = some c ∧ (Kernel.reduce r requests true).Gives t u ∧
      u = t.mapped (c.combine c.identity) ∧
      (∀ a, ¬σ.IsLost r a ∧ c.combine c.identity a = a ∨
        σ.IsLost r a ∧ c.combine c.identity a = c.identity ∧ c.identity ≠ a) ∧
      (u = t ↔ ∀ a ∈ t.data.toList, ¬σ.IsLost r a) := by
  obtain ⟨c, hc⟩ := exists_combiner_of_supports hr
  have hcombine := StoredType.combine_identity hc
  have hkept (a : σ.Value) : c.combine c.identity a = a ↔ ¬σ.IsLost r a := by
    rcases hcombine a with ⟨hkept, hsame⟩ | ⟨hlost, hstart, hne⟩
    · exact iff_of_true hsame hkept
    · exact iff_of_false (fun hsame => hne (hstart.symm.trans hsame)) (not_not_intro hlost)
  have hmapped := folded_eq_mapped (c := c) ht hunit
  refine ⟨c, t.folded c axes true, hc, gives_folded ht hr haxes hc, hmapped, hcombine, ?_⟩
  rw [hmapped, mapped_eq_self_iff]
  simp only [hkept]

/-- A column that has a negative zero, and its maximum along the axis of extent one. -/
theorem reduce_unit_axes_negative_zero :
    ∃ u : Tensor Float32,
      (Kernel.reduce .max [-1] true).Gives
        (⟨⟨[2, 1]⟩, #[Float32.ofBits 0x80000000, 2]⟩ : Tensor Float32) u ∧
      u = ⟨⟨[2, 1]⟩, #[Float32.ofBits 0x80000000, 2]⟩ := by
  have ht : (⟨⟨[2, 1]⟩, #[Float32.ofBits 0x80000000, 2]⟩ : Tensor Float32).Addressable :=
    ⟨rfl, by decide⟩
  have haxes : AxisSet.ofRequests (some 2) [-1] = .ok (AxisSet.ofList [1]) := rfl
  obtain ⟨c, u, -, hu, -, -, hsame⟩ :=
    reduce_unit_axes (σ := .f32) (r := .max) ht rfl haxes (by decide)
  refine ⟨u, hu, hsame.2 (List.forall_mem_cons.2 ⟨?_, List.forall_mem_singleton.2 ?_⟩)⟩
  · exact Bool.false_ne_true
  · exact Bool.false_ne_true

/-- Along no axes, a maximum replaces what is not a number by negative infinity, and a sum loses the
sign of a zero. -/
theorem reduce_no_axes_loses :
    (⟨⟨[1]⟩, #[Float32.ofBits 0x7FC00000]⟩ : Tensor Float32).reduce .max [] true =
        .ok ⟨⟨[1]⟩, #[Float32.ofBits 0xFF800000]⟩ ∧
      (⟨⟨[1]⟩, #[Float32.ofBits 0xFF800000]⟩ : Tensor Float32) ≠
        ⟨⟨[1]⟩, #[Float32.ofBits 0x7FC00000]⟩ ∧
      (⟨⟨[1]⟩, #[Float32.ofBits 0x80000000]⟩ : Tensor Float32).reduce .sum [] true =
        .ok ⟨⟨[1]⟩, #[Float32.ofBits 0]⟩ ∧
      (⟨⟨[1]⟩, #[Float32.ofBits 0]⟩ : Tensor Float32) ≠
        ⟨⟨[1]⟩, #[Float32.ofBits 0x80000000]⟩ := by
  refine ⟨rfl, fun h => ?_, rfl, fun h => ?_⟩
  · exact absurd (congrArg (fun t => t.data.toList.map Float32.toBits) h) (by decide)
  · exact absurd (congrArg (fun t => t.data.toList.map Float32.toBits) h) (by decide)

end Tensor

end TensorInference
