import TensorInference.Proofs.Tensor.Compose
import TensorInference.Proofs.Tensor.Reverse

/-!
# Reversing twice, and reversing and reducing

Reversals of a tensor are symmetries of its indices.  Among themselves they compose as sets of axes do
by symmetric difference: an axis that is reversed twice is as it was, and nothing else is to be
remembered of a sequence of reversals.  So each of them undoes itself, and any two can be exchanged.

A reversal can be exchanged with a reduction that keeps its axes, too, if the order of the elements
does not matter to the combiner.  The reversal carries every lane onto a lane and rearranges it on the
way (`perm_map_sources`); along axes that are reduced there is only the rearranging, and so such a
reversal does nothing to the result.

* `reversed_reversed`, `reverse_reverse` --- two reversals are one, for tensors and for kernels.
* `folded_reversed`, `reduce_reverse` --- reversals and reductions can be exchanged.
-/

namespace TensorInference

/-- There is a reversal of the axes that one of two reversals means and the other does not. -/
theorem ReversedAxes.exists_resolve_xor {rank : Nat} {axes axes' : ReversedAxes}
    {chosen chosen' : AxisSet} (h : axes.resolve (some rank) = .ok chosen)
    (h' : axes'.resolve (some rank) = .ok chosen') :
    ∃ (other : ReversedAxes) (joint : AxisSet), other.resolve (some rank) = .ok joint ∧
      ∀ axis, axis ∈ joint.axes ↔ Xor (axis ∈ chosen.axes) (axis ∈ chosen'.axes) := by
  have hlt (axis : Nat) (haxis : xor (chosen.contains axis) (chosen'.contains axis) = true) :
      axis < rank := by
    rcases AxisSet.xor_contains_iff.1 haxis with ⟨hmem, -⟩ | ⟨hmem, -⟩
    · exact lt_of_resolve h hmem
    · exact lt_of_resolve h' hmem
  obtain ⟨other, joint, hother, hjoint⟩ := exists_resolve_of_lt _ hlt
  exact ⟨other, joint, hother, fun axis => (hjoint axis).trans AxisSet.xor_contains_iff⟩

namespace Tensor

variable {α : Type} {t : Tensor α} {chosen chosen' joint : AxisSet}

/-! ## Reversing twice -/

theorem Addressable.reversed (ht : t.Addressable) (chosen : AxisSet) :
    (t.reversed chosen).Addressable :=
  ⟨(wellSized_reversed ht.wellSized chosen).size_eq, ht.solid_le⟩

/-- **Two reversals are one**, along the axes that are reversed one of the two times. -/
theorem reversed_reversed (hsize : t.data.size = t.shape.dims.prod)
    (hjoint : ∀ axis, axis ∈ joint.axes ↔ Xor (axis ∈ chosen.axes) (axis ∈ chosen'.axes)) :
    (t.reversed chosen).reversed chosen' = t.reversed joint := by
  have hlen := length_dims_eq_length_marks t chosen
  have hlen' := length_dims_eq_length_marks t chosen'
  calc (t.reversed chosen).reversed chosen'
      = t.rearranged fun index => Index.flip t.shape.dims (chosen.marks t.rank)
          (Index.flip t.shape.dims (chosen'.marks t.rank) index) :=
        rearranged_rearranged hsize (Index.isInvolution_flip _ _) (Index.isInvolution_flip _ _)
    _ = t.reversed joint := by
        refine rearranged_congr fun index hindex => ?_
        have hmarks : ∀ axis, axis ∈ joint.axes ↔
            Xor (axis ∈ chosen'.axes) (axis ∈ chosen.axes) :=
          fun axis => (hjoint axis).trans (xor_comm _ _).to_iff
        rw [Index.flip_flip hindex hlen' hlen, AxisSet.zipWith_xor_marks hmarks]

/-- A reversal along axes of extent one does nothing. -/
theorem reversed_eq_self (hsize : t.data.size = t.shape.dims.prod)
    (hone : ∀ size ∈ chosen.restrict t.shape.dims, size = 1) : t.reversed chosen = t := by
  rw [AxisSet.restrict_eq_select] at hone
  exact rearranged_eq_self hsize fun index hindex => Index.flip_eq_self hindex hone

/-- A second reversal along the same axes undoes the first. -/
theorem reversed_reversed_self (hsize : t.data.size = t.shape.dims.prod) (chosen : AxisSet) :
    (t.reversed chosen).reversed chosen = t := by
  have hnone : ∀ axis, axis ∈ AxisSet.empty.axes ↔ Xor (axis ∈ chosen.axes) (axis ∈ chosen.axes) :=
    fun axis => iff_of_false List.not_mem_nil (by simp)
  rw [reversed_reversed hsize hnone]
  refine reversed_eq_self hsize ?_
  rw [AxisSet.restrict_eq]
  exact nofun

/-! ## Reversing and folding -/

variable {axes : AxisSet} {c : Combiner α}

theorem elementAt_reversed (default : α) (hsize : t.data.size = t.shape.dims.prod)
    {index : List Nat} (hindex : Index.InRange t.shape.dims index) :
    (t.reversed chosen).elementAt default index =
      t.elementAt default (Index.flip t.shape.dims (chosen.marks t.rank) index) := by
  have hat := at?_rearranged hsize (Index.isInvolution_flip t.shape.dims (chosen.marks t.rank))
    hindex
  rw [elementAt, elementAt, Array.getD_eq_getD_getElem?, Array.getD_eq_getD_getElem?]
  exact congrArg (Option.getD · default) hat

/-- A flip carries the indices that are cleared to one index onto those that are cleared to the
flipped index. -/
theorem perm_map_sources (flipped : List Bool) {index : List Nat}
    (hindex : Index.InRange (t.folded c axes true).shape.dims index) :
    ((t.sources axes index).map (Index.flip t.shape.dims flipped)).Perm
      (t.sources axes (Index.flip (t.folded c axes true).shape.dims flipped index)) := by
  rw [dims_folded_true] at hindex ⊢
  have hlen := length_dims_eq_length_marks t axes
  have hflip := Index.isInvolution_flip t.shape.dims flipped
  refine hflip.perm_map (nodup_sources t axes index) (nodup_sources t axes _)
    (fun _ hsource => (mem_sources_iff.1 hsource).1)
    (fun _ hsource => (mem_sources_iff.1 hsource).1) fun source hrange => ?_
  rw [mem_sources_iff, mem_sources_iff, and_iff_right hrange, and_iff_right (hflip.inRange hrange),
    Index.fill_flip hrange hlen]
  -- Flipping both sides once more goes back.
  have hcleared := Index.inRange_fill hlen hrange
  have hflip' := Index.isInvolution_flip (Marks.fill 1 (axes.marks t.rank) t.shape.dims) flipped
  constructor
  · intro heq
    rw [heq, hflip'.source_source hindex]
  · intro heq
    rw [← heq, hflip'.source_source hcleared]

/-- **Folding the reversed tensor is reversing the folded one.** -/
theorem folded_reversed (hc : c.IsCommMonoid) (ht : t.Addressable) :
    (t.reversed chosen).folded c axes true = (t.folded c axes true).reversed chosen := by
  have hfolded := ht.folded_true c axes
  have hrank : (t.folded c axes true).rank = t.rank := rank_folded_true c
  refine ext_elementAt c.identity rfl (size_folded c) (hfolded.reversed chosen).size_eq
    fun index hindex => ?_
  have hindex : Index.InRange (t.folded c axes true).shape.dims index := hindex
  have hsource : ∀ source ∈ t.sources axes index,
      (t.reversed chosen).elementAt c.identity source =
        t.elementAt c.identity (Index.flip t.shape.dims (chosen.marks t.rank) source) :=
    fun source hsource => elementAt_reversed c.identity ht.size_eq (mem_sources_iff.1 hsource).1
  have hflip := Index.isInvolution_flip (t.folded c axes true).shape.dims (chosen.marks t.rank)
  calc ((t.reversed chosen).folded c axes true).elementAt c.identity index
      = c.fold ((t.sources axes index).map ((t.reversed chosen).elementAt c.identity)) :=
        elementAt_folded (ht.reversed chosen) hindex
    _ = c.fold (((t.sources axes index).map
          (Index.flip t.shape.dims (chosen.marks t.rank))).map (t.elementAt c.identity)) := by
        rw [List.map_map, List.map_congr_left hsource]
        rfl
    _ = c.fold ((t.sources axes (Index.flip (t.folded c axes true).shape.dims
          (chosen.marks t.rank) index)).map (t.elementAt c.identity)) :=
        hc.fold_perm ((perm_map_sources _ hindex).map _)
    _ = (t.folded c axes true).elementAt c.identity
          (Index.flip (t.folded c axes true).shape.dims (chosen.marks t.rank) index) :=
        (elementAt_folded ht (hflip.inRange hindex)).symm
    _ = ((t.folded c axes true).reversed chosen).elementAt c.identity index := by
        rw [elementAt_reversed c.identity hfolded.size_eq hindex, hrank]

/-- A fold does not depend on the direction of the axes along which it is taken. -/
theorem folded_reversed_of_subset (hc : c.IsCommMonoid) (ht : t.Addressable)
    (hsubset : ∀ axis ∈ chosen.axes, axis ∈ axes.axes) (keepDims : Bool) :
    (t.reversed chosen).folded c axes keepDims = t.folded c axes keepDims := by
  have hone : ∀ size ∈ chosen.restrict (t.folded c axes true).shape.dims, size = 1 := by
    have hdims : (t.folded c axes true).shape.dims =
        t.shape.dims.mapIdx fun axis size => if axis ∈ axes.axes then 1 else size :=
      AxisSet.collapse_some_eq 1 t.shape.dims
    intro size hsize
    rw [AxisSet.restrict_eq, AxisSet.along, List.mem_filterMap] at hsize
    obtain ⟨axis, haxis, hsize⟩ := hsize
    rw [hdims, List.getElem?_mapIdx, Option.map_eq_some_iff] at hsize
    obtain ⟨_, -, rfl⟩ := hsize
    exact if_pos (hsubset axis haxis)
  have hkept : (t.reversed chosen).folded c axes true = t.folded c axes true := by
    rw [folded_reversed hc ht, reversed_eq_self (size_folded c) hone]
  -- The data are the same whether the axes are kept or not.
  have hdata : ((t.reversed chosen).folded c axes true).data = (t.folded c axes true).data :=
    congrArg Tensor.data hkept
  show (⟨t.shape.reduce axes keepDims, _⟩ : Tensor α) = ⟨t.shape.reduce axes keepDims, _⟩
  rw [Tensor.mk.injEq]
  exact ⟨rfl, hdata⟩

/-! ## Main results -/

variable [Element α] {requested requested' : ReversedAxes}

/-- A reversal of an addressable tensor gives the reversed tensor. -/
theorem gives_reversed (ht : t.Addressable) (hchosen : requested.resolve (some t.rank) = .ok chosen) :
    (Kernel.reverse requested).Gives t (t.reversed chosen) :=
  ⟨reverse_eq_ok ht.wellSized hchosen (ht.reversible chosen),
    run_reverse_eq ht.wellSized hchosen (ht.reversible chosen)⟩

/-- **Reversals compose by symmetric difference.**  On an addressable tensor, two reversals, in
whichever order they come, are one reversal along the axes that one of them has and the other has
not; and there is a reversal along just these axes.  Two reversals along the same axes leave the
tensor as it was.  The axes may be requested or marked, and a request may be repeated or count from
either end. -/
theorem reverse_reverse (ht : t.Addressable) (hchosen : requested.resolve (some t.rank) = .ok chosen)
    (hchosen' : requested'.resolve (some t.rank) = .ok chosen') :
    ∃ u v w : Tensor α,
      ((Kernel.reverse requested).Gives t u ∧ (Kernel.reverse requested').Gives u w) ∧
      ((Kernel.reverse requested').Gives t v ∧ (Kernel.reverse requested).Gives v w) ∧
      (∃ (other : ReversedAxes) (joint : AxisSet), other.resolve (some t.rank) = .ok joint ∧
        ∀ axis, axis ∈ joint.axes ↔ Xor (axis ∈ chosen.axes) (axis ∈ chosen'.axes)) ∧
      (∀ (other : ReversedAxes) (joint : AxisSet), other.resolve (some t.rank) = .ok joint →
        (∀ axis, axis ∈ joint.axes ↔ Xor (axis ∈ chosen.axes) (axis ∈ chosen'.axes)) →
          (Kernel.reverse other).Gives t w) ∧
      (chosen = chosen' → w = t) := by
  obtain ⟨other, joint, hother, hjoint⟩ := ReversedAxes.exists_resolve_xor hchosen hchosen'
  have hjoint' : ∀ axis, axis ∈ joint.axes ↔ Xor (axis ∈ chosen'.axes) (axis ∈ chosen.axes) :=
    fun axis => (hjoint axis).trans (xor_comm _ _).to_iff
  refine ⟨t.reversed chosen, t.reversed chosen', t.reversed joint, ⟨gives_reversed ht hchosen, ?_⟩,
    ⟨gives_reversed ht hchosen', ?_⟩, ⟨other, joint, hother, hjoint⟩, ?_, ?_⟩
  · rw [← reversed_reversed ht.size_eq hjoint]
    exact gives_reversed (ht.reversed chosen) hchosen'
  · rw [← reversed_reversed ht.size_eq hjoint']
    exact gives_reversed (ht.reversed chosen') hchosen
  · intro other' joint' hother' hsame
    rw [← reversed_reversed ht.size_eq hjoint, reversed_reversed ht.size_eq hsame]
    exact gives_reversed ht hother'
  · rintro rfl
    rw [← reversed_reversed ht.size_eq hjoint, reversed_reversed_self ht.size_eq]

/-- Both axes of a matrix are reversed, and then the first one once more by a mask: its rows are
reversed. -/
theorem reverse_reverse_mask :
    ∃ u w : Tensor Int32,
      (Kernel.reverse (.index [-1, 0, 1])).Gives
          (⟨⟨[2, 3]⟩, #[1, 2, 3, 4, 5, 6]⟩ : Tensor Int32) u ∧
        (Kernel.reverse (.mask [true, false])).Gives u w ∧
          w = ⟨⟨[2, 3]⟩, #[3, 2, 1, 6, 5, 4]⟩ := by
  have ht : (⟨⟨[2, 3]⟩, #[1, 2, 3, 4, 5, 6]⟩ : Tensor Int32).Addressable := ⟨rfl, by decide⟩
  have hchosen : (ReversedAxes.index [-1, 0, 1]).resolve (some 2) =
      .ok (AxisSet.ofList [0, 1]) := rfl
  have hchosen' : (ReversedAxes.mask [true, false]).resolve (some 2) =
      .ok (AxisSet.ofList [0]) := rfl
  have hother : (ReversedAxes.index [1]).resolve (some 2) = .ok (AxisSet.ofList [1]) := rfl
  have hjoint (axis : Nat) : axis ∈ [1] ↔ Xor (axis ∈ [0, 1]) (axis ∈ [0]) := by
    simp [Xor]
    omega
  obtain ⟨u, -, w, ⟨hu, hw⟩, -, -, hsame, -⟩ := reverse_reverse ht hchosen hchosen'
  exact ⟨u, w, hu, hw, (Except.ok.inj (hsame _ _ hother hjoint).compute_eq).symm⟩

/-- **Reversals and reductions can be exchanged.**  On an addressable tensor of booleans or integers,
reducing what is reversed, the axes being kept, is reversing what is reduced.  If all axes that are
reversed are reduced, the reduction, with its axes kept or dropped, is the same with and without the
reversal. -/
theorem reduce_reverse {τ : ExactType} {t : Tensor τ.Value} {r : Reduction} {requests : List Int}
    (ht : t.Addressable)
    (hr : r.supports (Element.elementType τ.Value) = true)
    (haxes : AxisSet.ofRequests (some t.rank) requests = .ok axes)
    (hchosen : requested.resolve (some t.rank) = .ok chosen) :
    ∃ u v w : Tensor τ.Value,
      ((Kernel.reverse requested).Gives t u ∧ (Kernel.reduce r requests true).Gives u w) ∧
      ((Kernel.reduce r requests true).Gives t v ∧ (Kernel.reverse requested).Gives v w) ∧
      ((∀ axis ∈ chosen.axes, axis ∈ axes.axes) → ∀ keepDims : Bool,
        ∃ x : Tensor τ.Value, (Kernel.reduce r requests keepDims).Gives u x ∧
          (Kernel.reduce r requests keepDims).Gives t x) := by
  obtain ⟨c, hc⟩ := exists_combiner_of_supports hr
  have hlaws := ExactType.isCommMonoid hc
  have hrank : (t.folded c axes true).rank = t.rank := rank_folded_true c
  refine ⟨t.reversed chosen, t.folded c axes true, (t.folded c axes true).reversed chosen,
    ⟨gives_reversed ht hchosen, ?_⟩, ⟨gives_folded ht hr haxes hc, ?_⟩, fun hsubset keepDims =>
    ⟨t.folded c axes keepDims, ?_, gives_folded ht hr haxes hc⟩⟩
  · rw [← folded_reversed hlaws ht]
    exact gives_folded (ht.reversed chosen) hr haxes hc
  · exact gives_reversed (ht.folded_true c axes) (hrank.symm ▸ hchosen)
  · rw [← folded_reversed_of_subset hlaws ht hsubset]
    exact gives_folded (ht.reversed chosen) hr haxes hc

/-- The rows of a matrix are added up after both axes were reversed: the sums are in the other order,
and the direction of the rows makes no difference. -/
theorem reduce_reverse_row_wraps :
    ∃ u w : Tensor Int8,
      (Kernel.reverse (.index [0, -1])).Gives
          (⟨⟨[2, 3]⟩, #[100, 20, 30, 4, 5, 6]⟩ : Tensor Int8) u ∧
        (Kernel.reduce .sum [-1] true).Gives u w ∧ w = ⟨⟨[2, 1]⟩, #[15, -106]⟩ := by
  have ht : (⟨⟨[2, 3]⟩, #[100, 20, 30, 4, 5, 6]⟩ : Tensor Int8).Addressable := ⟨rfl, by decide⟩
  have haxes : AxisSet.ofRequests (some 2) [-1] = .ok (AxisSet.ofList [1]) := rfl
  have hchosen : (ReversedAxes.index [0, -1]).resolve (some 2) =
      .ok (AxisSet.ofList [0, 1]) := rfl
  obtain ⟨u, v, w, ⟨hu, hw⟩, ⟨hv, hw'⟩, -⟩ :=
    reduce_reverse (τ := .i8) (r := .sum) ht rfl haxes hchosen
  obtain rfl : (⟨⟨[2, 1]⟩, #[-106, 15]⟩ : Tensor Int8) = v := Except.ok.inj hv.compute_eq
  exact ⟨u, w, hu, hw, (Except.ok.inj hw'.compute_eq).symm⟩

end Tensor

end TensorInference
