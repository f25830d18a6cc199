import TensorInference.Proofs.Reduction.Laws
import TensorInference.Proofs.Tensor.Mirror
import TensorInference.Proofs.Tensor.Reduce

/-!
# Reducing twice

A reduction that keeps its axes can be followed by another along any of them, those of extent one
included.  If order and grouping do not matter to the combiner, two reductions are one along all the
axes of both, and so it does not matter which of the two comes first.

Reduced axes that are kept have a coordinate of zero in the result.  Clearing the coordinates along
them, by `Marks.fill 0`, is therefore going from the tensor to the result, and an element of the
result is the fold of the elements whose indices are cleared to its own (`elementAt_folded`).
Clearing twice is clearing once (`AxisSet.fill_marks_fill_marks`), so the lanes of the second
reduction are groups of the lanes of the whole (`filter_sources`).

What stands between the two reductions is stored.  Along a zero extent a reduction makes something
out of nothing, so it can be too large for that, and then two reductions stop where one does not.
Without zero extents it is never larger than the tensor.

* `folded_folded` --- two reductions are one, for folds.
* `reduce_reduce` --- two reductions are one, for kernels, and when this is so of their runs.
-/

namespace TensorInference

/-- Requests that are accepted are accepted together, and then mean the axes of both. -/
theorem AxisSet.exists_ofRequests_append {rank : Nat} {requests requests' : List Int}
    {axes axes' : AxisSet} (h : ofRequests (some rank) requests = .ok axes)
    (h' : ofRequests (some rank) requests' = .ok axes') :
    ∃ joint, ofRequests (some rank) (requests ++ requests') = .ok joint ∧
      ∀ axis, axis ∈ joint.axes ↔ axis ∈ axes.axes ∨ axis ∈ axes'.axes := by
  have hjoint : ofRequests (some rank) (requests ++ requests') =
      .ok (ofList ((requests ++ requests').filterMap (resolveAxis? rank))) := by
    refine ofRequests_eq_ok_iff.2 ⟨fun request hrequest => ?_, rfl⟩
    rcases List.mem_append.1 hrequest with hmem | hmem
    · exact (ofRequests_eq_ok_iff.1 h).1 request hmem
    · exact (ofRequests_eq_ok_iff.1 h').1 request hmem
  refine ⟨_, hjoint, fun axis => ?_⟩
  rw [mem_iff_of_ofRequests h, mem_iff_of_ofRequests h', mem_iff_of_ofRequests hjoint]
  simp only [List.mem_append, or_and_right, exists_or]

/-- Extents of one are no larger than others, with zeros counted as ones. -/
theorem Word.prod_max_fill_le {marks : List Bool} {dims : List Nat}
    (hlen : dims.length = marks.length) :
    ((Marks.fill 1 marks dims).map (max · 1)).prod ≤ (dims.map (max · 1)).prod := by
  induction marks generalizing dims with
  | nil =>
    obtain rfl := List.eq_nil_of_length_eq_zero hlen
    exact Nat.le_refl _
  | cons mark marks ih =>
    obtain ⟨size, dims, rfl⟩ := List.exists_cons_of_length_eq_add_one hlen
    rw [Marks.fill, List.map_cons, List.map_cons, List.prod_cons, List.prod_cons]
    refine Nat.mul_le_mul ?_ (ih (Nat.succ.inj hlen))
    cases mark with
    | true => exact Nat.le_max_right _ _
    | false => exact Nat.le_refl _

namespace Tensor

variable {α : Type} {t : Tensor α} {axes axes' joint : AxisSet} {c : Combiner α}

/-! ## Elements -/

/-- Tensors of one shape that agree at all indices are the same. -/
theorem ext_elementAt {u : Tensor α} (default : α) (hdims : t.shape.dims = u.shape.dims)
    (ht : t.data.size = t.shape.dims.prod) (hu : u.data.size = u.shape.dims.prod)
    (h : ∀ index, Index.InRange t.shape.dims index →
      t.elementAt default index = u.elementAt default index) : t = u := by
  have hdata : t.data.toList = u.data.toList := by
    rw [toList_data_eq_map default ht, toList_data_eq_map default hu, ← hdims]
    exact List.map_congr_left fun index hindex => h index (Index.mem_all_iff.1 hindex)
  obtain ⟨⟨dims⟩, data⟩ := t
  obtain ⟨⟨dims'⟩, data'⟩ := u
  obtain rfl : dims = dims' := hdims
  obtain rfl : data = data' := Array.toList_inj.1 hdata
  rfl

/-! ## Kept axes -/

theorem dims_folded_true (c : Combiner α) :
    (t.folded c axes true).shape.dims = Marks.fill 1 (axes.marks t.rank) t.shape.dims := by
  rw [dims_folded, if_pos rfl]

theorem rank_folded_true (c : Combiner α) : (t.folded c axes true).rank = t.rank := by
  show (t.folded c axes true).shape.dims.length = t.shape.dims.length
  rw [dims_folded_true, Marks.length_fill 1 (length_dims_eq_length_marks t axes)]

theorem Addressable.folded_true (ht : t.Addressable) (c : Combiner α) (axes : AxisSet) :
    (t.folded c axes true).Addressable := by
  refine ⟨size_folded c, ?_⟩
  rw [Word.prod_filter_ne_zero, dims_folded_true]
  exact Nat.le_trans (Word.prod_max_fill_le (length_dims_eq_length_marks t axes)) ht.prod_max_le

/-- Fewer elements fit where more do. -/
theorem fits_of_le [Element α] {count count' : Nat} (hle : count' ≤ count)
    (h : fits α count = true) : fits α count' = true := by
  rw [fits] at h ⊢
  cases hattributes : (Element.elementType α).attributes? with
  | none => rfl
  | some attributes =>
    rw [hattributes] at h
    exact Storage.holds_of_le hle h

/-- Without zero extents, keeping the reduced axes gives no more elements than there were. -/
theorem size_folded_true_le (ht : t.Addressable) (hzero : 0 ∉ t.shape.dims) (c : Combiner α)
    (axes : AxisSet) : (t.folded c axes true).size ≤ t.size := by
  have hsize : (t.folded c axes true).size = (t.folded c axes true).shape.dims.prod :=
    size_folded c
  have htsize : t.size = t.shape.dims.prod := ht.size_eq
  rw [hsize, htsize, dims_folded_true, ← Word.prod_max_eq_prod hzero]
  exact Nat.le_trans (Word.prod_le_prod_max _)
    (Word.prod_max_fill_le (length_dims_eq_length_marks t axes))

/-- The indices that are cleared to an index of the result. -/
def sources (t : Tensor α) (axes : AxisSet) (index : List Nat) : List (List Nat) :=
  (Index.all t.shape.dims).filter fun source => Marks.fill 0 (axes.marks t.rank) source = index

theorem mem_sources_iff {index source : List Nat} :
    source ∈ t.sources axes index ↔
      Index.InRange t.shape.dims source ∧ Marks.fill 0 (axes.marks t.rank) source = index := by
  rw [sources, List.mem_filter, Index.mem_all_iff, decide_eq_true_iff]

theorem nodup_sources (t : Tensor α) (axes : AxisSet) (index : List Nat) :
    (t.sources axes index).Nodup :=
  (Index.nodup_all t.shape.dims).filter _

/-- The elements of a lane are those at the indices that are cleared to the index of the lane. -/
theorem map_snd_lane (default : α) (ht : t.Addressable) {index : List Nat}
    (hindex : Index.InRange (t.folded c axes true).shape.dims index) :
    (t.lane axes (t.freeIndex axes true index)).map Prod.snd =
      (t.sources axes index).map (t.elementAt default) := by
  have hlen := length_dims_eq_length_marks t axes
  rw [dims_folded_true] at hindex
  have hrank : index.length = t.rank := by
    rw [Index.length_of_inRange hindex, Marks.length_fill 1 hlen]
    rfl
  rw [lane, entries_eq_map default ht.size_eq, List.filter_map, List.map_map]
  refine congrArg (List.map _) (List.filter_congr fun source hsource => ?_)
  have hsource := Index.mem_all_iff.1 hsource
  have hcleared := Index.fill_zero_eq_iff hlen hsource hindex
  rw [freeIndex, if_pos rfl, along_others_eq_select hrank, Function.comp_apply,
    along_others_eq_select (Index.length_of_inRange hsource)]
  simp only [hcleared]

/-- An element of the result is the fold of the elements whose indices are cleared to its own. -/
theorem elementAt_folded (ht : t.Addressable) {index : List Nat}
    (hindex : Index.InRange (t.folded c axes true).shape.dims index) :
    (t.folded c axes true).elementAt c.identity index =
      c.fold ((t.sources axes index).map (t.elementAt c.identity)) := by
  have htraversable := ht.traversable axes
  have hget := get?_folded c htraversable hindex
  rw [get?_eq (wellSized_folded c htraversable) hindex, Except.ok.injEq] at hget
  rw [elementAt, Array.getD_eq_getD_getElem?, hget, Option.getD_some,
    map_snd_lane c.identity ht hindex]

/-! ## Folds of folds -/

section Joint

variable (hjoint : ∀ axis, axis ∈ joint.axes ↔ axis ∈ axes.axes ∨ axis ∈ axes'.axes)
include hjoint

theorem dims_folded_folded (c : Combiner α) :
    ((t.folded c axes true).folded c axes' true).shape.dims =
      (t.folded c joint true).shape.dims := by
  rw [dims_folded_true, dims_folded_true, dims_folded_true, rank_folded_true,
    AxisSet.fill_marks_fill_marks hjoint]

/-- Clearing some of the coordinates leads to an index that clearing the others takes further. -/
theorem fill_mem_sources (c : Combiner α) {index source : List Nat}
    (h : source ∈ t.sources joint index) :
    Marks.fill 0 (axes.marks t.rank) source ∈ (t.folded c axes true).sources axes' index := by
  obtain ⟨hsource, hindex⟩ := mem_sources_iff.1 h
  rw [mem_sources_iff, dims_folded_true, rank_folded_true, AxisSet.fill_marks_fill_marks hjoint]
  exact ⟨Index.inRange_fill (length_dims_eq_length_marks t axes) hsource, hindex⟩

/-- The lanes of the second fold are groups of the lanes of the whole. -/
theorem filter_sources {index key : List Nat}
    (h : key ∈ (t.folded c axes true).sources axes' index) :
    ((t.sources joint index).filter fun source => Marks.fill 0 (axes.marks t.rank) source = key) =
      t.sources axes key := by
  obtain ⟨-, hkey⟩ := mem_sources_iff.1 h
  rw [rank_folded_true] at hkey
  rw [sources, sources, List.filter_filter]
  refine List.filter_congr fun source _ => ?_
  rw [← AxisSet.fill_marks_fill_marks hjoint]
  by_cases hsource : Marks.fill 0 (axes.marks t.rank) source = key
  · simp [hsource, hkey]
  · simp [hsource]

/-- **Two folds are one**, along the axes of both. -/
theorem folded_folded (hc : c.IsCommMonoid) (ht : t.Addressable) :
    (t.folded c axes true).folded c axes' true = t.folded c joint true := by
  have hdims := dims_folded_folded (t := t) hjoint c
  refine ext_elementAt c.identity hdims (size_folded c) (size_folded c) fun index hindex => ?_
  have hgroups : ∀ key ∈ (t.folded c axes true).sources axes' index,
      (t.folded c axes true).elementAt c.identity key =
        c.fold (((t.sources joint index).filter
          fun source => Marks.fill 0 (axes.marks t.rank) source = key).map
            (t.elementAt c.identity)) := by
    intro key hkey
    rw [filter_sources hjoint hkey, elementAt_folded ht (mem_sources_iff.1 hkey).1]
  calc ((t.folded c axes true).folded c axes' true).elementAt c.identity index
      = c.fold (((t.folded c axes true).sources axes' index).map
          ((t.folded c axes true).elementAt c.identity)) :=
        elementAt_folded (ht.folded_true c axes) hindex
    _ = c.fold (((t.folded c axes true).sources axes' index).map fun key =>
          c.fold (((t.sources joint index).filter
            fun source => Marks.fill 0 (axes.marks t.rank) source = key).map
              (t.elementAt c.identity))) := by
        rw [List.map_congr_left hgroups]
    _ = c.fold ((t.sources joint index).map (t.elementAt c.identity)) :=
        hc.fold_groups _ _ (nodup_sources _ axes' index) fun _ => fill_mem_sources hjoint c
    _ = (t.folded c joint true).elementAt c.identity index :=
        (elementAt_folded ht (hdims ▸ hindex)).symm

end Joint

/-! ## Main result -/

/-- A reduction that is supported gives the folds of the lanes. -/
theorem gives_folded [Element α] {r : Reduction} {requests : List Int} {keepDims : Bool}
    (ht : t.Addressable) (hr : r.supports (Element.elementType α) = true)
    (haxes : AxisSet.ofRequests (some t.rank) requests = .ok axes)
    (hc : Element.combiner? r = some c) :
    (Kernel.reduce r requests keepDims).Gives t (t.folded c axes keepDims) := by
  have hinfer : (Operator.reduce r requests keepDims).infer [t.info] =
      .ok (t.folded c axes keepDims).info :=
    infer_reduce_eq_ok_iff.2 ⟨hr, axes, haxes, info_folded c⟩
  have hcompute := reduce_eq_ok ht.wellSized hinfer haxes hc (ht.traversable axes)
  exact ⟨hcompute, Kernel.run_eq_of_compute hinfer hcompute
    (wellSized_folded c (ht.traversable axes))⟩

/-- **Two reductions are one.**  On an addressable tensor of booleans or integers, reducing along
some axes and the result along others, the axes being kept, is reducing along all of them at once,
in whichever order the two come.  The axes may overlap, and may be named more than once and from
either end.  Run one after the other, the two end like the one just when storage holds what stands
between them, or does not hold the end result either; and the two orders end alike just when storage
makes no difference between them in this.  It makes none if the tensor is stored and has no zero
extent. -/
theorem reduce_reduce {τ : ExactType} {t : Tensor τ.Value} {r : Reduction} {first second : List Int}
    (ht : t.Addressable) (hr : r.supports (Element.elementType τ.Value) = true)
    (hfirst : AxisSet.ofRequests (some t.rank) first = .ok axes)
    (hsecond : AxisSet.ofRequests (some t.rank) second = .ok axes') :
    ∃ u v w : Tensor τ.Value,
      (Kernel.reduce r first true).Gives t u ∧ (Kernel.reduce r second true).Gives u w ∧
      (Kernel.reduce r second true).Gives t v ∧ (Kernel.reduce r first true).Gives v w ∧
      (Kernel.reduce r (first ++ second) true).Gives t w ∧
      ((Kernel.reduce r first true).runBoth (.reduce r second true) t =
          (Kernel.reduce r (first ++ second) true).run t ↔
        (fits τ.Value w.size = true → fits τ.Value u.size = true)) ∧
      ((Kernel.reduce r second true).runBoth (.reduce r first true) t =
          (Kernel.reduce r (first ++ second) true).run t ↔
        (fits τ.Value w.size = true → fits τ.Value v.size = true)) ∧
      ((Kernel.reduce r first true).runBoth (.reduce r second true) t =
          (Kernel.reduce r second true).runBoth (.reduce r first true) t ↔
        (fits τ.Value w.size = true → fits τ.Value u.size = fits τ.Value v.size)) ∧
      (0 ∉ t.shape.dims → fits τ.Value t.size = true →
        fits τ.Value u.size = true ∧ fits τ.Value v.size = true) := by
  obtain ⟨c, hc⟩ := exists_combiner_of_supports hr
  have hlaws := ExactType.isCommMonoid hc
  obtain ⟨joint, hrequests, hjoint⟩ := AxisSet.exists_ofRequests_append hfirst hsecond
  have hjoint' : ∀ axis, axis ∈ joint.axes ↔ axis ∈ axes'.axes ∨ axis ∈ axes.axes :=
    fun axis => (hjoint axis).trans or_comm
  have hu : (Kernel.reduce r first true).Gives t (t.folded c axes true) :=
    gives_folded ht hr hfirst hc
  have hv : (Kernel.reduce r second true).Gives t (t.folded c axes' true) :=
    gives_folded ht hr hsecond hc
  have hw : (Kernel.reduce r (first ++ second) true).Gives t (t.folded c joint true) :=
    gives_folded ht hr hrequests hc
  have huw : (Kernel.reduce r second true).Gives (t.folded c axes true) (t.folded c joint true) := by
    rw [← folded_folded hjoint hlaws ht]
    refine gives_folded (ht.folded_true c axes) hr ?_ hc
    rwa [rank_folded_true]
  have hvw : (Kernel.reduce r first true).Gives (t.folded c axes' true) (t.folded c joint true) := by
    rw [← folded_folded hjoint' hlaws ht]
    refine gives_folded (ht.folded_true c axes') hr ?_ hc
    rwa [rank_folded_true]
  refine ⟨_, _, _, hu, huw, hv, hvw, hw, Kernel.runBoth_eq_run_iff hu huw hw,
    Kernel.runBoth_eq_run_iff hv hvw hw, Kernel.runBoth_eq_runBoth_iff hu huw hv hvw hw, ?_⟩
  intro hzero hfits
  exact ⟨fits_of_le (size_folded_true_le ht hzero c axes) hfits,
    fits_of_le (size_folded_true_le ht hzero c axes') hfits⟩

/-- A matrix is added up row by row, and what is left once more along both axes.  In the other order
the same comes out. -/
theorem reduce_reduce_rows_first :
    ∃ u w : Tensor Int8,
      (Kernel.reduce .sum [-1, 1] true).Gives (⟨⟨[2, 3]⟩, #[100, 20, 3, 4, 5, 6]⟩ : Tensor Int8) u ∧
      (Kernel.reduce .sum [0, 1] true).Gives u w ∧ w = ⟨⟨[1, 1]⟩, #[-118]⟩ ∧
      (Kernel.reduce .sum [-1, 1] true).runBoth (.reduce .sum [0, 1] true)
          (⟨⟨[2, 3]⟩, #[100, 20, 3, 4, 5, 6]⟩ : Tensor Int8) =
        (Kernel.reduce .sum [0, 1] true).runBoth (.reduce .sum [-1, 1] true)
          (⟨⟨[2, 3]⟩, #[100, 20, 3, 4, 5, 6]⟩ : Tensor Int8) := by
  have ht : (⟨⟨[2, 3]⟩, #[100, 20, 3, 4, 5, 6]⟩ : Tensor Int8).Addressable := ⟨rfl, by decide⟩
  have hfirst : AxisSet.ofRequests (some 2) [-1, 1] = .ok (AxisSet.ofList [1]) := rfl
  have hsecond : AxisSet.ofRequests (some 2) [0, 1] = .ok (AxisSet.ofList [0, 1]) := rfl
  obtain ⟨u, v, w, hu, hw, -, -, hjoint, -, -, horders, hheld⟩ :=
    reduce_reduce (τ := .i8) (r := .sum) ht rfl hfirst hsecond
  obtain ⟨hufits, hvfits⟩ := hheld (by decide) rfl
  exact ⟨u, w, hu, hw, (Except.ok.inj hjoint.compute_eq).symm,
    horders.2 fun _ => hufits.trans hvfits.symm⟩

/-- More rows than storage holds numbers for, and no columns. -/
def noColumns : Tensor Int32 := ⟨⟨[0x4000000000000000, 0]⟩, #[]⟩

/-- Along the columns first, the sums of the rows would have to be stored, and there are too many of
them.  In the other order, and along both axes at once, nothing but their sum is stored. -/
theorem runBoth_noColumns :
    noColumns.Addressable ∧ Reduction.sum.supports (Element.elementType Int32) = true ∧
      AxisSet.ofRequests (some noColumns.rank) [1] = .ok (.ofList [1]) ∧
      AxisSet.ofRequests (some noColumns.rank) [0] = .ok (.ofList [0]) ∧
      (Kernel.reduce .sum [1] true).runBoth (.reduce .sum [0] true) noColumns =
        .error (.stopped .exhausted) ∧
      (Kernel.reduce .sum [0] true).runBoth (.reduce .sum [1] true) noColumns =
        .ok ⟨⟨[1, 1]⟩, #[0]⟩ ∧
      (Kernel.reduce .sum ([1] ++ [0]) true).run noColumns = .ok ⟨⟨[1, 1]⟩, #[0]⟩ :=
  ⟨⟨rfl, by decide⟩, rfl, rfl, rfl, rfl, rfl, rfl⟩

end Tensor

end TensorInference
