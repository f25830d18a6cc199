import TensorInference.Proofs.Tensor.Element

/-!
# Lanes

Reducing a tensor along a set of axes takes the coordinates along the other axes apart from those
along the set.  The entries that agree on the former are a lane: one element of the result is made
of them.  A lane runs through the indices over the axes in the set, in row-major order
(`map_along_lane`), and `lane_eq_map` says where in the data its elements stand.
-/

namespace TensorInference.Tensor

variable {α : Type} {t : Tensor α} {axes : AxisSet}

/-- The extents along the axes that stay. -/
def keptDims (t : Tensor α) (axes : AxisSet) : List Nat :=
  AxisSet.along (axes.others t.rank) t.shape.dims

/-- The extents along the axes that are reduced. -/
def reducedDims (t : Tensor α) (axes : AxisSet) : List Nat :=
  AxisSet.along axes.axes t.shape.dims

/-- The entries with the given coordinates along the axes that stay, in row-major order. -/
def lane (t : Tensor α) (axes : AxisSet) (free : List Nat) : List (List Nat × α) :=
  t.entries.filter fun entry => AxisSet.along (axes.others t.rank) entry.1 = free

/-! ## Lanes by marks -/

theorem along_others_eq_select {index : List Nat} (h : index.length = t.rank) :
    AxisSet.along (axes.others t.rank) index = Marks.select false (axes.marks t.rank) index := by
  rw [← h, ← AxisSet.collapse_none_eq, AxisSet.collapse_none_eq_select]

theorem along_axes_eq_select {index : List Nat} (h : index.length = t.rank) :
    AxisSet.along axes.axes index = Marks.select true (axes.marks t.rank) index := by
  rw [← h, ← AxisSet.restrict_eq, AxisSet.restrict_eq_select]

theorem keptDims_eq_select (t : Tensor α) (axes : AxisSet) :
    t.keptDims axes = Marks.select false (axes.marks t.rank) t.shape.dims :=
  along_others_eq_select rfl

theorem reducedDims_eq_select (t : Tensor α) (axes : AxisSet) :
    t.reducedDims axes = Marks.select true (axes.marks t.rank) t.shape.dims :=
  along_axes_eq_select rfl

theorem length_dims_eq_length_marks (t : Tensor α) (axes : AxisSet) :
    t.shape.dims.length = (axes.marks t.rank).length :=
  (AxisSet.length_marks axes t.rank).symm

theorem length_eq_count_false {free : List Nat} (h : Index.InRange (t.keptDims axes) free) :
    free.length = (axes.marks t.rank).count false := by
  rw [Index.length_of_inRange h, keptDims_eq_select,
    Marks.length_select false (length_dims_eq_length_marks t axes)]

theorem length_eq_count_true {marked : List Nat} (h : Index.InRange (t.reducedDims axes) marked) :
    marked.length = (axes.marks t.rank).count true := by
  rw [Index.length_of_inRange h, reducedDims_eq_select,
    Marks.length_select true (length_dims_eq_length_marks t axes)]

theorem inRange_weave {free marked : List Nat} (hfree : Index.InRange (t.keptDims axes) free)
    (hmarked : Index.InRange (t.reducedDims axes) marked) :
    Index.InRange t.shape.dims (Marks.weave (axes.marks t.rank) free marked) := by
  rw [keptDims_eq_select] at hfree
  rw [reducedDims_eq_select] at hmarked
  exact Index.inRange_weave (length_dims_eq_length_marks t axes) hfree hmarked

/-- The indices of a lane, in order. -/
theorem filter_all_along_eq_map_weave {free : List Nat}
    (hfree : Index.InRange (t.keptDims axes) free) :
    (Index.all t.shape.dims).filter
        (fun index => AxisSet.along (axes.others t.rank) index = free) =
      (Index.all (t.reducedDims axes)).map (Marks.weave (axes.marks t.rank) free) := by
  rw [keptDims_eq_select] at hfree
  rw [reducedDims_eq_select,
    ← Index.filter_all_eq_map_weave (length_dims_eq_length_marks t axes) hfree]
  refine List.filter_congr fun index hindex => ?_
  have hlength : index.length = t.rank := Index.length_of_inRange (Index.mem_all_iff.1 hindex)
  rw [along_others_eq_select hlength]

/-- The elements of a lane stand at the positions of its indices. -/
theorem lane_eq_map (default : α) (hsize : t.data.size = t.shape.dims.prod) {free : List Nat}
    (hfree : Index.InRange (t.keptDims axes) free) :
    t.lane axes free =
      ((Index.all (t.reducedDims axes)).map (Marks.weave (axes.marks t.rank) free)).map
        fun index => (index, t.elementAt default index) := by
  rw [lane, entries_eq_map default hsize, List.filter_map, ← filter_all_along_eq_map_weave hfree]
  rfl

/-- A lane runs through the indices over the reduced axes in row-major order. -/
theorem map_along_lane (hsize : t.data.size = t.shape.dims.prod) {free : List Nat}
    (hfree : Index.InRange (t.keptDims axes) free) :
    (t.lane axes free).map (fun entry => AxisSet.along axes.axes entry.1) =
      Index.all (t.reducedDims axes) := by
  have hindices : t.entries.map Prod.fst = Index.all t.shape.dims :=
    List.map_fst_zip (Nat.le_of_eq (length_all_dims hsize))
  have hlane : (t.lane axes free).map Prod.fst =
      (Index.all (t.reducedDims axes)).map (Marks.weave (axes.marks t.rank) free) := by
    rw [← filter_all_along_eq_map_weave hfree, ← hindices, List.filter_map]
    rfl
  calc (t.lane axes free).map (fun entry => AxisSet.along axes.axes entry.1)
      = ((t.lane axes free).map Prod.fst).map (AxisSet.along axes.axes) := by
        rw [List.map_map]
        rfl
    _ = (Index.all (t.reducedDims axes)).map fun marked =>
          AxisSet.along axes.axes (Marks.weave (axes.marks t.rank) free marked) := by
        rw [hlane, List.map_map]
        rfl
    _ = (Index.all (t.reducedDims axes)).map id := by
        refine List.map_congr_left fun marked hmarked => ?_
        have hmarked := Index.mem_all_iff.1 hmarked
        have hindex := inRange_weave hfree hmarked
        rw [along_axes_eq_select (Index.length_of_inRange hindex),
          (Marks.select_weave (length_eq_count_false hfree) (length_eq_count_true hmarked)).2, id]
    _ = Index.all (t.reducedDims axes) := List.map_id _

end TensorInference.Tensor
