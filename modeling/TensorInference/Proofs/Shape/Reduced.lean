import TensorInference.Proofs.Axis.Split
import TensorInference.Shape.Reduced

/-!
# Laws of reduced shapes

What a reduction leaves of a partial shape is stated here along the axes: those outside the set keep
their dimensions and their order, and those in the set have an extent of one or are gone.  Axes past
the rank change nothing.

Two reductions are one, along the axes of both.  When the first drops its axes, the others move up,
and the second has to call them by their new numbers.  An axis moves up by the number of dropped axes
before it, `AxisSet.before`, and so it comes to stand at its place among the axes that are left.  The
renumbered set has no place for axes that were dropped already or are past the rank, and neither have
the marks that are left of a set.

* `AxisSet.length_others`, `AxisSet.getElem?_others_eq_some_iff` --- the axes that are left, and the
  place of each of them.
* `AxisSet.marks_renumber` --- the renumbered set by its marks.
* `reduce_true_reduce_true`, `reduce_false_reduce_false` --- two reductions.
* `reduce_laws` --- all of it together.
-/

namespace TensorInference

namespace AxisSet

variable {axes axes' : AxisSet} {axis rank : Nat}

/-! ## Sets of axes -/

/-- The axes of one set or another. -/
def union (axes axes' : AxisSet) : AxisSet :=
  ofList (axes.axes ++ axes'.axes)

/-- The number of axes of a set that stand before a given one. -/
def before (axes : AxisSet) (axis : Nat) : Nat :=
  (axes.axes.filter (· < axis)).length

/-- What the axes of a set are called after others were dropped.  Of axes that were dropped
themselves, or that there are none of at this rank, nothing is left. -/
def renumber (dropped : AxisSet) (rank : Nat) (axes : AxisSet) : AxisSet :=
  ofList ((axes.axes.filter fun axis => axis < rank ∧ axis ∉ dropped.axes).map fun axis =>
    axis - dropped.before axis)

theorem mem_union_iff :
    axis ∈ (axes.union axes').axes ↔ axis ∈ axes.axes ∨ axis ∈ axes'.axes := by
  rw [union, ofList, Ascending.mem_ofList, List.mem_append]

/-! ## The axes that are left -/

theorem mem_others_iff : axis ∈ axes.others rank ↔ axis < rank ∧ axis ∉ axes.axes := by
  rw [others, List.mem_filter, List.mem_range, decide_eq_true_iff]

theorem nodup_others (axes : AxisSet) (rank : Nat) : (axes.others rank).Nodup :=
  List.nodup_range.filter _

/-- Of all axes, those of the set are missing. -/
theorem length_others (axes : AxisSet) (rank : Nat) :
    (axes.others rank).length = rank - axes.before rank := by
  have hsplit := List.length_eq_length_filter_add (l := List.range rank) (· ∈ axes.axes)
  rw [List.length_range, filter_range_mem_eq] at hsplit
  have hothers : (axes.others rank).length =
      ((List.range rank).filter fun axis => !decide (axis ∈ axes.axes)).length := by
    simp only [others, decide_not]
  rw [before, hothers]
  omega

theorem getElem?_others_sub_before (hlt : axis < rank) (haxis : axis ∉ axes.axes) :
    (axes.others rank)[axis - axes.before axis]? = some axis := by
  obtain ⟨more, rfl⟩ := Nat.exists_eq_add_of_lt hlt
  have hrange : List.range (axis + more + 1) =
      List.range axis ++ axis :: List.range' (axis + 1) more := by
    rw [List.range_eq_range', List.range_eq_range', Nat.add_assoc, ← List.range'_append_1,
      Nat.zero_add, List.range'_succ]
  -- The axes that are left before this one are those that are left at its own rank.
  rw [← length_others, others, hrange, List.filter_append, List.filter_cons_of_pos (by simpa),
    others, List.getElem?_append_right (Nat.le_refl _), Nat.sub_self, List.getElem?_cons_zero]

/-- An axis that is left stands where the axes dropped before it let it move, and nowhere else. -/
theorem getElem?_others_eq_some_iff {number : Nat} :
    (axes.others rank)[number]? = some axis ↔
      axis < rank ∧ axis ∉ axes.axes ∧ axis - axes.before axis = number := by
  constructor
  · intro h
    obtain ⟨hlt, hleft⟩ := mem_others_iff.1 (List.mem_of_getElem? h)
    have hplace := getElem?_others_sub_before hlt hleft
    have hlength := (List.getElem?_eq_some_iff.1 hplace).1
    refine ⟨hlt, hleft, ?_⟩
    exact (List.getElem?_inj hlength (nodup_others axes rank)).1 (hplace.trans h.symm)
  · rintro ⟨hlt, hleft, rfl⟩
    exact getElem?_others_sub_before hlt hleft

theorem mem_renumber_iff {dropped : AxisSet} {number : Nat} :
    number ∈ (dropped.renumber rank axes).axes ↔
      ∃ axis ∈ axes.axes, (dropped.others rank)[number]? = some axis := by
  rw [renumber, ofList, Ascending.mem_ofList, List.mem_map]
  simp only [List.mem_filter, decide_eq_true_iff, getElem?_others_eq_some_iff, and_assoc]

/-- Going through the axes by marks leaves the others. -/
theorem select_false_range (axes : AxisSet) (rank : Nat) :
    Marks.select false (axes.marks rank) (List.range rank) = axes.others rank := by
  have hcollapse : axes.collapse none (List.range rank) =
      Marks.select false (axes.marks (List.range rank).length) (List.range rank) :=
    collapse_none_eq_select _
  rw [collapse_none_eq, List.length_range] at hcollapse
  rw [← hcollapse, along]
  conv_rhs => rw [← List.filterMap_some (l := axes.others rank)]
  refine List.filterMap_congr fun axis haxis => ?_
  exact List.getElem?_range (mem_others_iff.1 haxis).1

theorem length_collapse_none {β : Type} (axes : AxisSet) (entries : List β) :
    (axes.collapse none entries).length = (axes.others entries.length).length := by
  rw [collapse_none_eq_select, Marks.length_select false (length_marks axes entries.length).symm,
    ← select_false_range, Marks.length_select false (by simp)]

/-- What is left of marks after axes were dropped are the marks of the renumbered set. -/
theorem marks_renumber (dropped axes : AxisSet) (rank : Nat) :
    (dropped.renumber rank axes).marks (dropped.others rank).length =
      Marks.select false (dropped.marks rank) (axes.marks rank) := by
  show (List.range (dropped.others rank).length).map (dropped.renumber rank axes).contains =
    Marks.select false (dropped.marks rank) ((List.range rank).map axes.contains)
  rw [← Marks.map_select, select_false_range]
  refine List.ext_getElem (by simp) fun number _ hnumber => ?_
  rw [List.length_map] at hnumber
  have hget := List.getElem?_eq_getElem hnumber
  rw [List.getElem_map, List.getElem_map, List.getElem_range, Bool.eq_iff_iff, contains_iff_mem,
    contains_iff_mem, mem_renumber_iff]
  constructor
  · rintro ⟨axis, haxis, haxis'⟩
    obtain rfl := Option.some.inj (hget.symm.trans haxis')
    exact haxis
  · intro haxis
    exact ⟨_, haxis, hget⟩

end AxisSet

namespace PartialShape

/-! ## Two reductions -/

theorem reduce_true_reduce_true (axes axes' : AxisSet) (dims : List Dimension) :
    ((ranked dims).reduce axes true).reduce axes' true =
      (ranked dims).reduce (axes.union axes') true := by
  have hlen := AxisSet.length_marks axes dims.length
  show ranked (axes'.collapse (some (.known 1)) (axes.collapse (some (.known 1)) dims)) =
    ranked ((axes.union axes').collapse (some (.known 1)) dims)
  rw [AxisSet.collapse_some_eq_fill, AxisSet.collapse_some_eq_fill, AxisSet.collapse_some_eq_fill,
    Marks.length_fill _ hlen.symm,
    AxisSet.fill_marks_fill_marks (u := axes.union axes') fun _ => AxisSet.mem_union_iff]

/-- When axes are dropped, the second reduction has to call the others by their new numbers. -/
theorem reduce_false_reduce_false (axes axes' : AxisSet) (dims : List Dimension) :
    ((ranked dims).reduce axes false).reduce (axes.renumber dims.length axes') false =
      (ranked dims).reduce (axes.union axes') false := by
  show ranked ((axes.renumber dims.length axes').collapse none (axes.collapse none dims)) =
    ranked ((axes.union axes').collapse none dims)
  rw [AxisSet.collapse_none_eq_select, AxisSet.length_collapse_none, AxisSet.marks_renumber,
    AxisSet.collapse_none_eq_select, Marks.select_false_select_false (by simp),
    AxisSet.zipWith_or_marks (u := axes.union axes') fun _ => AxisSet.mem_union_iff,
    AxisSet.collapse_none_eq_select]

theorem rank?_reduce_false (axes : AxisSet) (dims : List Dimension) :
    ((ranked dims).reduce axes false).rank? = some (dims.length - axes.before dims.length) := by
  show some (axes.collapse none dims).length = _
  rw [AxisSet.length_collapse_none, AxisSet.length_others]

/-- **What a reduction leaves of a shape.**  If axes are kept, those of the set have an extent of one
afterwards and the others the one they had; if they are dropped, the others are left, in their order.
Of an unknown rank nothing is known afterwards.  Two reductions are one, along the axes of both, where
the second has to go by the new numbers if the first drops its axes. -/
theorem reduce_laws (axes axes' : AxisSet) (dims : List Dimension) :
    ((ranked dims).reduce axes true =
        ranked (dims.mapIdx fun axis d => if axis ∈ axes.axes then .known 1 else d) ∧
      ((ranked dims).reduce axes true).rank? = some dims.length) ∧
    ((ranked dims).reduce axes false = ranked (AxisSet.along (axes.others dims.length) dims) ∧
      ((ranked dims).reduce axes false).rank? = some (dims.length - axes.before dims.length)) ∧
    (∀ keepDims, unranked.reduce axes keepDims = unranked) ∧
    ((ranked dims).reduce axes true).reduce axes' true =
      (ranked dims).reduce (axes.union axes') true ∧
    ((ranked dims).reduce axes false).reduce (axes.renumber dims.length axes') false =
      (ranked dims).reduce (axes.union axes') false := by
  have hkept : (ranked dims).reduce axes true =
      ranked (dims.mapIdx fun axis d => if axis ∈ axes.axes then .known 1 else d) :=
    congrArg ranked (AxisSet.collapse_some_eq _ dims)
  refine ⟨⟨hkept, ?_⟩, ⟨?_, rank?_reduce_false axes dims⟩, fun _ => rfl,
    reduce_true_reduce_true axes axes' dims, reduce_false_reduce_false axes axes' dims⟩
  · rw [hkept, rank?_ranked, List.length_mapIdx]
  · exact congrArg ranked (AxisSet.collapse_none_eq dims)

/-- After the first axis of four is dropped, the last one has the number two.  An axis that is dropped
already has none, and neither has one past the rank. -/
example : (AxisSet.ofList [0]).renumber 4 (AxisSet.ofList [0, 3, 7]) = AxisSet.ofList [2] := by
  decide

end PartialShape

end TensorInference
