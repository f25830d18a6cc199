import TensorInference.Proofs.Outcome
import TensorInference.Proofs.Tensor.Lane
import TensorInference.Tensor.Reduce

/-!
# Folding lanes

A reduction finds the elements of a lane by counting twice, through the axes that stay and through
those that are reduced, and adding the two offsets; `Layout.distance_weave` says that the sum is the
offset of one index, woven from two.

Counting needs its numbers to stay in the word.  In a tensor with elements they do.  In one without,
huge extents can stand beside the zero, and `Traversable` says what is needed then: the extents that
stay can be multiplied from the left, so can those that are reduced, and the last lane begins at an
offset in the word, unless there are no lanes.

* `foldLane_eq_ok` --- one lane.
* `foldLanes_eq_ok`, `foldLanes_eq_error` --- all lanes, of a tensor that is traversable and of one
  that is not.
* `Addressable.traversable` --- which tensors are traversable along any axes.
-/

namespace TensorInference.Tensor

variable {α : Type} {t : Tensor α} {axes : AxisSet}

/-! ## Traversable tensors -/

/-- The numbers that a reduction counts with stay in the word. -/
structure Traversable (t : Tensor α) (axes : AxisSet) : Prop where
  kept_runs : Word.RunsWithin (t.keptDims axes)
  reduced_runs : Word.RunsWithin (t.reducedDims axes)
  farthest_le : 0 ∈ t.keptDims axes ∨ Layout.farthest (t.keptSpans axes) ≤ Word.maxValue

theorem keptSpans_eq_select (t : Tensor α) (axes : AxisSet) :
    t.keptSpans axes = Marks.select false (axes.marks t.rank) t.spans := by
  rw [keptSpans, AxisSet.collapse_none_eq_select, length_spans]

theorem reducedSpans_eq_select (t : Tensor α) (axes : AxisSet) :
    t.reducedSpans axes = Marks.select true (axes.marks t.rank) t.spans := by
  rw [reducedSpans, AxisSet.restrict_eq_select, length_spans]

theorem map_size_keptSpans (t : Tensor α) (axes : AxisSet) :
    (t.keptSpans axes).map Span.size = t.keptDims axes := by
  rw [keptSpans_eq_select, Marks.map_select, spans, Layout.map_size_spans, keptDims_eq_select]

theorem map_size_reducedSpans (t : Tensor α) (axes : AxisSet) :
    (t.reducedSpans axes).map Span.size = t.reducedDims axes := by
  rw [reducedSpans_eq_select, Marks.map_select, spans, Layout.map_size_spans,
    reducedDims_eq_select]

/-- A tensor that is addressable can be reduced along any axes. -/
theorem Addressable.traversable (ht : t.Addressable) (axes : AxisSet) : t.Traversable axes := by
  have hle := ht.prod_max_le
  have hruns (side : Bool) :
      Word.RunsWithin (Marks.select side (axes.marks t.rank) t.shape.dims) :=
    Word.runsWithin_of_prod_le
      (Nat.le_trans (Word.prod_max_le_of_sublist (Marks.select_sublist side _ _)) hle)
  refine ⟨?_, ?_, Or.inr ?_⟩
  · rw [keptDims_eq_select]
    exact hruns false
  · rw [reducedDims_eq_select]
    exact hruns true
  · rw [keptSpans_eq_select]
    exact Nat.le_trans (Layout.farthest_select_le false _ _) ht.farthest_le

/-! ## One lane -/

/-- Distances on both sides add up to a position. -/
theorem distance_add_distance (ht : t.WellSized) {free marked : List Nat}
    (hfree : Index.InRange (t.keptDims axes) free)
    (hmarked : Index.InRange (t.reducedDims axes) marked) :
    Layout.distance (t.keptSpans axes) free + Layout.distance (t.reducedSpans axes) marked =
      Index.position t.shape.dims (Marks.weave (axes.marks t.rank) free marked) := by
  have hzero := Index.zero_notMem_of_inRange (inRange_weave hfree hmarked)
  rw [← ht.distance_eq hzero, keptSpans_eq_select, reducedSpans_eq_select]
  refine (Layout.distance_weave ?_ ?_ ?_).symm
  · rw [length_spans, AxisSet.length_marks]
  · exact length_eq_count_false hfree
  · exact length_eq_count_true hmarked

/-- One step of a lane takes in the element of the next index. -/
theorem foldLane_step (c : Combiner α) (ht : t.WellSized) {free : List Nat}
    (hfree : Index.InRange (t.keptDims axes) free) {number : Nat}
    (hnumber : number < Index.count (t.reducedDims axes)) (held : α) :
    (do
      let offset ← Layout.add (Layout.distance (t.keptSpans axes) free)
        (← Layout.offsetOfFlat (t.reducedSpans axes) number)
      return c.combine held (← t.read offset) : Except Fault α) =
    .ok (c.combine held (t.elementAt c.identity
      (Marks.weave (axes.marks t.rank) free (Index.digits (t.reducedDims axes) number)))) := by
  have hmarked := Index.inRange_digits hnumber
  have hindex := inRange_weave hfree hmarked
  have hlt := position_lt_size ht.size_eq hindex
  have hle := ht.size_le
  have hsum := distance_add_distance ht hfree hmarked
  have hpos : ∀ span ∈ t.reducedSpans axes, 0 < span.size := by
    refine Layout.forall_pos_iff_zero_notMem.2 ?_
    rw [map_size_reducedSpans]
    exact Index.zero_notMem_of_inRange hmarked
  have hoffset : Layout.offsetOfFlat (t.reducedSpans axes) number =
      .ok (Layout.distance (t.reducedSpans axes) (Index.digits (t.reducedDims axes) number)) := by
    rw [← map_size_reducedSpans]
    refine Layout.offsetOfFlat_eq_ok hpos ?_
    rw [map_size_reducedSpans]
    omega
  rw [hoffset]
  show (do
    let offset ← Layout.add _ _
    return c.combine held (← t.read offset) : Except Fault α) = _
  rw [Layout.add_eq_ok (by omega), hsum]
  show (do return c.combine held (← t.read _) : Except Fault α) = _
  rw [read_position c.identity ht.size_eq hindex]
  rfl

/-- A lane that begins at the offset of its first index is folded. -/
theorem foldLane_eq_ok (c : Combiner α) (ht : t.WellSized) {free : List Nat}
    (hfree : Index.InRange (t.keptDims axes) free) :
    t.foldLane c (t.reducedSpans axes) (Layout.distance (t.keptSpans axes) free)
        (Index.count (t.reducedDims axes)) =
      .ok (c.fold ((t.lane axes free).map Prod.snd)) := by
  rw [foldLane, Outcome.foldlM_eq_ok fun number hnumber held =>
      foldLane_step c ht hfree (List.mem_range.1 hnumber) held,
    lane_eq_map c.identity ht.size_eq hfree, Combiner.fold, List.map_map, List.map_map,
    ← Index.map_digits_range, List.map_map, List.foldl_map]
  rfl

/-! ## All lanes -/

theorem countIndices_eq_ok {spans : List Span} (h : Word.RunsWithin (spans.map Span.size)) :
    countIndices spans = .ok (Index.count (spans.map Span.size)) := by
  rw [countIndices, Word.product?_eq_some_iff.2 ⟨h, rfl⟩, Index.count_eq_prod, Fault.unless_some]

theorem countIndices_eq_error {spans : List Span} (h : ¬Word.RunsWithin (spans.map Span.size)) :
    countIndices spans = .error .overflow := by
  rw [countIndices, Word.product?_eq_none_iff.2 h, Fault.unless_none]

/-- The combination of the lane with a given number. -/
def laneAt (t : Tensor α) (c : Combiner α) (axes : AxisSet) (number : Nat) : Except Fault α := do
  t.foldLane c (t.reducedSpans axes) (← Layout.offsetOfFlat (t.keptSpans axes) number)
    (Index.count (t.reducedDims axes))

theorem foldLanes_eq_mapM (c : Combiner α) (hkept : Word.RunsWithin (t.keptDims axes))
    (hreduced : Word.RunsWithin (t.reducedDims axes)) :
    t.foldLanes c axes = (do
      return (← (List.range (Index.count (t.keptDims axes))).mapM (t.laneAt c axes)).toArray) := by
  rw [foldLanes]
  rw [← map_size_keptSpans] at hkept
  rw [← map_size_reducedSpans] at hreduced
  rw [countIndices_eq_ok hkept, countIndices_eq_ok hreduced, map_size_keptSpans,
    map_size_reducedSpans]
  rfl

theorem forall_pos_keptSpans {number : Nat} (h : number < Index.count (t.keptDims axes)) :
    ∀ span ∈ t.keptSpans axes, 0 < span.size := by
  refine Layout.forall_pos_iff_zero_notMem.2 ?_
  rw [map_size_keptSpans]
  exact Index.zero_notMem_of_inRange (Index.inRange_digits h)

theorem laneAt_eq_ok (c : Combiner α) (ht : t.WellSized) {number : Nat}
    (hnumber : number < Index.count (t.keptDims axes))
    (hdistance : Layout.distance (t.keptSpans axes) (Index.digits (t.keptDims axes) number) ≤
      Word.maxValue) :
    t.laneAt c axes number =
      .ok (c.fold ((t.lane axes (Index.digits (t.keptDims axes) number)).map Prod.snd)) := by
  rw [← map_size_keptSpans] at hdistance
  rw [laneAt, Layout.offsetOfFlat_eq_ok (forall_pos_keptSpans hnumber) hdistance,
    map_size_keptSpans]
  exact foldLane_eq_ok c ht (Index.inRange_digits hnumber)

theorem laneAt_eq_error (c : Combiner α) {number : Nat}
    (hnumber : number < Index.count (t.keptDims axes))
    (hdistance : Word.maxValue <
      Layout.distance (t.keptSpans axes) (Index.digits (t.keptDims axes) number)) :
    t.laneAt c axes number = .error .overflow := by
  rw [← map_size_keptSpans] at hdistance
  rw [laneAt, Layout.offsetOfFlat_eq_error (forall_pos_keptSpans hnumber) hdistance]
  rfl

/-- **The elements of a reduction** are the folds of the lanes, in order. -/
theorem foldLanes_eq_ok (c : Combiner α) (ht : t.WellSized) (h : t.Traversable axes) :
    t.foldLanes c axes =
      .ok ((Index.all (t.keptDims axes)).map fun free =>
        c.fold ((t.lane axes free).map Prod.snd)).toArray := by
  have hlane : ∀ number ∈ List.range (Index.count (t.keptDims axes)), t.laneAt c axes number =
      .ok (c.fold ((t.lane axes (Index.digits (t.keptDims axes) number)).map Prod.snd)) := by
    intro number hnumber
    have hnumber := List.mem_range.1 hnumber
    have hindex := Index.inRange_digits hnumber
    refine laneAt_eq_ok c ht hnumber ?_
    rcases h.farthest_le with hzero | hfarthest
    · exact absurd hzero (Index.zero_notMem_of_inRange hindex)
    · rw [← map_size_keptSpans] at hindex ⊢
      exact Nat.le_trans (Layout.distance_le_farthest hindex) hfarthest
  rw [foldLanes_eq_mapM c h.kept_runs h.reduced_runs, Outcome.mapM_eq_ok hlane,
    ← Index.map_digits_range, List.map_map]
  rfl

/-- A last lane that begins too far from the start is noticed. -/
theorem mapM_laneAt_eq_error (c : Combiner α) (ht : t.WellSized) (hzero : 0 ∉ t.keptDims axes)
    (hfarthest : Word.maxValue < Layout.farthest (t.keptSpans axes)) :
    (List.range (Index.count (t.keptDims axes))).mapM (t.laneAt c axes) = .error .overflow := by
  rw [← map_size_keptSpans] at hzero
  obtain ⟨last, hlast, hdistance⟩ :=
    Layout.exists_distance_eq_farthest (Layout.forall_pos_iff_zero_notMem.2 hzero)
  rw [map_size_keptSpans] at hlast
  refine Outcome.mapM_eq_error ?_ ⟨_, List.mem_range.2 (Index.position_lt_count hlast), ?_⟩
  · intro number hnumber
    have hnumber := List.mem_range.1 hnumber
    by_cases hword : Layout.distance (t.keptSpans axes)
        (Index.digits (t.keptDims axes) number) ≤ Word.maxValue
    · exact Or.inr ⟨_, laneAt_eq_ok c ht hnumber hword⟩
    · exact Or.inl (laneAt_eq_error c hnumber (Nat.lt_of_not_le hword))
  · refine laneAt_eq_error c (Index.position_lt_count hlast) ?_
    rw [Index.digits_position hlast, hdistance]
    exact hfarthest

/-- If a tensor is not traversable, counting runs over. -/
theorem foldLanes_eq_error (c : Combiner α) (ht : t.WellSized) (h : ¬t.Traversable axes) :
    t.foldLanes c axes = .error .overflow := by
  by_cases hkept : Word.RunsWithin (t.keptDims axes)
  · by_cases hreduced : Word.RunsWithin (t.reducedDims axes)
    · have hzero : 0 ∉ t.keptDims axes := fun hzero => h ⟨hkept, hreduced, Or.inl hzero⟩
      have hfarthest : Word.maxValue < Layout.farthest (t.keptSpans axes) :=
        Nat.lt_of_not_le fun hfarthest => h ⟨hkept, hreduced, Or.inr hfarthest⟩
      rw [foldLanes_eq_mapM c hkept hreduced, mapM_laneAt_eq_error c ht hzero hfarthest]
      rfl
    · rw [← map_size_keptSpans] at hkept
      rw [← map_size_reducedSpans] at hreduced
      rw [foldLanes, countIndices_eq_ok hkept, countIndices_eq_error hreduced]
      rfl
  · rw [← map_size_keptSpans] at hkept
    rw [foldLanes, countIndices_eq_error hkept]
    rfl

end TensorInference.Tensor
