import Mathlib.Data.Set.Function
import TensorInference.Proofs.Tensor.Fold
import TensorInference.Proofs.Tensor.RowMajor

/-!
# The lanes share out the data

A reduction reads at offsets that are sums of two: where the lane begins, which is counted through the
axes that stay, and how far into the lane the element stands, which is counted through the axes that
are reduced.  Both counts use the strides of the whole tensor, so the two number systems are
interlocked, in a way that depends on which axes are chosen.  Still every offset in the data is a sum
in just one way, and within a lane the offsets ascend.

The reason is that a lane and a number in it are an index of the tensor in two parts, which can be
woven together and parted again, and that the sum is the position of this index.

* `place` --- the lane of an offset, and its number there.
* `bijOn_offsets` --- every offset has one place.
* `LanePartition`, `reduce_partitions` --- what a reduction reads.
-/

namespace TensorInference

/-- With the same coordinates without a mark, the marked ones decide the order. -/
theorem Marks.weave_lt_weave {marks : List Bool} {free marked marked' : List Nat}
    (hfree : free.length = marks.count false) (hmarked : marked.length = marks.count true)
    (hmarked' : marked'.length = marks.count true) (h : marked < marked') :
    weave marks free marked < weave marks free marked' := by
  induction marks generalizing free marked marked' with
  | nil =>
    obtain rfl := List.eq_nil_of_length_eq_zero hmarked'
    exact absurd h (List.not_lt_nil _)
  | cons mark marks ih =>
    cases mark with
    | false =>
      rw [List.count_cons_self] at hfree
      rw [List.count_cons_of_ne (by decide)] at hmarked hmarked'
      obtain ⟨coordinate, free, rfl⟩ := List.exists_cons_of_length_eq_add_one hfree
      rw [weave_false, weave_false, List.cons_lt_cons_iff]
      exact .inr ⟨rfl, ih (Nat.succ.inj hfree) hmarked hmarked' h⟩
    | true =>
      rw [List.count_cons_of_ne (by decide)] at hfree
      rw [List.count_cons_self] at hmarked hmarked'
      obtain ⟨coordinate, marked, rfl⟩ := List.exists_cons_of_length_eq_add_one hmarked
      obtain ⟨coordinate', marked', rfl⟩ := List.exists_cons_of_length_eq_add_one hmarked'
      rw [List.cons_lt_cons_iff] at h
      rw [weave_true, weave_true, List.cons_lt_cons_iff]
      exact h.imp_right fun ⟨heq, hlt⟩ =>
        ⟨heq, ih hfree (Nat.succ.inj hmarked) (Nat.succ.inj hmarked') hlt⟩

namespace Tensor

variable {α : Type} {t : Tensor α} {axes : AxisSet}

/-! ## Places and offsets -/

/-- The number of lanes. -/
def laneCount (t : Tensor α) (axes : AxisSet) : Nat :=
  Index.count (t.keptDims axes)

/-- The number of elements in every lane. -/
def laneLength (t : Tensor α) (axes : AxisSet) : Nat :=
  Index.count (t.reducedDims axes)

/-- Where a lane begins. -/
def laneBase (t : Tensor α) (axes : AxisSet) (lane : Nat) : Nat :=
  Layout.distance (t.keptSpans axes) (Index.digits (t.keptDims axes) lane)

/-- How far into its lane an element stands. -/
def laneStep (t : Tensor α) (axes : AxisSet) (number : Nat) : Nat :=
  Layout.distance (t.reducedSpans axes) (Index.digits (t.reducedDims axes) number)

/-- The index of an element, from its lane and its number there. -/
def indexAt (t : Tensor α) (axes : AxisSet) (lane number : Nat) : List Nat :=
  Marks.weave (axes.marks t.rank) (Index.digits (t.keptDims axes) lane)
    (Index.digits (t.reducedDims axes) number)

/-- The lane of an index, and its number there. -/
def place (t : Tensor α) (axes : AxisSet) (index : List Nat) : Nat × Nat :=
  (Index.position (t.keptDims axes) (Marks.select false (axes.marks t.rank) index),
    Index.position (t.reducedDims axes) (Marks.select true (axes.marks t.rank) index))

variable {lane number : Nat}

theorem inRange_indexAt (hlane : lane < t.laneCount axes) (hnumber : number < t.laneLength axes) :
    Index.InRange t.shape.dims (t.indexAt axes lane number) :=
  inRange_weave (Index.inRange_digits hlane) (Index.inRange_digits hnumber)

/-- The two parts of an offset add up to the position of the index. -/
theorem laneBase_add_laneStep (ht : t.WellSized) (hlane : lane < t.laneCount axes)
    (hnumber : number < t.laneLength axes) :
    t.laneBase axes lane + t.laneStep axes number =
      Index.position t.shape.dims (t.indexAt axes lane number) :=
  distance_add_distance ht (Index.inRange_digits hlane) (Index.inRange_digits hnumber)

theorem place_indexAt (hlane : lane < t.laneCount axes) (hnumber : number < t.laneLength axes) :
    t.place axes (t.indexAt axes lane number) = (lane, number) := by
  have hfree := length_eq_count_false (t := t) (Index.inRange_digits hlane)
  have hmarked := length_eq_count_true (t := t) (Index.inRange_digits hnumber)
  obtain ⟨hkept, hreduced⟩ := Marks.select_weave hfree hmarked
  rw [place, indexAt, hkept, hreduced, Index.position_digits_of_lt hlane,
    Index.position_digits_of_lt hnumber]

section Index

variable {index : List Nat}

theorem inRange_kept (hindex : Index.InRange t.shape.dims index) :
    Index.InRange (t.keptDims axes) (Marks.select false (axes.marks t.rank) index) := by
  rw [keptDims_eq_select]
  exact Index.inRange_select false (length_dims_eq_length_marks t axes) hindex

theorem inRange_reduced (hindex : Index.InRange t.shape.dims index) :
    Index.InRange (t.reducedDims axes) (Marks.select true (axes.marks t.rank) index) := by
  rw [reducedDims_eq_select]
  exact Index.inRange_select true (length_dims_eq_length_marks t axes) hindex

theorem place_lt (axes : AxisSet) (hindex : Index.InRange t.shape.dims index) :
    (t.place axes index).1 < t.laneCount axes ∧ (t.place axes index).2 < t.laneLength axes :=
  ⟨Index.position_lt_count (inRange_kept hindex), Index.position_lt_count (inRange_reduced hindex)⟩

theorem indexAt_place (hindex : Index.InRange t.shape.dims index) :
    t.indexAt axes (t.place axes index).1 (t.place axes index).2 = index := by
  have hlength : index.length = (axes.marks t.rank).length := by
    rw [Index.length_of_inRange hindex, length_dims_eq_length_marks t axes]
  rw [indexAt, place, Index.digits_position (inRange_kept hindex),
    Index.digits_position (inRange_reduced hindex), Marks.weave_select hlength]

end Index

/-! ## The partition -/

theorem offset_lt_size (ht : t.WellSized) (hlane : lane < t.laneCount axes)
    (hnumber : number < t.laneLength axes) :
    t.laneBase axes lane + t.laneStep axes number < t.size := by
  rw [laneBase_add_laneStep ht hlane hnumber]
  exact position_lt_size ht.size_eq (inRange_indexAt hlane hnumber)

/-- The place of an element is got back from its offset. -/
theorem place_digits_offset (ht : t.WellSized) (hlane : lane < t.laneCount axes)
    (hnumber : number < t.laneLength axes) :
    t.place axes (Index.digits t.shape.dims (t.laneBase axes lane + t.laneStep axes number)) =
      (lane, number) := by
  rw [laneBase_add_laneStep ht hlane hnumber,
    Index.digits_position (inRange_indexAt hlane hnumber), place_indexAt hlane hnumber]

/-- **Every offset has one place.** -/
theorem bijOn_offsets (ht : t.WellSized) (axes : AxisSet) :
    Set.BijOn (fun place : Nat × Nat => t.laneBase axes place.1 + t.laneStep axes place.2)
      {place | place.1 < t.laneCount axes ∧ place.2 < t.laneLength axes}
      {offset | offset < t.size} := by
  refine ⟨fun place h => offset_lt_size ht h.1 h.2, fun place h place' h' hsame => ?_,
    fun offset hoffset => ?_⟩
  · have hindex := congrArg (fun offset => t.place axes (Index.digits t.shape.dims offset)) hsame
    exact (place_digits_offset ht h.1 h.2).symm.trans
      (hindex.trans (place_digits_offset ht h'.1 h'.2))
  · have hcount : offset < Index.count t.shape.dims := by
      rw [count_dims ht.size_eq]
      exact hoffset
    have hindex := Index.inRange_digits hcount
    obtain ⟨hlane, hnumber⟩ := place_lt axes hindex
    refine ⟨t.place axes (Index.digits t.shape.dims offset), ⟨hlane, hnumber⟩, ?_⟩
    show t.laneBase axes _ + t.laneStep axes _ = offset
    rw [laneBase_add_laneStep ht hlane hnumber, indexAt_place hindex,
      Index.position_digits_of_lt hcount]

/-- Within a lane the offsets ascend. -/
theorem offset_lt_offset (ht : t.WellSized) (hlane : lane < t.laneCount axes) {number' : Nat}
    (hlt : number < number') (hnumber' : number' < t.laneLength axes) :
    t.laneBase axes lane + t.laneStep axes number <
      t.laneBase axes lane + t.laneStep axes number' := by
  have hnumber : number < t.laneLength axes := Nat.lt_trans hlt hnumber'
  have hmarked := Index.inRange_digits hnumber
  have hmarked' := Index.inRange_digits hnumber'
  have hdigits : Index.digits (t.reducedDims axes) number <
      Index.digits (t.reducedDims axes) number' := by
    rwa [← Index.position_lt_position_iff hmarked hmarked', Index.position_digits_of_lt hnumber,
      Index.position_digits_of_lt hnumber']
  rw [laneBase_add_laneStep ht hlane hnumber, laneBase_add_laneStep ht hlane hnumber',
    Index.position_lt_position_iff (inRange_indexAt hlane hnumber) (inRange_indexAt hlane hnumber')]
  exact Marks.weave_lt_weave (length_eq_count_false (Index.inRange_digits hlane))
    (length_eq_count_true hmarked) (length_eq_count_true hmarked') hdigits

/-! ## What is computed -/

/-- Counting through some of the axes neither divides by zero nor leaves the word. -/
theorem offsetOfFlat_of_sublist (ht : t.Addressable) {spans : List Span}
    (hspans : spans.Sublist t.spans) (hnumber : number < Index.count (spans.map Span.size)) :
    (∀ span ∈ spans, 0 < span.size) ∧ Layout.offsetOfFlat spans number =
      .ok (Layout.distance spans (Index.digits (spans.map Span.size) number)) := by
  have hindex := Index.inRange_digits hnumber
  have hpos : ∀ span ∈ spans, 0 < span.size :=
    Layout.forall_pos_iff_zero_notMem.2 (Index.zero_notMem_of_inRange hindex)
  refine ⟨hpos, Layout.offsetOfFlat_eq_ok hpos ?_⟩
  calc Layout.distance spans (Index.digits (spans.map Span.size) number)
      ≤ Layout.farthest spans := Layout.distance_le_farthest hindex
    _ ≤ Layout.farthest t.spans := Layout.farthest_le_of_sublist hspans
    _ ≤ Word.maxValue := ht.farthest_le

theorem offsetOfFlat_kept (ht : t.Addressable) (hlane : lane < t.laneCount axes) :
    (∀ span ∈ t.keptSpans axes, 0 < span.size) ∧
      Layout.offsetOfFlat (t.keptSpans axes) lane = .ok (t.laneBase axes lane) := by
  have hsublist : (t.keptSpans axes).Sublist t.spans := by
    rw [keptSpans_eq_select]
    exact Marks.select_sublist _ _ _
  rw [laneBase, ← map_size_keptSpans]
  refine offsetOfFlat_of_sublist ht hsublist ?_
  rwa [map_size_keptSpans]

theorem offsetOfFlat_reduced (ht : t.Addressable) (hnumber : number < t.laneLength axes) :
    (∀ span ∈ t.reducedSpans axes, 0 < span.size) ∧
      Layout.offsetOfFlat (t.reducedSpans axes) number = .ok (t.laneStep axes number) := by
  have hsublist : (t.reducedSpans axes).Sublist t.spans := by
    rw [reducedSpans_eq_select]
    exact Marks.select_sublist _ _ _
  rw [laneStep, ← map_size_reducedSpans]
  refine offsetOfFlat_of_sublist ht hsublist ?_
  rwa [map_size_reducedSpans]

theorem countIndices_kept (ht : t.Addressable) (axes : AxisSet) :
    countIndices (t.keptSpans axes) = .ok (t.laneCount axes) := by
  have hruns := (ht.traversable axes).kept_runs
  rw [← map_size_keptSpans] at hruns
  rw [countIndices_eq_ok hruns, map_size_keptSpans]
  rfl

theorem countIndices_reduced (ht : t.Addressable) (axes : AxisSet) :
    countIndices (t.reducedSpans axes) = .ok (t.laneLength axes) := by
  have hruns := (ht.traversable axes).reduced_runs
  rw [← map_size_reducedSpans] at hruns
  rw [countIndices_eq_ok hruns, map_size_reducedSpans]
  rfl

/-- The elements of a lane stand at the sums of its base and the steps. -/
theorem map_snd_lane_eq_map_range (default : α) (ht : t.WellSized)
    (hlane : lane < t.laneCount axes) :
    (t.lane axes (Index.digits (t.keptDims axes) lane)).map Prod.snd =
      (List.range (t.laneLength axes)).map fun number =>
        t.data.getD (t.laneBase axes lane + t.laneStep axes number) default := by
  rw [lane_eq_map default ht.size_eq (Index.inRange_digits hlane), ← Index.map_digits_range,
    List.map_map, List.map_map, List.map_map]
  refine List.map_congr_left fun number hnumber => ?_
  rw [laneBase_add_laneStep ht hlane (List.mem_range.1 hnumber)]
  rfl

theorem foldLanes_eq_map_range (ht : t.Addressable) (c : Combiner α) :
    t.foldLanes c axes = .ok ((List.range (t.laneCount axes)).map fun lane =>
      c.fold ((List.range (t.laneLength axes)).map fun number =>
        t.data.getD (t.laneBase axes lane + t.laneStep axes number) c.identity)).toArray := by
  rw [foldLanes_eq_ok c ht.wellSized (ht.traversable axes), ← Index.map_digits_range, List.map_map]
  refine congrArg (fun l => Except.ok (List.toArray l)) (List.map_congr_left fun lane hlane => ?_)
  rw [Function.comp_apply, map_snd_lane_eq_map_range c.identity ht.wellSized (List.mem_range.1 hlane)]

/-- What a reduction along some axes reads of a tensor. -/
structure LanePartition (t : Tensor α) (axes : AxisSet) : Prop where
  /-- Lanes and their elements are counted within the word. -/
  count_lanes : countIndices (t.keptSpans axes) = .ok (t.laneCount axes)
  count_elements : countIndices (t.reducedSpans axes) = .ok (t.laneLength axes)
  /-- The two parts of an offset are found, and nothing is divided by zero for it. -/
  base : ∀ lane < t.laneCount axes, (∀ span ∈ t.keptSpans axes, 0 < span.size) ∧
    Layout.offsetOfFlat (t.keptSpans axes) lane = .ok (t.laneBase axes lane)
  step : ∀ number < t.laneLength axes, (∀ span ∈ t.reducedSpans axes, 0 < span.size) ∧
    Layout.offsetOfFlat (t.reducedSpans axes) number = .ok (t.laneStep axes number)
  /-- They are added within the word, and there is an element at their sum. -/
  read : ∀ lane < t.laneCount axes, ∀ number < t.laneLength axes, ∃ a,
    Layout.add (t.laneBase axes lane) (t.laneStep axes number) =
        .ok (t.laneBase axes lane + t.laneStep axes number) ∧
      t.data[t.laneBase axes lane + t.laneStep axes number]? = some a ∧
      t.read (t.laneBase axes lane + t.laneStep axes number) = .ok a
  /-- Every offset in the data is such a sum, in one way. -/
  bijOn : Set.BijOn (fun place : Nat × Nat => t.laneBase axes place.1 + t.laneStep axes place.2)
    {place | place.1 < t.laneCount axes ∧ place.2 < t.laneLength axes} {offset | offset < t.size}
  /-- Within a lane the offsets ascend. -/
  ascending : ∀ lane < t.laneCount axes, ∀ number number', number < number' →
    number' < t.laneLength axes →
      t.laneBase axes lane + t.laneStep axes number < t.laneBase axes lane + t.laneStep axes number'
  /-- These are the elements that are combined, in this order, and no others. -/
  folded : ∀ c, t.foldLanes c axes = .ok ((List.range (t.laneCount axes)).map fun lane =>
    c.fold ((List.range (t.laneLength axes)).map fun number =>
      t.data.getD (t.laneBase axes lane + t.laneStep axes number) c.identity)).toArray

/-- **A reduction reads every element once.**  On an addressable tensor and along any axes, the lanes
share out the offsets of the data: each of them is the base of one lane and one step, and within a lane
they ascend.  Counting to them neither divides by zero nor leaves the word, every read finds an element,
and what is read in this way is what the lanes combine. -/
theorem reduce_partitions (ht : t.Addressable) (axes : AxisSet) : t.LanePartition axes where
  count_lanes := countIndices_kept ht axes
  count_elements := countIndices_reduced ht axes
  base _ hlane := offsetOfFlat_kept ht hlane
  step _ hnumber := offsetOfFlat_reduced ht hnumber
  read lane hlane number hnumber := by
    have hlt := offset_lt_size ht.wellSized hlane hnumber
    have hle := ht.wellSized.size_le
    have helement := Array.getElem?_eq_getElem hlt
    refine ⟨_, Layout.add_eq_ok (Nat.le_trans (Nat.le_of_lt hlt) hle), helement, ?_⟩
    rw [Tensor.read, helement, Fault.unless_some]
  bijOn := bijOn_offsets ht.wellSized axes
  ascending _ hlane _ _ hlt hnumber' := offset_lt_offset ht.wellSized hlane hlt hnumber'
  folded := foldLanes_eq_map_range ht

/-- Along the axis in the middle, lanes begin at four offsets, and each of them goes on in steps of
two. -/
theorem reduce_partitions_middle_axis :
    ∃ t : Tensor Int8, t = ⟨⟨[2, 3, 2]⟩, #[0, 1, 2, 3, 4, 5, 6, 7, 8, 9, 10, 11]⟩ ∧
      (List.range 4).map (t.laneBase (.ofList [1])) = [0, 1, 6, 7] ∧
      (List.range 3).map (t.laneStep (.ofList [1])) = [0, 2, 4] ∧
      Set.BijOn
        (fun place : Nat × Nat =>
          t.laneBase (.ofList [1]) place.1 + t.laneStep (.ofList [1]) place.2)
        {place | place.1 < 4 ∧ place.2 < 3} {offset | offset < 12} ∧
      t.foldLanes ⟨0, fun held value => held + value⟩ (.ofList [1]) = .ok #[6, 9, 24, 27] := by
  have ht : (⟨⟨[2, 3, 2]⟩, #[0, 1, 2, 3, 4, 5, 6, 7, 8, 9, 10, 11]⟩ : Tensor Int8).Addressable :=
    ⟨rfl, by decide⟩
  have hpartition := reduce_partitions ht (.ofList [1])
  exact ⟨_, rfl, by decide, by decide, hpartition.bijOn, hpartition.folded _⟩

end Tensor

end TensorInference
