import TensorInference.Proofs.Axis.Resolve
import TensorInference.Proofs.Operator.Inference
import TensorInference.Proofs.Tensor.Backward
import TensorInference.Proofs.Tensor.Kernel

/-!
# What a reversal computes

The tensor that a reversal along given axes should give is `reversed`: it takes the element at an
index from the flipped index.  The kernel gives it whenever inference accepts the reversal and the
tensor is `Reversible` along the axes.

Inference looks at the axes alone, so a reversal of a tensor without elements is accepted too.  The
kernel computes where it would begin and counts the elements all the same, and huge extents beside a
zero can take either number out of the word.  An addressable tensor is reversible along any axes
(`Addressable.reversible`).

* `reverse_eq_ok`, `reverse_eq_rejected`, `reverse_eq_overflow` --- the three ways in which a reversal
  ends.
* `reverse_correct` --- a reversal takes every element from the mirrored index.
* `reverse_total` --- a reversal fails as inference does, and besides that only where counting runs
  over.
-/

namespace TensorInference.Tensor

variable {α : Type} {t : Tensor α} {chosen : AxisSet}

/-! ## Reversible tensors -/

/-- The start of a reversal and the running count of the elements stay in the word. -/
structure Reversible (t : Tensor α) (chosen : AxisSet) : Prop where
  start_le : Layout.farthest (chosen.restrict t.spans) ≤ Word.maxValue
  runs : Word.RunsWithin t.shape.dims

theorem restrict_spans_eq_select (t : Tensor α) (chosen : AxisSet) :
    chosen.restrict t.spans = Marks.select true (chosen.marks t.rank) t.spans := by
  rw [AxisSet.restrict_eq_select, length_spans]

/-- A tensor that is addressable can be reversed along any axes. -/
theorem Addressable.reversible (ht : t.Addressable) (chosen : AxisSet) : t.Reversible chosen := by
  refine ⟨?_, Word.runsWithin_of_prod_le ht.prod_max_le⟩
  rw [restrict_spans_eq_select]
  exact Nat.le_trans (Layout.farthest_select_le true _ _) ht.farthest_le

/-! ## The reversed tensor -/

/-- The tensor that takes its elements from the flipped indices. -/
def reversed (t : Tensor α) (chosen : AxisSet) : Tensor α :=
  t.rearranged (Index.flip t.shape.dims (chosen.marks t.rank))

theorem wellSized_reversed (ht : t.WellSized) (chosen : AxisSet) : (t.reversed chosen).WellSized :=
  ht.rearranged (Index.isInvolution_flip _ _)

/-- A tensor is another one seen from the other end of some axes. -/
structure IsReversal (t u : Tensor α) (chosen : AxisSet) : Prop where
  shape_eq : u.shape = t.shape
  /-- Every element is the one that the other tensor has at the mirrored index. -/
  get?_eq : ∀ index, Index.InRange t.shape.dims index →
    Index.InRange t.shape.dims (Index.mirror chosen t.shape.dims index) ∧
      ∃ a, t.get? (Index.mirror chosen t.shape.dims index) = .ok (some a) ∧
        u.get? index = .ok (some a)
  /-- Both tensors have the same elements. -/
  perm : u.data.toList.Perm t.data.toList

theorem isReversal_reversed (ht : t.WellSized) (chosen : AxisSet) :
    t.IsReversal (t.reversed chosen) chosen where
  shape_eq := rfl
  get?_eq index hindex := by
    have hflip := Index.isInvolution_flip t.shape.dims (chosen.marks t.rank)
    have hmirror : Index.flip t.shape.dims (chosen.marks t.rank) index =
        Index.mirror chosen t.shape.dims index := Index.flip_marks_eq_mirror chosen hindex
    have hrange := hflip.inRange hindex
    have hread := get?_rearranged ht hflip hindex
    rw [hmirror] at hrange hread
    obtain ⟨a, ha⟩ := Option.isSome_iff_exists.1 (at?_isSome ht.size_eq hrange)
    have hget : t.get? (Index.mirror chosen t.shape.dims index) = .ok (some a) :=
      (get?_eq ht hrange).trans (congrArg Except.ok ha)
    exact ⟨hrange, a, hget, hread.trans hget⟩
  perm := perm_rearranged ht.size_eq (Index.isInvolution_flip _ _)

/-! ## Computing it -/

theorem markedSpans_eq_zip (t : Tensor α) (chosen : AxisSet) :
    t.markedSpans chosen = t.spans.zip (chosen.marks t.rank) := by
  rw [markedSpans, List.zipIdx_eq_zip_range', AxisSet.marks, List.range_eq_range',
    List.zip_map_right, length_spans]
  rfl

theorem length_spans_eq_length_marks (t : Tensor α) (chosen : AxisSet) :
    t.spans.length = (chosen.marks t.rank).length := by
  rw [length_spans, AxisSet.length_marks]

/-- What is read for a number is the element at the flipped index with this number. -/
theorem read_offsetOfReversed (chosen : AxisSet) (ht : t.WellSized) {number : Nat}
    (hnumber : number < t.size) :
    ∃ a, t.at? (Index.flip t.shape.dims (chosen.marks t.rank)
        (Index.digits t.shape.dims number)) = some a ∧
      (do t.read (← Layout.offsetOfReversed (t.markedSpans chosen)
        (Layout.farthest (chosen.restrict t.spans)) number) : Except Fault α) = .ok a := by
  have hcount : Index.count t.shape.dims = t.size := count_dims ht.size_eq
  have hindex := (Index.isInvolution_flip t.shape.dims (chosen.marks t.rank)).inRange
    (Index.inRange_digits (hcount ▸ hnumber))
  have hzero := Index.zero_notMem_of_inRange hindex
  have hpos : ∀ span ∈ t.spans, 0 < span.size := by
    rw [Layout.forall_pos_iff_zero_notMem, spans, Layout.map_size_spans]
    exact hzero
  have hoffset := Layout.offsetOfReversed_eq_ok number (length_spans_eq_length_marks t chosen) hpos
    (ht.addressable hzero).farthest_le
  rw [← markedSpans_eq_zip, ← restrict_spans_eq_select, spans, Layout.map_size_spans,
    Layout.distance_spans hzero ht.count_le, ← spans] at hoffset
  obtain ⟨a, ha⟩ := Option.isSome_iff_exists.1 (at?_isSome ht.size_eq hindex)
  refine ⟨a, ha, ?_⟩
  rw [hoffset]
  show Fault.outsideStorage.unless (t.at? _) = _
  rw [ha, Fault.unless_some]

theorem reversedStart_markedSpans_eq_ok
    (h : Layout.farthest (chosen.restrict t.spans) ≤ Word.maxValue) :
    Layout.reversedStart (t.markedSpans chosen) =
      .ok (Layout.farthest (chosen.restrict t.spans)) := by
  rw [restrict_spans_eq_select] at h ⊢
  rw [markedSpans_eq_zip, Layout.reversedStart_eq_ok (length_spans_eq_length_marks t chosen) h]

theorem reversedData_eq_ok (ht : t.WellSized)
    (h : Layout.farthest (chosen.restrict t.spans) ≤ Word.maxValue) :
    t.reversedData chosen = .ok (t.reversed chosen).data := by
  have hdata := Outcome.mapM_eq_ok_filterMap fun number (hnumber : number ∈ List.range t.size) =>
    read_offsetOfReversed chosen ht (List.mem_range.1 hnumber)
  rw [reversedData, reversedStart_markedSpans_eq_ok h]
  show (do return (← List.mapM _ (List.range t.size)).toArray : Except Fault (Array α)) = _
  rw [hdata, reversed, rearranged, ← Index.map_digits_range, List.filterMap_map,
    count_dims ht.size_eq]
  rfl

theorem reversedData_eq_error
    (h : Word.maxValue < Layout.farthest (chosen.restrict t.spans)) :
    t.reversedData chosen = .error .overflow := by
  rw [restrict_spans_eq_select] at h
  rw [reversedData, markedSpans_eq_zip,
    Layout.reversedStart_eq_error (length_spans_eq_length_marks t chosen) h]
  rfl

variable [Element α] {axes : ReversedAxes}

/-! ## Inference -/

theorem infer_reverse_eq_ok_iff {info : TensorInfo} :
    (Operator.reverse axes).infer [t.info] = .ok info ↔
      (∃ chosen, axes.resolve (some t.rank) = .ok chosen) ∧ info = t.info := by
  rw [Operator.infer_reverse_eq_ok_iff]
  have hrank : t.info.shape.rank? = some t.rank := PartialShape.rank?_ofShape t.shape
  constructor
  · rintro ⟨info', hinfo', hreverse⟩
    obtain rfl := List.singleton_inj.1 hinfo'
    rw [Operator.inferReverse_eq_ok_iff, hrank] at hreverse
    exact hreverse
  · intro h
    refine ⟨t.info, rfl, ?_⟩
    rw [Operator.inferReverse_eq_ok_iff, hrank]
    exact h

/-! ## The three outcomes -/

theorem reverse_eq_rejected {e : InferError}
    (h : (Operator.reverse axes).infer [t.info] = .error e) :
    t.reverse axes = .error (.rejected e) := by
  rw [reverse, h]
  rfl

/-- After inference nothing but the start and the running count decides. -/
theorem reverse_eq_reversedData (hchosen : axes.resolve (some t.rank) = .ok chosen) :
    t.reverse axes = (do
      let data ← (t.reversedData chosen).mapError .stopped
      let _ ← (Fault.overflow.unless t.shape.runningCount?).mapError .stopped
      return ⟨t.shape, data⟩) := by
  rw [reverse, infer_reverse_eq_ok_iff.2 ⟨⟨chosen, hchosen⟩, rfl⟩, hchosen]
  rfl

theorem reverse_eq_ok (ht : t.WellSized) (hchosen : axes.resolve (some t.rank) = .ok chosen)
    (h : t.Reversible chosen) : t.reverse axes = .ok (t.reversed chosen) := by
  have hruns : t.shape.runningCount? = some t.shape.dims.prod :=
    Word.product?_eq_some_iff.2 ⟨h.runs, rfl⟩
  rw [reverse_eq_reversedData hchosen, reversedData_eq_ok ht h.start_le, hruns]
  rfl

theorem reverse_eq_overflow (ht : t.WellSized)
    (hchosen : axes.resolve (some t.rank) = .ok chosen) (h : ¬t.Reversible chosen) :
    t.reverse axes = .error (.stopped .overflow) := by
  rw [reverse_eq_reversedData hchosen]
  by_cases hstart : Layout.farthest (chosen.restrict t.spans) ≤ Word.maxValue
  · have hruns : t.shape.runningCount? = none :=
      Word.product?_eq_none_iff.2 fun hruns => h ⟨hstart, hruns⟩
    rw [reversedData_eq_ok ht hstart, hruns]
    rfl
  · rw [reversedData_eq_error (Nat.lt_of_not_le hstart)]
    rfl

/-- After inference a reversal is not rejected: it completes or runs over. -/
theorem reverse_ne_rejected (ht : t.WellSized)
    (hchosen : axes.resolve (some t.rank) = .ok chosen) (e : InferError) :
    t.reverse axes ≠ .error (.rejected e) := by
  by_cases h : t.Reversible chosen
  · rw [reverse_eq_ok ht hchosen h]
    exact nofun
  · rw [reverse_eq_overflow ht hchosen h]
    exact nofun

/-- A run stops for want of storage or completes as the computation does. -/
theorem run_reverse_eq (ht : t.WellSized) (hchosen : axes.resolve (some t.rank) = .ok chosen)
    (h : t.Reversible chosen) :
    (Kernel.reverse axes).run t =
      if fits α (t.reversed chosen).size then .ok (t.reversed chosen)
      else .error (.stopped .exhausted) := by
  have hinfer : (Operator.reverse axes).infer [t.info] = .ok (t.reversed chosen).info :=
    infer_reverse_eq_ok_iff.2 ⟨⟨chosen, hchosen⟩, rfl⟩
  exact Kernel.run_eq_of_compute hinfer (reverse_eq_ok ht hchosen h) (wellSized_reversed ht chosen)

/-! ## Main results -/

/-- **A reversal takes every element from the mirrored index.**  On a tensor that is addressable,
a reversal whose axes can be resolved is computed, unless storage does not hold it: the result has
the same shape, its element at an index is the one at the index mirrored along the chosen axes, and
its data are the same elements in another order.  The chosen axes are those that requests name from
the front or from the back, or that the mask marks. -/
theorem reverse_correct (ht : t.Addressable)
    (hchosen : axes.resolve (some t.rank) = .ok chosen) :
    ∃ u, (t.reverse axes = .ok u ∧
        (Kernel.reverse axes).run t =
          if fits α u.size then .ok u else .error (.stopped .exhausted)) ∧
      t.IsReversal u chosen ∧
      (t.rank ≤ maxAxis → ∀ axis, axis ∈ chosen.axes ↔ axes.Selects t.rank axis) := by
  have hreversible := ht.reversible chosen
  refine ⟨t.reversed chosen, ⟨?_, ?_⟩, isReversal_reversed ht.wellSized chosen, ?_⟩
  · exact reverse_eq_ok ht.wellSized hchosen hreversible
  · exact run_reverse_eq ht.wellSized hchosen hreversible
  · intro hrank axis
    exact ReversedAxes.mem_iff_selects hrank hchosen

/-- The rows of a matrix are reversed, whether their axis is named once or twice. -/
theorem reverse_correct_rows :
    ∃ u, (⟨⟨[2, 3]⟩, #[1, 2, 3, 4, 5, 6]⟩ : Tensor Int32).reverse (.index [-1, 1]) = .ok u ∧
      u.shape = ⟨[2, 3]⟩ ∧ u.get? [1, 0] = .ok (some 6) := by
  have ht : (⟨⟨[2, 3]⟩, #[1, 2, 3, 4, 5, 6]⟩ : Tensor Int32).Addressable := ⟨rfl, by decide⟩
  have hchosen : (ReversedAxes.index [-1, 1]).resolve
      (some (⟨⟨[2, 3]⟩, #[1, 2, 3, 4, 5, 6]⟩ : Tensor Int32).rank) =
        .ok (AxisSet.ofList [1]) := rfl
  obtain ⟨u, ⟨hreverse, -⟩, hspec, -⟩ := reverse_correct ht hchosen
  obtain ⟨-, a, hget, hread⟩ := hspec.get?_eq [1, 0] (by decide)
  have ha : a = 6 := (Option.some.inj (Except.ok.inj hget)).symm
  exact ⟨u, hreverse, hspec.shape_eq, ha ▸ hread⟩

/-- **A reversal fails as inference does**, with the same error, and besides that exactly when the
tensor is not reversible along the axes: then counting runs over.  Otherwise the result has the info
that was inferred, the shape of the input and as many elements.  What keeps a tensor from being
reversible are huge extents beside a zero. -/
theorem reverse_total {shape : Shape} {data : Array α} (ht : ofData shape data = .ok t) :
    (∀ e, t.reverse axes = .error (.rejected e) ↔
      (Operator.reverse axes).infer [t.info] = .error e) ∧
    (∀ info, (Operator.reverse axes).infer [t.info] = .ok info →
      ∃ chosen, axes.resolve (some t.rank) = .ok chosen ∧
        (t.Reversible chosen → ∃ u, t.reverse axes = .ok u ∧ u.info = info ∧
          u.shape = t.shape ∧ u.data.size = t.data.size ∧
          (Kernel.reverse axes).run t =
            if fits α u.size then .ok u else .error (.stopped .exhausted)) ∧
        (¬t.Reversible chosen → t.reverse axes = .error (.stopped .overflow))) ∧
    (0 ∉ t.shape.dims → t.Addressable) ∧ (t.Addressable → ∀ chosen, t.Reversible chosen) := by
  obtain ⟨rfl, ht⟩ := ofData_eq_ok_iff.1 ht
  refine ⟨?_, ?_, ht.addressable, Addressable.reversible⟩
  · intro e
    constructor
    · intro hreverse
      cases hinfer : (Operator.reverse axes).infer [Tensor.info ⟨shape, data⟩] with
      | error e' =>
        rw [reverse_eq_rejected hinfer, Except.error.injEq, Failure.rejected.injEq] at hreverse
        rw [hreverse]
      | ok info =>
        obtain ⟨⟨chosen, hchosen⟩, -⟩ := infer_reverse_eq_ok_iff.1 hinfer
        exact absurd hreverse (reverse_ne_rejected ht hchosen e)
    · exact reverse_eq_rejected
  · intro info hinfer
    obtain ⟨⟨chosen, hchosen⟩, rfl⟩ := infer_reverse_eq_ok_iff.1 hinfer
    refine ⟨chosen, hchosen, ?_, reverse_eq_overflow ht hchosen⟩
    intro hreversible
    have hsize : (Tensor.reversed ⟨shape, data⟩ chosen).data.size = data.size :=
      size_rearranged ht.size_eq (Index.isInvolution_flip _ _)
    exact ⟨_, reverse_eq_ok ht hchosen hreversible, rfl, rfl, hsize,
      run_reverse_eq ht hchosen hreversible⟩

/-- A reversal along a huge axis begins at an offset in the word, and there is nothing to count. -/
theorem reverse_total_huge_extent :
    ∃ u, (⟨⟨[0, 2 ^ 63, 2]⟩, #[]⟩ : Tensor Int32).reverse (.index [1]) = .ok u ∧
      u.info = ⟨.i32, .ofShape ⟨[0, 2 ^ 63, 2]⟩⟩ := by
  have ht : ofData ⟨[0, 2 ^ 63, 2]⟩ (#[] : Array Int32) = .ok ⟨⟨[0, 2 ^ 63, 2]⟩, #[]⟩ := rfl
  have hinfer : (Operator.reverse (.index [1])).infer
      [(⟨⟨[0, 2 ^ 63, 2]⟩, #[]⟩ : Tensor Int32).info] =
        .ok ⟨.i32, .ofShape ⟨[0, 2 ^ 63, 2]⟩⟩ := rfl
  obtain ⟨chosen, hchosen, hok, -⟩ := (reverse_total ht).2.1 _ hinfer
  obtain rfl : AxisSet.ofList [1] = chosen := Except.ok.inj hchosen
  have hreversible :
      (⟨⟨[0, 2 ^ 63, 2]⟩, #[]⟩ : Tensor Int32).Reversible (AxisSet.ofList [1]) := by
    refine ⟨?_, ?_⟩
    · decide
    · have hproduct : Word.product? [0, 2 ^ 63, 2] = some 0 := rfl
      exact (Word.product?_eq_some_iff.1 hproduct).1
  obtain ⟨u, hreverse, hinfo, -⟩ := hok hreversible
  exact ⟨u, hreverse, hinfo⟩

/-- A reversal that inference accepts can run over: the first axis has its end at twice the largest
word, although the tensor has no elements. -/
theorem reverse_overflow_huge_extents :
    ofData ⟨[3, 0, 2 ^ 63, 2]⟩ (#[] : Array Int32) = .ok ⟨⟨[3, 0, 2 ^ 63, 2]⟩, #[]⟩ ∧
      (Operator.reverse (.index [0])).infer
          [(⟨⟨[3, 0, 2 ^ 63, 2]⟩, #[]⟩ : Tensor Int32).info] =
        .ok ⟨.i32, .ofShape ⟨[3, 0, 2 ^ 63, 2]⟩⟩ ∧
      (⟨⟨[3, 0, 2 ^ 63, 2]⟩, #[]⟩ : Tensor Int32).reverse (.index [0]) =
        .error (.stopped .overflow) :=
  ⟨rfl, rfl, rfl⟩

end TensorInference.Tensor
