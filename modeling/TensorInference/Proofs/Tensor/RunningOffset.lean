import TensorInference.Proofs.Tensor.Reverse
import TensorInference.Proofs.Tensor.RowMajor

/-!
# Running offsets of a reversal

For every element of a reversed tensor the axes are gone through from the last to the first.  Along a
reversed axis the offset falls and along any other it rises, so that the end of the loop alone does not
tell whether the offset stays in the data on the way.

It does because it is the position of an index all along.  In this index the axes that are still to
come stand at zero, the others have the coordinates that are counted so far, and the whole of it is seen
from the other end of the reversed axes.  The start is the position of the index of zeros; every step
puts in one more coordinate.

* `Layout.Moves`, `Layout.exists_moves_of_countReversed` --- what a step consists of.
* `Layout.countReversed_drop_eq_ok` --- where the steps have led to, after any number of them.
* `Tensor.runningOffset` --- the same for a tensor, as the position of an index.
* `Tensor.reverse_reads_in_bounds` --- nothing goes wrong on the way.
-/

namespace TensorInference

/-! ## Some coordinates counted -/

namespace Index

/-- The coordinates of a number along the axes from `axis` on, and zeros along those before. -/
def countedFrom (axis : Nat) (dims : List Nat) (number : Nat) : List Nat :=
  List.replicate axis 0 ++ digits (dims.drop axis) number

@[simp] theorem countedFrom_zero (dims : List Nat) (number : Nat) :
    countedFrom 0 dims number = digits dims number := rfl

@[simp] theorem countedFrom_succ_cons (axis size : Nat) (dims : List Nat) (number : Nat) :
    countedFrom (axis + 1) (size :: dims) number = 0 :: countedFrom axis dims number := rfl

theorem inRange_countedFrom {axis : Nat} {dims : List Nat} (hzero : 0 ∉ dims)
    (haxis : axis ≤ dims.length) (number : Nat) : InRange dims (countedFrom axis dims number) := by
  induction axis generalizing dims with
  | zero => exact inRange_digits_of_zero_notMem hzero number
  | succ axis ih =>
    obtain ⟨size, dims, rfl⟩ := List.exists_cons_of_length_pos (Nat.zero_lt_of_lt haxis)
    rw [List.mem_cons, not_or] at hzero
    exact ⟨by omega, ih hzero.2 (Nat.le_of_succ_le_succ haxis)⟩

end Index

/-! ## Steps -/

namespace Layout

open Index

/-- A step along an axis, with what is left of the number, takes the offset from `before` to `after`:
the extent divides, the coordinate times the stride is a word, and this much can be taken away from the
offset or added to it. -/
structure Moves (span : Span) (backward : Bool) (rest before after : Nat) : Prop where
  size_pos : 0 < span.size
  step_le : rest % span.size * span.stride ≤ Word.maxValue
  subtracted : backward = true →
    rest % span.size * span.stride ≤ before ∧ after = before - rest % span.size * span.stride
  added : backward = false →
    before + rest % span.size * span.stride ≤ Word.maxValue ∧
      after = before + rest % span.size * span.stride

/-- Counting along one axis more is a step from where the later axes have led to. -/
theorem exists_moves_of_countReversed {start number after left : Nat} {span : Span}
    {backward : Bool} {spans : List (Span × Bool)}
    (h : countReversed start number ((span, backward) :: spans) = .ok (after, left)) :
    ∃ before rest, countReversed start number spans = .ok (before, rest) ∧
      Moves span backward rest before after ∧ left = rest / span.size := by
  obtain ⟨⟨before, rest⟩, hbefore, h⟩ := Outcome.bind_eq_ok_iff.1 h
  obtain ⟨parts, hsplit, h⟩ := Outcome.bind_eq_ok_iff.1 h
  obtain ⟨hpos, rfl⟩ := splitBy_eq_ok_iff.1 hsplit
  obtain ⟨step, hstep, h⟩ := Outcome.bind_eq_ok_iff.1 h
  obtain ⟨rfl, hle⟩ := steps_eq_ok_iff.1 hstep
  refine ⟨before, rest, hbefore, ?_⟩
  cases backward with
  | true =>
    obtain ⟨offset, hoffset, h⟩ := Outcome.bind_eq_ok_iff.1 h
    obtain ⟨rfl, rfl⟩ := Prod.mk.inj (Except.ok.inj h)
    have hsub := subtract_eq_ok_iff.1 hoffset
    exact ⟨⟨hpos, hle, fun _ => ⟨by omega, by omega⟩, nofun⟩, rfl⟩
  | false =>
    obtain ⟨offset, hoffset, h⟩ := Outcome.bind_eq_ok_iff.1 h
    obtain ⟨rfl, rfl⟩ := Prod.mk.inj (Except.ok.inj h)
    obtain ⟨hsum, hword⟩ := add_eq_ok_iff.1 hoffset
    exact ⟨⟨hpos, hle, nofun, fun _ => ⟨by omega, hsum.symm⟩⟩, rfl⟩

/-- **After any number of steps** the offset is that of the index whose coordinates are counted so far,
seen from the other end of the marked axes, beyond a base. -/
theorem countReversed_drop_eq_ok {spans : List Span} {marks : List Bool} (axis base number : Nat)
    (hlen : spans.length = marks.length) (haxis : axis ≤ spans.length)
    (hpos : ∀ span ∈ spans, 0 < span.size) (h : base + farthest spans ≤ Word.maxValue) :
    countReversed (base + farthest (Marks.select true marks spans)) number
        ((spans.zip marks).drop axis) =
      .ok (base + distance spans
          (flip (spans.map Span.size) marks (countedFrom axis (spans.map Span.size) number)),
        number / count ((spans.map Span.size).drop axis)) := by
  induction axis generalizing spans marks base with
  | zero => exact countReversed_eq_ok base number hlen hpos h
  | succ axis ih =>
    obtain ⟨span, spans, rfl⟩ := List.exists_cons_of_length_pos (Nat.zero_lt_of_lt haxis)
    obtain ⟨mark, marks, rfl⟩ := List.exists_cons_of_length_eq_add_one hlen.symm
    have htail : spans.length = marks.length := Nat.succ.inj hlen
    have hle : axis ≤ spans.length := Nat.le_of_succ_le_succ haxis
    have hrest : ∀ span ∈ spans, 0 < span.size :=
      fun span hspan => hpos span (List.mem_cons_of_mem _ hspan)
    rw [farthest] at h
    rw [List.zip_cons_cons, List.drop_succ_cons, List.map_cons, List.drop_succ_cons,
      countedFrom_succ_cons, flip_cons, distance]
    cases mark with
    | false =>
      rw [Marks.select_true_false, if_neg Bool.false_ne_true, Nat.zero_mul, Nat.zero_add]
      exact ih base htail hle hrest (by omega)
    | true =>
      -- The axis stands at its end, which stays in the base.
      rw [Marks.select_cons_self, farthest, if_pos rfl, Nat.sub_zero, ← Nat.add_assoc,
        ← Nat.add_assoc]
      exact ih _ htail hle hrest (by omega)

end Layout

namespace Tensor

variable {α : Type} {t : Tensor α} {chosen : AxisSet}

/-! ## Running offsets -/

/-- The offset at a given number when the axes from `axis` on have been counted: the position of the
index that has their coordinates, seen from the other end of the chosen axes. -/
def runningOffset (t : Tensor α) (chosen : AxisSet) (axis number : Nat) : Nat :=
  Index.position t.shape.dims
    (Index.flip t.shape.dims (chosen.marks t.rank) (Index.countedFrom axis t.shape.dims number))

theorem runningOffset_lt_size (ht : t.WellSized) (hsize : 0 < t.size) (chosen : AxisSet)
    {axis : Nat} (haxis : axis ≤ t.rank) (number : Nat) :
    t.runningOffset chosen axis number < t.size := by
  have hindex := Index.inRange_countedFrom (ht.zero_notMem hsize) haxis number
  exact position_lt_size ht.size_eq ((Index.isInvolution_flip _ _).inRange hindex)

/-- In a tensor with elements, the start of a reversal is a word. -/
theorem farthest_restrict_le (ht : t.WellSized) (hsize : 0 < t.size) (chosen : AxisSet) :
    Layout.farthest (chosen.restrict t.spans) ≤ Word.maxValue :=
  ((ht.addressable (ht.zero_notMem hsize)).reversible chosen).start_le

theorem countReversed_drop_markedSpans (ht : t.WellSized) (hsize : 0 < t.size)
    (chosen : AxisSet) {axis : Nat} (haxis : axis ≤ t.rank) (number : Nat) :
    Layout.countReversed (Layout.farthest (chosen.restrict t.spans)) number
        ((t.markedSpans chosen).drop axis) =
      .ok (t.runningOffset chosen axis number, number / Index.count (t.shape.dims.drop axis)) := by
  have hzero := ht.zero_notMem hsize
  have hmap : t.spans.map Span.size = t.shape.dims := Layout.map_size_spans _
  have hpos : ∀ span ∈ t.spans, 0 < span.size := by
    rwa [Layout.forall_pos_iff_zero_notMem, hmap]
  have hle : 0 + Layout.farthest t.spans ≤ Word.maxValue :=
    (Nat.zero_add _).symm ▸ (ht.addressable hzero).farthest_le
  have hcount := Layout.countReversed_drop_eq_ok axis 0 number
    (length_spans_eq_length_marks t chosen) (haxis.trans_eq (length_spans t).symm) hpos hle
  rwa [← markedSpans_eq_zip, ← restrict_spans_eq_select, hmap, Nat.zero_add, Nat.zero_add,
    ht.distance_eq hzero] at hcount

theorem getElem?_markedSpans {axis : Nat} {span : Span} (h : t.spans[axis]? = some span) :
    (t.markedSpans chosen)[axis]? = some (span, chosen.contains axis) := by
  rw [markedSpans, List.getElem?_map, List.getElem?_zipIdx, h]
  simp

/-- Counting along an axis moves from one running offset to the next. -/
theorem moves_runningOffset (ht : t.WellSized) (hsize : 0 < t.size) (number : Nat) {axis : Nat}
    {span : Span} (hspan : t.spans[axis]? = some span) :
    Layout.Moves span (chosen.contains axis) (number / Index.count (t.shape.dims.drop (axis + 1)))
      (t.runningOffset chosen (axis + 1) number) (t.runningOffset chosen axis number) := by
  have haxis : axis < t.rank := by
    rw [← length_spans t]
    exact (List.getElem?_eq_some_iff.1 hspan).1
  have hmarked : (t.markedSpans chosen)[axis]? = some (span, chosen.contains axis) :=
    getElem?_markedSpans hspan
  have hdrop : (t.markedSpans chosen).drop axis =
      (span, chosen.contains axis) :: (t.markedSpans chosen).drop (axis + 1) := by
    obtain ⟨hlt, hget⟩ := List.getElem?_eq_some_iff.1 hmarked
    rw [List.drop_eq_getElem_cons hlt, hget]
  have hafter := countReversed_drop_markedSpans ht hsize chosen (Nat.le_of_lt haxis) number
  rw [hdrop] at hafter
  obtain ⟨before, rest, hbefore, hmoves, -⟩ := Layout.exists_moves_of_countReversed hafter
  rw [countReversed_drop_markedSpans ht hsize chosen haxis number] at hbefore
  obtain ⟨rfl, rfl⟩ := Prod.mk.inj (Except.ok.inj hbefore)
  exact hmoves

/-- An element of the reversed tensor stands where all axes have been counted. -/
theorem getElem?_data_reversed (ht : t.WellSized) {number : Nat} (hnumber : number < t.size) :
    (t.reversed chosen).data[number]? = t.data[t.runningOffset chosen 0 number]? := by
  have hcount : number < Index.count t.shape.dims := by rwa [count_dims ht.size_eq]
  have hposition := Index.position_digits_of_lt hcount
  calc (t.reversed chosen).data[number]?
      = (t.reversed chosen).at? (Index.digits t.shape.dims number) :=
        congrArg (fun offset => (t.reversed chosen).data[offset]?) hposition.symm
    _ = t.at? (Index.flip t.shape.dims (chosen.marks t.rank)
          (Index.digits t.shape.dims number)) :=
        at?_rearranged ht.size_eq (Index.isInvolution_flip _ _) (Index.inRange_digits hcount)
    _ = t.data[t.runningOffset chosen 0 number]? := rfl

/-! ## Main result -/

/-- What is done for the elements of a reversal along some axes, with their offsets counted from
`start`. -/
structure ReadsInBounds (t : Tensor α) (chosen : AxisSet) (start : Nat) : Prop where
  start_eq : Layout.reversedStart (t.markedSpans chosen) = .ok start
  /-- However many axes have been counted, the offset is in the data. -/
  counted : ∀ number < t.size, ∀ axis ≤ t.rank,
    Layout.countReversed start number ((t.markedSpans chosen).drop axis) =
        .ok (t.runningOffset chosen axis number, number / Index.count (t.shape.dims.drop axis)) ∧
      t.runningOffset chosen axis number < t.size
  /-- Every step divides by an extent and stays in the word. -/
  moves : ∀ number < t.size, ∀ axis span, t.spans[axis]? = some span →
    Layout.Moves span (chosen.contains axis) (number / Index.count (t.shape.dims.drop (axis + 1)))
      (t.runningOffset chosen (axis + 1) number) (t.runningOffset chosen axis number)
  /-- There is an element where the steps end. -/
  read : ∀ number < t.size, ∃ a,
    Layout.offsetOfReversed (t.markedSpans chosen) start number =
        .ok (t.runningOffset chosen 0 number) ∧
      t.data[t.runningOffset chosen 0 number]? = some a ∧
      t.read (t.runningOffset chosen 0 number) = .ok a
  /-- These are the elements of the result. -/
  result : ∃ data, t.reversedData chosen = .ok data ∧ data.size = t.size ∧
    ∀ number < t.size, data[number]? = t.data[t.runningOffset chosen 0 number]?

/-- **A reversal never leaves the data on its way to an element.**  In a tensor with elements and along
any axes, nothing is divided by zero, nothing is taken from an offset that is smaller, no product and no
sum leaves the word, and the offset is that of an element before the first step and after each one. -/
theorem reverse_reads_in_bounds (ht : t.WellSized) (hsize : 0 < t.size) (chosen : AxisSet) :
    t.ReadsInBounds chosen (Layout.farthest (chosen.restrict t.spans)) where
  start_eq := reversedStart_markedSpans_eq_ok (farthest_restrict_le ht hsize chosen)
  counted number _ _ haxis :=
    ⟨countReversed_drop_markedSpans ht hsize chosen haxis number,
      runningOffset_lt_size ht hsize chosen haxis number⟩
  moves number _ _ _ hspan := moves_runningOffset ht hsize number hspan
  read number _ := by
    have hcount := countReversed_drop_markedSpans ht hsize chosen (Nat.zero_le _) number
    have hlt := runningOffset_lt_size ht hsize chosen (Nat.zero_le _) number
    have helement := Array.getElem?_eq_getElem hlt
    refine ⟨_, ?_, helement, ?_⟩
    · rw [List.drop_zero] at hcount
      rw [Layout.offsetOfReversed, hcount]
      rfl
    · rw [Tensor.read, helement, Fault.unless_some]
  result :=
    ⟨_, reversedData_eq_ok ht (farthest_restrict_le ht hsize chosen),
      size_rearranged ht.size_eq (Index.isInvolution_flip _ _), fun _ => getElem?_data_reversed ht⟩

/-- In a matrix whose rows are exchanged, the way to the second element of the last row begins at the
last row, goes on by one column and then back by one row. -/
theorem reverse_reads_in_bounds_rows :
    ∃ t : Tensor Int8, t = ⟨⟨[2, 3]⟩, #[0, 1, 2, 3, 4, 5]⟩ ∧
      [2, 1, 0].map (fun axis => t.runningOffset (.ofList [0]) axis 4) = [3, 4, 1] ∧
      Layout.Moves ⟨3, 1⟩ false 4 3 4 ∧ Layout.Moves ⟨2, 3⟩ true 1 4 1 ∧
      t.reversedData (.ofList [0]) = .ok #[3, 4, 5, 0, 1, 2] ∧ t.read 1 = .ok 1 := by
  have ht : (⟨⟨[2, 3]⟩, #[0, 1, 2, 3, 4, 5]⟩ : Tensor Int8).WellSized := ⟨rfl, by decide⟩
  have h := reverse_reads_in_bounds ht (by decide) (.ofList [0])
  obtain ⟨a, -, helement, hread⟩ := h.read 4 (by decide)
  obtain rfl : 1 = a := Option.some.inj helement
  exact ⟨_, rfl, by decide, h.moves 4 (by decide) 1 _ rfl, h.moves 4 (by decide) 0 _ rfl,
    by decide, hread⟩

end Tensor

end TensorInference
