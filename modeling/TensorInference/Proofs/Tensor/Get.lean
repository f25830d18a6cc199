import TensorInference.Proofs.Tensor.Element

/-!
# Reading by any index

An index that is in range reads an element.  One that is not reads nothing, but this is learned only
where the walk along the index meets the coordinate that is out of range, and on the way there the
offset grows.  With elements in the tensor it does not grow out of the word, since the strides are
exact.  Without any, a walk comes as far as the first axis without coordinates, and the strides before
that axis know only that the later extents are large.

A tensor is `Indexable` when the farthest walk stays in the word.  Then reading gives an answer for
every list of coordinates; otherwise there is an index for which it overflows.

* `get?_eq_of_not_inRange` --- an index out of range.
* `Addressable.indexable` --- extents that do not outgrow the word.
* `get?_total_iff_indexable` --- all about reading by an index.
-/

namespace TensorInference.Tensor

variable {α : Type}

/-- No index leads out of the word before it is found to be out of range. -/
def Indexable (t : Tensor α) : Prop :=
  Layout.farthest (Layout.front t.spans) ≤ Word.maxValue

instance (t : Tensor α) : Decidable t.Indexable :=
  inferInstanceAs (Decidable (_ ≤ _))

theorem Addressable.indexable {t : Tensor α} (ht : t.Addressable) : t.Indexable :=
  Nat.le_trans (Layout.farthest_le_of_sublist (List.takeWhile_sublist _)) ht.farthest_le

theorem Indexable.walked_le {t : Tensor α} (ht : t.Indexable) (index : List Nat) :
    Layout.walked t.spans index ≤ Word.maxValue :=
  Nat.le_trans (Layout.walked_le_farthest_front t.spans index) ht

/-- An index out of range reads nothing, or overflows on the way to the coordinate that is out of
range.  With another number of coordinates than there are axes it is not walked at all. -/
theorem get?_eq_of_not_inRange {t : Tensor α} {index : List Nat}
    (h : ¬Index.InRange t.shape.dims index) :
    t.get? index =
      if index.length = t.rank ∧ Word.maxValue < Layout.walked t.spans index then .error .overflow
      else .ok none := by
  rw [get?]
  by_cases hlen : index.length = t.rank
  · rw [if_neg (not_not.2 hlen)]
    show (do return (← Layout.offsetOfIndex 0 t.spans index).bind fun offset => t.data[offset]?) = _
    rw [Layout.offsetOfIndex_eq (Nat.zero_le _), spans, Layout.map_size_spans, if_neg h,
      Nat.zero_add]
    simp only [hlen, true_and]
    split
    · rfl
    · rfl
  · rw [if_pos hlen, if_neg fun h => hlen h.1]
    rfl

/-- A tensor that is not indexable overflows at the last coordinates of all its axes. -/
theorem get?_last_eq_overflow {t : Tensor α} (ht : ¬t.Indexable) (h : t.WellSized) :
    t.get? (t.shape.dims.map (· - 1)) = .error .overflow := by
  have hzero : 0 ∈ t.shape.dims := by
    by_contra hzero
    exact ht (h.addressable hzero).indexable
  have hrange : ¬Index.InRange t.shape.dims (t.shape.dims.map (· - 1)) :=
    fun hrange => Index.zero_notMem_of_inRange hrange hzero
  have hwalked : Layout.walked t.spans (t.shape.dims.map (· - 1)) =
      Layout.farthest (Layout.front t.spans) := by
    have hlast := Layout.walked_last t.spans
    rwa [← Function.comp_def (· - 1) Span.size, ← List.map_map, spans, Layout.map_size_spans]
      at hlast
  rw [get?_eq_of_not_inRange hrange, if_pos]
  exact ⟨List.length_map _, hwalked ▸ Nat.not_le.1 ht⟩

/-- **A tensor made of data is read by every index just when it is indexable.**  An index in range
reads the element at its position, always.  Any other index reads nothing, unless the walk up to the
coordinate that is out of range leaves the word, which is never so in an indexable tensor.  A tensor is
indexable if it has elements, or if its extents other than zero do not outgrow the word. -/
theorem get?_total_iff_indexable {shape : Shape} {data : Array α} {t : Tensor α}
    (h : ofData shape data = .ok t) :
    (∀ index, Index.InRange shape.dims index →
        ∃ a, data[Index.position shape.dims index]? = some a ∧ t.get? index = .ok (some a)) ∧
      (∀ index, ¬Index.InRange shape.dims index →
        t.get? index =
          if index.length = shape.rank ∧ Word.maxValue < Layout.walked t.spans index then
            .error .overflow
          else .ok none) ∧
      (t.Indexable → ∀ index, ¬Index.InRange shape.dims index → t.get? index = .ok none) ∧
      (t.Indexable ↔ ∀ index, ∃ result, t.get? index = .ok result) ∧
      (0 ∉ shape.dims → t.Indexable) ∧ (t.Addressable → t.Indexable) := by
  obtain ⟨rfl, ht⟩ := ofData_eq_ok_iff.1 h
  have hread (index : List Nat) (hindex : Index.InRange shape.dims index) :
      ∃ a, data[Index.position shape.dims index]? = some a ∧
        (⟨shape, data⟩ : Tensor α).get? index = .ok (some a) := by
    have hlt := position_lt_size ht.size_eq hindex
    refine ⟨data[Index.position shape.dims index], Array.getElem?_eq_getElem hlt, ?_⟩
    rw [get?_eq ht hindex, Array.getElem?_eq_getElem hlt]
  have hnothing (hindexable : (⟨shape, data⟩ : Tensor α).Indexable) (index : List Nat)
      (hindex : ¬Index.InRange shape.dims index) :
      (⟨shape, data⟩ : Tensor α).get? index = .ok none := by
    rw [get?_eq_of_not_inRange hindex, if_neg]
    exact fun hover => Nat.not_lt.2 (hindexable.walked_le index) hover.2
  refine ⟨hread, fun index hindex => get?_eq_of_not_inRange hindex, hnothing, ?_,
    fun hzero => (ht.addressable hzero).indexable, fun haddressable => haddressable.indexable⟩
  constructor
  · intro hindexable index
    by_cases hindex : Index.InRange shape.dims index
    · obtain ⟨a, -, ha⟩ := hread index hindex
      exact ⟨_, ha⟩
    · exact ⟨_, hnothing hindexable index hindex⟩
  · intro htotal
    by_contra hindexable
    obtain ⟨result, hresult⟩ := htotal (shape.dims.map (· - 1))
    rw [get?_last_eq_overflow hindexable ht] at hresult
    cases hresult

/-- Extents of `2 ^ 63`, `0` and `2` make a tensor in which every index reads nothing, though the
extents other than zero outgrow the word. -/
theorem get?_total_huge_extent :
    ofData ⟨[2 ^ 63, 0, 2]⟩ (#[] : Array Int32) = .ok ⟨⟨[2 ^ 63, 0, 2]⟩, #[]⟩ ∧
      ∀ index, (⟨⟨[2 ^ 63, 0, 2]⟩, #[]⟩ : Tensor Int32).get? index = .ok none := by
  have h : ofData ⟨[2 ^ 63, 0, 2]⟩ (#[] : Array Int32) = .ok ⟨⟨[2 ^ 63, 0, 2]⟩, #[]⟩ := rfl
  have hindexable : (⟨⟨[2 ^ 63, 0, 2]⟩, #[]⟩ : Tensor Int32).Indexable := by decide
  refine ⟨h, fun index => (get?_total_iff_indexable h).2.2.1 hindexable index fun hindex => ?_⟩
  exact Index.zero_notMem_of_inRange hindex (by decide)

/-- With extents of `3`, `0`, `2 ^ 63` and `2`, reading at `2` along the first axis overflows, though
no coordinate along the second is in range. -/
theorem get?_overflow_huge_extents :
    ofData ⟨[3, 0, 2 ^ 63, 2]⟩ (#[] : Array Int32) = .ok ⟨⟨[3, 0, 2 ^ 63, 2]⟩, #[]⟩ ∧
      ¬Index.InRange [3, 0, 2 ^ 63, 2] [2, 0, 0, 0] ∧
      (⟨⟨[3, 0, 2 ^ 63, 2]⟩, #[]⟩ : Tensor Int32).get? [2, 0, 0, 0] = .error .overflow :=
  ⟨rfl, by decide, rfl⟩

end TensorInference.Tensor
