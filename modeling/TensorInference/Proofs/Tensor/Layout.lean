import TensorInference.Proofs.Tensor.Index
import TensorInference.Proofs.Word
import TensorInference.Tensor.Layout

/-!
# Offsets as distances

Without regard to words, the offset of an index is the sum of its coordinates times their strides,
its `distance`.  The checked computations compute it: they succeed exactly when the distance stays in
the word, however many steps they take, since no step is larger than the whole.

* `offsetOfFlat_eq_ok`, `offsetOfFlat_eq_error` --- counting through spans.
* `offsetOfIndex_eq` --- going to an index, be it in range or not.
* `distance_spans` --- in a tensor with elements, the distance of an index is its position.
* `distance_le_farthest`, `exists_distance_eq_farthest`, `farthest_spans_lt` --- the index farthest
  from the start, by which all offsets are bounded, also in a tensor without elements.
* `walked_le_farthest_front`, `walked_last` --- how far an index leads that need not be in range.
-/

namespace TensorInference.Layout

open Index

/-- The distance of an index from the start. -/
def distance : List Span → List Nat → Nat
  | span :: spans, coordinate :: index => coordinate * span.stride + distance spans index
  | _, _ => 0

@[simp] theorem distance_nil (index : List Nat) : distance [] index = 0 := by
  cases index <;> rfl

/-- The distance of the index whose coordinates are all at their ends. -/
def farthest : List Span → Nat
  | [] => 0
  | span :: spans => (span.size - 1) * span.stride + farthest spans

/-! ## Checked arithmetic -/

theorem add_eq_ok_iff {a b c : Nat} : add a b = .ok c ↔ a + b = c ∧ c ≤ Word.maxValue := by
  rw [add, Fault.unless_eq_ok_iff, Word.add?_eq_some_iff]

theorem add_eq_ok {a b : Nat} (h : a + b ≤ Word.maxValue) : add a b = .ok (a + b) :=
  add_eq_ok_iff.2 ⟨rfl, h⟩

theorem add_eq_error {a b : Nat} (h : Word.maxValue < a + b) : add a b = .error .overflow := by
  rw [add, Word.add?, if_neg (Nat.not_le.2 h), Fault.unless_none]

theorem steps_eq_ok_iff {coordinate stride step : Nat} :
    steps coordinate stride = .ok step ↔ coordinate * stride = step ∧ step ≤ Word.maxValue := by
  rw [steps, Fault.unless_eq_ok_iff, Word.mul?_eq_some_iff]

theorem steps_eq_ok {coordinate stride : Nat} (h : coordinate * stride ≤ Word.maxValue) :
    steps coordinate stride = .ok (coordinate * stride) :=
  steps_eq_ok_iff.2 ⟨rfl, h⟩

theorem steps_eq_error {coordinate stride : Nat} (h : Word.maxValue < coordinate * stride) :
    steps coordinate stride = .error .overflow := by
  rw [steps, Word.mul?, if_neg (Nat.not_le.2 h), Fault.unless_none]

theorem splitBy_eq_ok_iff {size index : Nat} {parts : Nat × Nat} :
    splitBy size index = .ok parts ↔ 0 < size ∧ parts = (index / size, index % size) := by
  rw [splitBy]
  split
  · next h => simp [h]
  · next h => simp [Nat.pos_of_ne_zero h, eq_comm]

theorem splitBy_eq_ok {size index : Nat} (h : 0 < size) :
    splitBy size index = .ok (index / size, index % size) :=
  splitBy_eq_ok_iff.2 ⟨h, rfl⟩

/-! ## Counting through spans -/

/-- Counting through spans takes one step more for every span. -/
theorem countThrough_cons {span : Span} {spans : List Span} {number offset rest : Nat}
    (hspan : 0 < span.size) (h : countThrough number spans = .ok (offset, rest)) :
    countThrough number (span :: spans) = (do
      let step ← steps (rest % span.size) span.stride
      return (← add offset step, rest / span.size)) := by
  rw [countThrough, h]
  show (do
      let parts ← splitBy span.size rest
      let step ← steps parts.2 span.stride
      return (← add offset step, parts.1)) = _
  rw [splitBy_eq_ok hspan]
  rfl

theorem countThrough_eq_ok {spans : List Span} {number : Nat} (hpos : ∀ span ∈ spans, 0 < span.size)
    (h : distance spans (digits (spans.map Span.size) number) ≤ Word.maxValue) :
    countThrough number spans =
      .ok (distance spans (digits (spans.map Span.size) number),
        number / count (spans.map Span.size)) := by
  induction spans with
  | nil => rw [countThrough, distance_nil, List.map_nil, count, Nat.div_one]
  | cons span spans ih =>
    rw [List.map_cons, digits, distance] at h
    rw [countThrough_cons (hpos span List.mem_cons_self)
        (ih (fun span hspan => hpos span (List.mem_cons_of_mem _ hspan)) (by omega)),
      steps_eq_ok (by omega), List.map_cons, digits, distance, count, Nat.mul_comm span.size,
      ← Nat.div_div_eq_div_mul]
    show (do return (← add _ _, _)) = _
    rw [add_eq_ok (by omega), Nat.add_comm]
    rfl

theorem countThrough_eq_error {spans : List Span} {number : Nat}
    (hpos : ∀ span ∈ spans, 0 < span.size)
    (h : Word.maxValue < distance spans (digits (spans.map Span.size) number)) :
    countThrough number spans = .error .overflow := by
  induction spans with
  | nil => simp at h
  | cons span spans ih =>
    have hpos' : ∀ span ∈ spans, 0 < span.size :=
      fun span hspan => hpos span (List.mem_cons_of_mem _ hspan)
    rw [List.map_cons, digits, distance] at h
    by_cases hrest : distance spans (digits (spans.map Span.size) number) ≤ Word.maxValue
    · rw [countThrough_cons (hpos span List.mem_cons_self) (countThrough_eq_ok hpos' hrest)]
      by_cases hstep : number / count (spans.map Span.size) % span.size * span.stride ≤
          Word.maxValue
      · rw [steps_eq_ok hstep]
        show (do return (← add _ _, _)) = _
        rw [add_eq_error (by omega)]
        rfl
      · rw [steps_eq_error (by omega)]
        rfl
    · rw [countThrough, ih hpos' (by omega)]
      rfl

theorem offsetOfFlat_eq_ok {spans : List Span} {number : Nat} (hpos : ∀ span ∈ spans, 0 < span.size)
    (h : distance spans (digits (spans.map Span.size) number) ≤ Word.maxValue) :
    offsetOfFlat spans number = .ok (distance spans (digits (spans.map Span.size) number)) := by
  rw [offsetOfFlat, countThrough_eq_ok hpos h]
  rfl

theorem offsetOfFlat_eq_error {spans : List Span} {number : Nat}
    (hpos : ∀ span ∈ spans, 0 < span.size)
    (h : Word.maxValue < distance spans (digits (spans.map Span.size) number)) :
    offsetOfFlat spans number = .error .overflow := by
  rw [offsetOfFlat, countThrough_eq_error hpos h]
  rfl

/-! ## Offsets of indices -/

/-- The distance that is walked along an index until a coordinate is out of range. -/
def walked : List Span → List Nat → Nat
  | span :: spans, coordinate :: index =>
    if coordinate < span.size then coordinate * span.stride + walked spans index else 0
  | _, _ => 0

@[simp] theorem walked_nil (index : List Nat) : walked [] index = 0 := by
  cases index <;> rfl

/-- An index in range is walked to its end. -/
theorem walked_eq_distance {spans : List Span} {index : List Nat}
    (h : InRange (spans.map Span.size) index) : walked spans index = distance spans index := by
  induction spans generalizing index with
  | nil => rw [walked_nil, distance_nil]
  | cons span spans ih =>
    cases index with
    | nil => rfl
    | cons coordinate index => rw [walked, if_pos h.1, ih h.2, distance]

/-- Going to an index runs over when the distance does that is walked, and ends with nothing when the
index is out of range. -/
theorem offsetOfIndex_eq {spans : List Span} {index : List Nat} {offset : Nat}
    (hoffset : offset ≤ Word.maxValue) :
    offsetOfIndex offset spans index =
      if Word.maxValue < offset + walked spans index then .error .overflow
      else if InRange (spans.map Span.size) index then
        .ok (some (offset + distance spans index))
      else .ok none := by
  induction spans generalizing index offset with
  | nil =>
    rw [walked_nil, Nat.add_zero, if_neg (Nat.not_lt.2 hoffset)]
    cases index <;> rfl
  | cons span spans ih =>
    cases index with
    | nil => exact (if_neg (Nat.not_lt.2 hoffset)).symm
    | cons coordinate index =>
      rw [offsetOfIndex, walked]
      by_cases hlt : coordinate < span.size
      · have hrange : InRange ((span :: spans).map Span.size) (coordinate :: index) ↔
            InRange (spans.map Span.size) index := and_iff_right hlt
        rw [if_neg (Nat.not_le.2 hlt), if_pos hlt, distance, ← Nat.add_assoc, ← Nat.add_assoc]
        simp only [hrange]
        by_cases hstep : offset + coordinate * span.stride ≤ Word.maxValue
        · rw [steps_eq_ok (by omega)]
          show (do offsetOfIndex (← add offset _) spans index) = _
          rw [add_eq_ok hstep]
          exact ih hstep
        · rw [if_pos (by omega)]
          by_cases hle : coordinate * span.stride ≤ Word.maxValue
          · rw [steps_eq_ok hle]
            show (do offsetOfIndex (← add offset _) spans index) = _
            rw [add_eq_error (by omega)]
            rfl
          · rw [steps_eq_error (by omega)]
            rfl
      · rw [if_pos (Nat.not_lt.1 hlt), if_neg hlt, Nat.add_zero, if_neg (Nat.not_lt.2 hoffset),
          if_neg fun h => hlt h.1]
        rfl

/-- An index in range has an offset, if its distance stays in the word. -/
theorem offsetOfIndex_eq_ok {spans : List Span} {index : List Nat} {offset : Nat}
    (hindex : InRange (spans.map Span.size) index)
    (h : offset + distance spans index ≤ Word.maxValue) :
    offsetOfIndex offset spans index = .ok (some (offset + distance spans index)) := by
  have hwalked := walked_eq_distance hindex
  rw [offsetOfIndex_eq (by omega), if_neg (by omega), if_pos hindex]

/-! ## Distances -/

/-- Distances along two parts of the axes add up to the distance along all. -/
theorem distance_weave {marks : List Bool} {spans : List Span} {free marked : List Nat}
    (hlen : spans.length = marks.length) (hfree : free.length = marks.count false)
    (hmarked : marked.length = marks.count true) :
    distance spans (Marks.weave marks free marked) =
      distance (Marks.select false marks spans) free +
        distance (Marks.select true marks spans) marked := by
  induction marks generalizing spans free marked with
  | nil =>
    obtain rfl := List.eq_nil_of_length_eq_zero hlen
    obtain rfl := List.eq_nil_of_length_eq_zero hfree
    obtain rfl := List.eq_nil_of_length_eq_zero hmarked
    rfl
  | cons mark marks ih =>
    obtain ⟨span, spans, rfl⟩ := List.exists_cons_of_length_eq_add_one hlen
    cases mark with
    | false =>
      rw [List.count_cons_self] at hfree
      rw [List.count_cons_of_ne (by decide)] at hmarked
      obtain ⟨coordinate, free, rfl⟩ := List.exists_cons_of_length_eq_add_one hfree
      rw [Marks.weave_false, Marks.select_cons_self, Marks.select_true_false, distance, distance,
        ih (Nat.succ.inj hlen) (Nat.succ.inj hfree) hmarked, Nat.add_assoc]
    | true =>
      rw [List.count_cons_of_ne (by decide)] at hfree
      rw [List.count_cons_self] at hmarked
      obtain ⟨coordinate, marked, rfl⟩ := List.exists_cons_of_length_eq_add_one hmarked
      rw [Marks.weave_true, Marks.select_cons_self, Marks.select_false_true, distance, distance,
        ih (Nat.succ.inj hlen) hfree (Nat.succ.inj hmarked), Nat.add_left_comm]

@[simp] theorem map_size_spans (dims : List Nat) : (spans dims).map Span.size = dims := by
  induction dims with
  | nil => rfl
  | cons size dims ih => rw [spans_cons, List.map_cons, ih]

@[simp] theorem length_spans (dims : List Nat) : (spans dims).length = dims.length := by
  rw [← List.length_map Span.size, map_size_spans]

/-- Spans are positive when no extent is zero. -/
theorem forall_pos_iff_zero_notMem {spans : List Span} :
    (∀ span ∈ spans, 0 < span.size) ↔ 0 ∉ spans.map Span.size := by
  constructor
  · intro hpos hmem
    obtain ⟨span, hspan, hsize⟩ := List.mem_map.1 hmem
    have := hpos span hspan
    omega
  · intro h span hspan
    refine Nat.pos_of_ne_zero fun hzero => h ?_
    rw [← hzero]
    exact List.mem_map_of_mem hspan

/-- A stride spans the later extents, zeros counted as ones, up to the largest word. -/
theorem reach_eq_min (sizes : List Nat) :
    reach sizes = min (sizes.map (max · 1)).prod Word.maxValue := by
  induction sizes with
  | nil => rfl
  | cons size sizes ih =>
    rw [reach, ih, Word.mulCapped, List.map_cons, List.prod_cons, Nat.mul_comm (max size 1)]
    rcases Nat.le_total (sizes.map (max · 1)).prod Word.maxValue with hle | hle
    · rw [Nat.min_eq_left hle]
    · -- A capped product stays capped.
      have hmax : 1 ≤ max size 1 := Nat.le_max_right _ _
      rw [Nat.min_eq_right hle, Nat.min_eq_right (Nat.le_mul_of_pos_right _ hmax),
        Nat.min_eq_right (Nat.le_trans hle (Nat.le_mul_of_pos_right _ hmax))]

/-- Where all extents count, a stride spans the later ones exactly. -/
theorem reach_eq_prod {dims : List Nat} (hzero : 0 ∉ dims) (hcount : count dims ≤ Word.maxValue) :
    reach dims = dims.prod := by
  rw [reach_eq_min, Word.prod_max_eq_prod hzero, Nat.min_eq_left (count_eq_prod dims ▸ hcount)]

/-- In a tensor with elements the strides are exact, so distances are positions. -/
theorem distance_spans {dims : List Nat} (hzero : 0 ∉ dims) (hcount : count dims ≤ Word.maxValue)
    (index : List Nat) : distance (spans dims) index = position dims index := by
  induction dims generalizing index with
  | nil => rw [spans_nil, distance_nil, position_nil]
  | cons size dims ih =>
    rw [List.mem_cons, not_or] at hzero
    have hle : count dims ≤ Word.maxValue :=
      Nat.le_trans (Nat.le_mul_of_pos_left _ (by omega)) hcount
    cases index with
    | nil => rfl
    | cons coordinate index =>
      rw [spans_cons, distance, position, ih hzero.2 hle, reach_eq_prod hzero.2 hle, count_eq_prod]

/-! ## The farthest index -/

theorem distance_le_farthest {spans : List Span} {index : List Nat}
    (h : InRange (spans.map Span.size) index) : distance spans index ≤ farthest spans := by
  induction spans generalizing index with
  | nil =>
    obtain rfl := List.eq_nil_of_length_eq_zero (length_of_inRange h)
    exact Nat.le_refl _
  | cons span spans ih =>
    cases index with
    | nil => exact h.elim
    | cons coordinate index =>
      have hlt : coordinate < span.size := h.1
      rw [distance, farthest]
      exact Nat.add_le_add (Nat.mul_le_mul_right _ (by omega)) (ih h.2)

theorem exists_distance_eq_farthest {spans : List Span} (hpos : ∀ span ∈ spans, 0 < span.size) :
    ∃ index, InRange (spans.map Span.size) index ∧ distance spans index = farthest spans := by
  induction spans with
  | nil => exact ⟨[], trivial, rfl⟩
  | cons span spans ih =>
    obtain ⟨index, hindex, hdistance⟩ := ih fun span hspan => hpos span (List.mem_cons_of_mem _ hspan)
    have hspan := hpos span List.mem_cons_self
    refine ⟨(span.size - 1) :: index, ⟨by omega, hindex⟩, ?_⟩
    rw [distance, farthest, hdistance]

theorem farthest_le_of_sublist {spans spans' : List Span} (h : spans.Sublist spans') :
    farthest spans ≤ farthest spans' := by
  induction h with
  | slnil => exact Nat.le_refl _
  | cons span _ ih => exact Nat.le_trans ih (Nat.le_add_left _ _)
  | cons_cons span _ ih => exact Nat.add_le_add_left ih _

theorem farthest_select_le (side : Bool) (marks : List Bool) (spans : List Span) :
    farthest (Marks.select side marks spans) ≤ farthest spans :=
  farthest_le_of_sublist (Marks.select_sublist side marks spans)

/-- The spans before the first without coordinates, which are as far as any index leads. -/
def front (spans : List Span) : List Span :=
  spans.takeWhile (0 < ·.size)

theorem walked_le_farthest_front (spans : List Span) (index : List Nat) :
    walked spans index ≤ farthest (front spans) := by
  induction spans generalizing index with
  | nil => exact Nat.le_of_eq (walked_nil index)
  | cons span spans ih =>
    cases index with
    | nil => exact Nat.zero_le _
    | cons coordinate index =>
      rw [walked]
      split
      · next hlt =>
        have hpos : 0 < span.size := Nat.zero_lt_of_lt hlt
        rw [front, List.takeWhile_cons_of_pos (by simpa using hpos), farthest]
        exact Nat.add_le_add (Nat.mul_le_mul_right _ (by omega)) (ih index)
      · exact Nat.zero_le _

/-- The last coordinates of all axes lead as far as the front does. -/
theorem walked_last (spans : List Span) :
    walked spans (spans.map (·.size - 1)) = farthest (front spans) := by
  induction spans with
  | nil => rfl
  | cons span spans ih =>
    rw [List.map_cons, walked, front]
    by_cases hpos : 0 < span.size
    · rw [if_pos (by omega), ih, List.takeWhile_cons_of_pos (by simpa using hpos), farthest, front]
    · rw [if_neg (by omega), List.takeWhile_cons_of_neg (by simpa using hpos), farthest]

/-- Nothing in a tensor is farther from the start than its extents span. -/
theorem farthest_spans_lt (dims : List Nat) : farthest (spans dims) < (dims.map (max · 1)).prod := by
  induction dims with
  | nil => exact Nat.one_pos
  | cons size dims ih =>
    rw [spans_cons, farthest, List.map_cons, List.prod_cons]
    have hreach : reach dims ≤ (dims.map (max · 1)).prod :=
      Nat.le_trans (Nat.le_of_eq (reach_eq_min dims)) (Nat.min_le_left _ _)
    calc (size - 1) * reach dims + farthest (spans dims)
        < (size - 1) * reach dims + (dims.map (max · 1)).prod := Nat.add_lt_add_left ih _
      _ ≤ (size - 1) * (dims.map (max · 1)).prod + (dims.map (max · 1)).prod :=
          Nat.add_le_add_right (Nat.mul_le_mul_left _ hreach) _
      _ = (size - 1 + 1) * (dims.map (max · 1)).prod := (Nat.succ_mul _ _).symm
      _ = max size 1 * (dims.map (max · 1)).prod := by
          congr 1
          omega

end TensorInference.Layout
