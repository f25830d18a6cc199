import TensorInference.Proofs.Tensor.Layout
import TensorInference.Proofs.Tensor.Mirror

/-!
# Counting backwards

A reversal starts where all marked axes stand at their ends, and a step along a marked axis takes away
from the offset.  While some of the axes are still to come, the offset holds in advance what these
axes will take away: it is the distance of the flipped coordinates so far, added to a base that
contains the ends of the axes to come.  That is the invariant of `countReversed_eq_ok`, and the reason
why no difference falls below zero.

The start itself is a sum of all ends.  It is computed even for a tensor without elements, and there
it can leave the word.

* `reversedStart_eq_ok`, `reversedStart_eq_error` --- the start.
* `offsetOfReversed_eq_ok` --- the offset of a flipped index.
-/

namespace TensorInference.Layout

open Index

/-! ## The start -/

/-- One step of the sum of all ends. -/
def stepToEnd (offset : Nat) : Span × Bool → Except Fault Nat
  | (span, backward) =>
    if backward ∧ 0 < span.size then do
      add offset (← steps (span.size - 1) span.stride)
    else .ok offset

theorem reversedStart_eq_foldlM (spans : List (Span × Bool)) :
    reversedStart spans = spans.foldlM stepToEnd 0 := rfl

/-- An axis without coordinates has no end, but then its end would add nothing. -/
theorem stepToEnd_true {offset : Nat} {span : Span} (hoffset : offset ≤ Word.maxValue) :
    stepToEnd offset (span, true) =
      if offset + (span.size - 1) * span.stride ≤ Word.maxValue then
        .ok (offset + (span.size - 1) * span.stride)
      else .error .overflow := by
  rw [stepToEnd]
  by_cases hsize : 0 < span.size
  · rw [if_pos ⟨rfl, hsize⟩]
    by_cases hend : (span.size - 1) * span.stride ≤ Word.maxValue
    · rw [steps_eq_ok hend]
      show add offset _ = _
      by_cases hsum : offset + (span.size - 1) * span.stride ≤ Word.maxValue
      · rw [add_eq_ok hsum, if_pos hsum]
      · rw [add_eq_error (by omega), if_neg hsum]
    · rw [steps_eq_error (by omega), if_neg (by omega)]
      rfl
  · have hzero : span.size - 1 = 0 := by omega
    rw [if_neg fun h => hsize h.2, hzero, Nat.zero_mul, Nat.add_zero, if_pos hoffset]

theorem stepToEnd_false (offset : Nat) (span : Span) :
    stepToEnd offset (span, false) = .ok offset := by
  rw [stepToEnd, if_neg fun h => absurd h.1 Bool.false_ne_true]

theorem foldlM_stepToEnd {spans : List Span} {marks : List Bool} {offset : Nat}
    (hlen : spans.length = marks.length) (hoffset : offset ≤ Word.maxValue) :
    (spans.zip marks).foldlM stepToEnd offset =
      if offset + farthest (Marks.select true marks spans) ≤ Word.maxValue then
        .ok (offset + farthest (Marks.select true marks spans))
      else .error .overflow := by
  induction marks generalizing spans offset with
  | nil =>
    obtain rfl := List.eq_nil_of_length_eq_zero hlen
    exact (if_pos hoffset).symm
  | cons mark marks ih =>
    obtain ⟨span, spans, rfl⟩ := List.exists_cons_of_length_eq_add_one hlen
    have htail : spans.length = marks.length := Nat.succ.inj hlen
    rw [List.zip_cons_cons, List.foldlM_cons]
    cases mark with
    | false =>
      rw [stepToEnd_false, Marks.select_true_false]
      exact ih htail hoffset
    | true =>
      rw [stepToEnd_true hoffset, Marks.select_cons_self, farthest, ← Nat.add_assoc]
      by_cases hsum : offset + (span.size - 1) * span.stride ≤ Word.maxValue
      · rw [if_pos hsum]
        exact ih htail hsum
      · rw [if_neg hsum, if_neg (by omega)]
        rfl

theorem reversedStart_eq_ok {spans : List Span} {marks : List Bool}
    (hlen : spans.length = marks.length)
    (h : farthest (Marks.select true marks spans) ≤ Word.maxValue) :
    reversedStart (spans.zip marks) = .ok (farthest (Marks.select true marks spans)) := by
  rw [reversedStart_eq_foldlM, foldlM_stepToEnd hlen (Nat.zero_le _), Nat.zero_add, if_pos h]

theorem reversedStart_eq_error {spans : List Span} {marks : List Bool}
    (hlen : spans.length = marks.length)
    (h : Word.maxValue < farthest (Marks.select true marks spans)) :
    reversedStart (spans.zip marks) = .error .overflow := by
  rw [reversedStart_eq_foldlM, foldlM_stepToEnd hlen (Nat.zero_le _), Nat.zero_add,
    if_neg (Nat.not_le.2 h)]

/-! ## Offsets -/

theorem subtract_eq_ok_iff {a b c : Nat} : subtract a b = .ok c ↔ a = b + c := by
  rw [subtract, Fault.unless_eq_ok_iff, Word.sub?_eq_some_iff]

theorem subtract_eq_ok {a b : Nat} : subtract (a + b) b = .ok a :=
  subtract_eq_ok_iff.2 (Nat.add_comm a b)

/-- Counting backwards takes one step more for every span. -/
theorem countReversed_cons {span : Span} {backward : Bool} {spans : List (Span × Bool)}
    {start number offset rest : Nat} (hspan : 0 < span.size)
    (h : countReversed start number spans = .ok (offset, rest)) :
    countReversed start number ((span, backward) :: spans) = (do
      let step ← steps (rest % span.size) span.stride
      return (← if backward then subtract offset step else add offset step, rest / span.size)) := by
  rw [countReversed, h]
  show (do
      let parts ← splitBy span.size rest
      let step ← steps parts.2 span.stride
      return (← if backward then subtract offset step else add offset step, parts.1)) = _
  rw [splitBy_eq_ok hspan]
  rfl

/-- The distance of a flipped index is in reach. -/
theorem distance_flip_le_farthest {spans : List Span} (marks : List Bool)
    (hpos : ∀ span ∈ spans, 0 < span.size) (number : Nat) :
    distance spans (flip (spans.map Span.size) marks (digits (spans.map Span.size) number)) ≤
      farthest spans := by
  have hindex := inRange_digits_of_zero_notMem (forall_pos_iff_zero_notMem.1 hpos) number
  exact distance_le_farthest ((isInvolution_flip _ marks).inRange hindex)

/-- **Counting backwards** from a base and the ends of all marked axes arrives at the base and the
distance of the flipped index. -/
theorem countReversed_eq_ok {spans : List Span} {marks : List Bool} (base number : Nat)
    (hlen : spans.length = marks.length) (hpos : ∀ span ∈ spans, 0 < span.size)
    (h : base + farthest spans ≤ Word.maxValue) :
    countReversed (base + farthest (Marks.select true marks spans)) number (spans.zip marks) =
      .ok (base + distance spans
          (flip (spans.map Span.size) marks (digits (spans.map Span.size) number)),
        number / count (spans.map Span.size)) := by
  induction marks generalizing spans base with
  | nil =>
    obtain rfl := List.eq_nil_of_length_eq_zero hlen
    simp [countReversed, Marks.select, farthest, count]
  | cons mark marks ih =>
    obtain ⟨span, spans, rfl⟩ := List.exists_cons_of_length_eq_add_one hlen
    have htail : spans.length = marks.length := Nat.succ.inj hlen
    have hspan : 0 < span.size := hpos span List.mem_cons_self
    have hpos : ∀ span ∈ spans, 0 < span.size :=
      fun span hspan => hpos span (List.mem_cons_of_mem _ hspan)
    have hfar := distance_flip_le_farthest marks hpos number
    rw [farthest] at h
    rw [List.zip_cons_cons, List.map_cons, digits, flip_cons, distance, count,
      Nat.mul_comm span.size, ← Nat.div_div_eq_div_mul]
    -- The coordinate along the first axis, and how far it is from the end of the axis.
    generalize hcoordinate : number / count (spans.map Span.size) % span.size = coordinate
    have hlt : coordinate < span.size := hcoordinate ▸ Nat.mod_lt _ hspan
    have hends : (span.size - 1 - coordinate) * span.stride + coordinate * span.stride =
        (span.size - 1) * span.stride := by
      rw [← Nat.add_mul]
      congr 1
      omega
    cases mark with
    | false =>
      rw [Marks.select_true_false,
        countReversed_cons hspan (ih _ htail hpos (by omega)), hcoordinate, steps_eq_ok (by omega)]
      show (do return (← add _ _, _)) = _
      rw [add_eq_ok (by omega), Nat.add_assoc, Nat.add_comm (distance _ _)]
      rfl
    | true =>
      -- The end of the first axis is part of the base for the axes after it.
      rw [Marks.select_cons_self, farthest, ← Nat.add_assoc,
        countReversed_cons hspan (ih _ htail hpos (by omega)), hcoordinate, steps_eq_ok (by omega),
        ← hends, ← Nat.add_assoc, Nat.add_right_comm _ (coordinate * span.stride)]
      show (do return (← subtract _ _, _)) = _
      rw [subtract_eq_ok, Nat.add_assoc]
      rfl

theorem offsetOfReversed_eq_ok {spans : List Span} {marks : List Bool} (number : Nat)
    (hlen : spans.length = marks.length) (hpos : ∀ span ∈ spans, 0 < span.size)
    (h : farthest spans ≤ Word.maxValue) :
    offsetOfReversed (spans.zip marks) (farthest (Marks.select true marks spans)) number =
      .ok (distance spans
        (flip (spans.map Span.size) marks (digits (spans.map Span.size) number))) := by
  have hcount := countReversed_eq_ok 0 number hlen hpos (by omega)
  rw [Nat.zero_add, Nat.zero_add] at hcount
  rw [offsetOfReversed, hcount]
  rfl

end TensorInference.Layout
