import Mathlib.Data.List.Forall2
import TensorInference.Proofs.Operator.Inference
import TensorInference.Proofs.Refinement.Shape

/-!
# Finer inputs of an operator

Inference is monotone for refinement.  An operator that accepts its inputs accepts all coarser ones,
and what it infers of those is coarser.  Read backwards, an operator that rejects its inputs rejects
all their refinements, down to those of which everything is known.

Element types and shapes are monotone on their own.  What couples the two sides is the rank: axes
are checked against a rank only when there is one, and a coarser shape has the same rank or none
(`PartialShape.rank?_eq_of_refines`).

* `Operator.exists_infer_of_refines` --- inference is monotone, for every operator.
* `Operator.exists_error_of_refines` --- the same, read backwards.
-/

namespace TensorInference

/-! ## Element types -/

namespace ElementType

/-- The finer type is the coarser one, or the coarser one is not known. -/
def Refines (fine coarse : ElementType) : Prop :=
  coarse = dynamic ∨ fine = coarse

theorem Refines.trans {a b c : ElementType} (hab : a.Refines b) (hbc : b.Refines c) :
    a.Refines c := by
  rcases hbc with rfl | rfl
  · exact Or.inl rfl
  · exact hab

@[simp] theorem merge_dynamic_left (t : ElementType) : dynamic.merge t = .ok t := rfl

@[simp] theorem merge_dynamic_right (t : ElementType) : t.merge dynamic = .ok t := by
  cases t <;> rfl

/-- What two types merge to refines both. -/
theorem refines_of_merge {a b m : ElementType} (h : a.merge b = .ok m) :
    m.Refines a ∧ m.Refines b := by
  by_cases ha : a = dynamic
  · subst ha
    rw [merge_dynamic_left, Except.ok.injEq] at h
    exact ⟨Or.inl rfl, Or.inr h.symm⟩
  · rw [merge, if_neg ha] at h
    by_cases hb : b = dynamic ∨ a = b
    · rw [if_pos hb, Except.ok.injEq] at h
      subst h
      exact ⟨Or.inr rfl, hb⟩
    · rw [if_neg hb] at h
      cases h

/-- Coarser types merge, to a coarser type. -/
theorem exists_merge_of_refines {fine fine' coarse coarse' m : ElementType}
    (h : fine.Refines coarse) (h' : fine'.Refines coarse') (hm : fine.merge fine' = .ok m) :
    ∃ m', coarse.merge coarse' = .ok m' ∧ m.Refines m' := by
  obtain ⟨hleft, hright⟩ := refines_of_merge hm
  rcases h with rfl | rfl
  · exact ⟨coarse', merge_dynamic_left coarse', hright.trans h'⟩
  · rcases h' with rfl | rfl
    · exact ⟨fine, merge_dynamic_right fine, hleft⟩
    · exact ⟨m, hm, Or.inr rfl⟩

end ElementType

/-- A type that is not known passes the check of every reduction. -/
theorem Reduction.supports_of_refines {r : Reduction} {fine coarse : ElementType}
    (h : fine.Refines coarse) (hfine : r.supports fine = true) : r.supports coarse = true := by
  rcases h with rfl | rfl
  · cases r <;> rfl
  · exact hfine

/-! ## Axes -/

/-- Requested axes that are in range stay so when less is known, and mean the same axes unless the
rank is lost. -/
theorem AxisSet.exists_ofRequests_of_refines {fine coarse : PartialShape} {requests : List Int}
    {axes : AxisSet} (h : fine.Refines coarse)
    (haxes : AxisSet.ofRequests fine.rank? requests = .ok axes) :
    ∃ axes', AxisSet.ofRequests coarse.rank? requests = .ok axes' ∧
      (coarse.rank? = none ∨ axes = axes') := by
  rcases PartialShape.rank?_eq_of_refines h with hrank | hrank
  · rw [hrank]
    exact ⟨_, rfl, Or.inl rfl⟩
  · rw [hrank]
    exact ⟨axes, haxes, Or.inr rfl⟩

/-- Axes that can be reversed can be reversed when less is known. -/
theorem ReversedAxes.exists_resolve_of_refines {fine coarse : PartialShape} {axes : ReversedAxes}
    {chosen : AxisSet} (h : fine.Refines coarse) (hchosen : axes.resolve fine.rank? = .ok chosen) :
    ∃ chosen', axes.resolve coarse.rank? = .ok chosen' := by
  rcases PartialShape.rank?_eq_of_refines h with hrank | hrank
  · rw [hrank]
    cases axes with
    | index requests => exact ⟨_, rfl⟩
    | mask marks => exact ⟨_, rfl⟩
  · rw [hrank]
    exact ⟨chosen, hchosen⟩

/-! ## Operators -/

theorem TensorInfo.exists_of_forall₂_singleton {fine : TensorInfo} {coarses : List TensorInfo}
    (h : List.Forall₂ TensorInfo.Refines [fine] coarses) :
    ∃ coarse, fine.Refines coarse ∧ coarses = [coarse] := by
  obtain ⟨coarse, rest, hcoarse, hrest, rfl⟩ := List.forall₂_cons_left_iff.1 h
  obtain rfl := List.forall₂_nil_left_iff.1 hrest
  exact ⟨coarse, hcoarse, rfl⟩

namespace Operator

variable {fine fine' coarse coarse' out : TensorInfo}

theorem exists_unify_of_refines (rule : ShapeRule) {a a' b b' s : PartialShape}
    (h : a.Refines b) (h' : a'.Refines b') (hs : rule.unify a a' = .ok s) :
    ∃ s', rule.unify b b' = .ok s' ∧ s.Refines s' := by
  cases rule with
  | merge => exact PartialShape.exists_merge_of_refines h h' hs
  | broadcast => exact PartialShape.exists_broadcast_of_refines h h' hs

theorem exists_inferPair_of_refines {rule : ShapeRule} (h : fine.Refines coarse)
    (h' : fine'.Refines coarse') (hout : inferPair rule fine fine' = .ok out) :
    ∃ out', inferPair rule coarse coarse' = .ok out' ∧ out.Refines out' := by
  obtain ⟨htype, hshape⟩ := inferPair_eq_ok_iff.1 hout
  obtain ⟨t, ht, htrefines⟩ := ElementType.exists_merge_of_refines h.1 h'.1 htype
  obtain ⟨s, hs, hsrefines⟩ := exists_unify_of_refines rule h.2 h'.2 hshape
  exact ⟨⟨t, s⟩, inferPair_eq_ok_iff.2 ⟨ht, hs⟩, htrefines, hsrefines⟩

theorem exists_inferReduce_of_refines {r : Reduction} {requests : List Int} {keepDims : Bool}
    (h : fine.Refines coarse) (hout : inferReduce r requests keepDims fine = .ok out) :
    ∃ out', inferReduce r requests keepDims coarse = .ok out' ∧ out.Refines out' := by
  obtain ⟨hsupports, axes, haxes, rfl⟩ := inferReduce_eq_ok_iff.1 hout
  obtain ⟨axes', haxes', hsame⟩ := AxisSet.exists_ofRequests_of_refines h.2 haxes
  refine ⟨_, inferReduce_eq_ok_iff.2 ⟨?_, axes', haxes', rfl⟩, h.1, ?_⟩
  · exact Reduction.supports_of_refines h.1 hsupports
  · exact PartialShape.reduce_refines axes axes' keepDims h.2 hsame

theorem exists_inferReverse_of_refines {axes : ReversedAxes} (h : fine.Refines coarse)
    (hout : inferReverse axes fine = .ok out) :
    ∃ out', inferReverse axes coarse = .ok out' ∧ out.Refines out' := by
  obtain ⟨⟨chosen, hchosen⟩, rfl⟩ := inferReverse_eq_ok_iff.1 hout
  obtain ⟨chosen', hchosen'⟩ := ReversedAxes.exists_resolve_of_refines h.2 hchosen
  exact ⟨coarse, inferReverse_eq_ok_iff.2 ⟨⟨chosen', hchosen'⟩, rfl⟩, h⟩

/-- **Inference is monotone.**  What an operator infers of coarser inputs is coarser. -/
theorem exists_infer_of_refines {op : Operator} {fines coarses : List TensorInfo}
    (h : List.Forall₂ TensorInfo.Refines fines coarses) (hout : op.infer fines = .ok out) :
    ∃ out', op.infer coarses = .ok out' ∧ out.Refines out' := by
  cases op with
  | unary name =>
    obtain rfl := infer_unary_eq_ok_iff.1 hout
    obtain ⟨coarse, hcoarse, rfl⟩ := TensorInfo.exists_of_forall₂_singleton h
    exact ⟨coarse, infer_unary_eq_ok_iff.2 rfl, hcoarse⟩
  | binary name rule =>
    obtain ⟨a, b, rfl, hpair⟩ := infer_binary_eq_ok_iff.1 hout
    obtain ⟨a', rest, ha, hrest, rfl⟩ := List.forall₂_cons_left_iff.1 h
    obtain ⟨b', hb, rfl⟩ := TensorInfo.exists_of_forall₂_singleton hrest
    obtain ⟨out', hout', hrefines⟩ := exists_inferPair_of_refines ha hb hpair
    exact ⟨out', infer_binary_eq_ok_iff.2 ⟨a', b', rfl, hout'⟩, hrefines⟩
  | reduce r requests keepDims =>
    obtain ⟨info, rfl, hreduce⟩ := infer_reduce_eq_ok_iff.1 hout
    obtain ⟨info', hinfo, rfl⟩ := TensorInfo.exists_of_forall₂_singleton h
    obtain ⟨out', hout', hrefines⟩ := exists_inferReduce_of_refines hinfo hreduce
    exact ⟨out', infer_reduce_eq_ok_iff.2 ⟨info', rfl, hout'⟩, hrefines⟩
  | reverse axes =>
    obtain ⟨info, rfl, hreverse⟩ := infer_reverse_eq_ok_iff.1 hout
    obtain ⟨info', hinfo, rfl⟩ := TensorInfo.exists_of_forall₂_singleton h
    obtain ⟨out', hout', hrefines⟩ := exists_inferReverse_of_refines hinfo hreverse
    exact ⟨out', infer_reverse_eq_ok_iff.2 ⟨info', rfl, hout'⟩, hrefines⟩

/-- What an operator rejects it rejects in every refinement. -/
theorem exists_error_of_refines {op : Operator} {fines coarses : List TensorInfo} {e : InferError}
    (h : List.Forall₂ TensorInfo.Refines fines coarses) (he : op.infer coarses = .error e) :
    ∃ e', op.infer fines = .error e' := by
  cases hfines : op.infer fines with
  | error e' => exact ⟨e', rfl⟩
  | ok out =>
    obtain ⟨out', hout', -⟩ := exists_infer_of_refines h hfines
    rw [he] at hout'
    cases hout'

end Operator

end TensorInference
