import TensorInference.Operator.Basic
import TensorInference.Proofs.Outcome

/-!
# When inference succeeds

Inference is a sequence of checks.  The equations of this file say of each kind of operator which
checks have to pass and what the output is then; nothing that follows opens `Operator.infer` again.

* `infer_binary_eq_ok_iff`, `infer_reduce_eq_ok_iff`, `infer_reverse_eq_ok_iff` --- one for each
  kind, besides `infer_unary_eq_ok_iff`, where nothing but the number of inputs is checked.
-/

namespace TensorInference

theorem Reduction.check_eq_ok_iff {r : Reduction} {t : ElementType} {u : Unit} :
    r.check t = .ok u ↔ r.supports t = true := by
  rw [Reduction.check]
  by_cases h : r.supports t = true
  · simp [h]
  · simp [h]

namespace Operator

theorem singleInput_eq_ok_iff {inputs : List TensorInfo} {info : TensorInfo} :
    singleInput inputs = .ok info ↔ inputs = [info] := by
  rcases inputs with _ | ⟨a, _ | ⟨b, rest⟩⟩
  · simp [singleInput]
  · simp [singleInput]
  · simp [singleInput]

/-! ## Two inputs -/

theorem inferPair_eq_ok_iff {rule : ShapeRule} {a b out : TensorInfo} :
    inferPair rule a b = .ok out ↔
      a.elementType.merge b.elementType = .ok out.elementType ∧
        rule.unify a.shape b.shape = .ok out.shape := by
  simp only [inferPair, Outcome.bind_eq_ok_iff, Outcome.mapError_eq_ok_iff]
  constructor
  · rintro ⟨t, ht, s, hs, hout⟩
    cases hout
    exact ⟨ht, hs⟩
  · rintro ⟨ht, hs⟩
    exact ⟨_, ht, _, hs, rfl⟩

theorem infer_binary_eq_ok_iff {name : String} {rule : ShapeRule} {inputs : List TensorInfo}
    {out : TensorInfo} :
    infer (.binary name rule) inputs = .ok out ↔
      ∃ a b, inputs = [a, b] ∧ inferPair rule a b = .ok out := by
  rcases inputs with _ | ⟨a, _ | ⟨b, _ | ⟨c, rest⟩⟩⟩
  · simp [infer]
  · simp [infer]
  · constructor
    · intro h
      exact ⟨a, b, rfl, h⟩
    · rintro ⟨a', b', hinputs, h⟩
      cases hinputs
      exact h
  · simp [infer]

/-! ## One input -/

theorem infer_unary_eq_ok_iff {name : String} {inputs : List TensorInfo} {out : TensorInfo} :
    infer (.unary name) inputs = .ok out ↔ inputs = [out] :=
  singleInput_eq_ok_iff

theorem inferReduce_eq_ok_iff {r : Reduction} {requests : List Int} {keepDims : Bool}
    {info out : TensorInfo} :
    inferReduce r requests keepDims info = .ok out ↔
      r.supports info.elementType = true ∧
        ∃ axes, AxisSet.ofRequests info.shape.rank? requests = .ok axes ∧
          out = ⟨info.elementType, info.shape.reduce axes keepDims⟩ := by
  simp only [inferReduce, Outcome.bind_eq_ok_iff, Outcome.mapError_eq_ok_iff,
    Reduction.check_eq_ok_iff]
  constructor
  · rintro ⟨-, hsupports, axes, haxes, hout⟩
    cases hout
    exact ⟨hsupports, axes, haxes, rfl⟩
  · rintro ⟨hsupports, axes, haxes, rfl⟩
    exact ⟨(), hsupports, axes, haxes, rfl⟩

theorem infer_reduce_eq_ok_iff {r : Reduction} {requests : List Int} {keepDims : Bool}
    {inputs : List TensorInfo} {out : TensorInfo} :
    infer (.reduce r requests keepDims) inputs = .ok out ↔
      ∃ info, inputs = [info] ∧ inferReduce r requests keepDims info = .ok out := by
  simp only [infer, Outcome.bind_eq_ok_iff, singleInput_eq_ok_iff]

theorem inferReverse_eq_ok_iff {axes : ReversedAxes} {info out : TensorInfo} :
    inferReverse axes info = .ok out ↔
      (∃ chosen, axes.resolve info.shape.rank? = .ok chosen) ∧ out = info := by
  simp only [inferReverse, Outcome.bind_eq_ok_iff]
  constructor
  · rintro ⟨chosen, hchosen, hout⟩
    cases hout
    exact ⟨⟨chosen, hchosen⟩, rfl⟩
  · rintro ⟨⟨chosen, hchosen⟩, rfl⟩
    exact ⟨chosen, hchosen, rfl⟩

theorem infer_reverse_eq_ok_iff {axes : ReversedAxes} {inputs : List TensorInfo}
    {out : TensorInfo} :
    infer (.reverse axes) inputs = .ok out ↔
      ∃ info, inputs = [info] ∧ inferReverse axes info = .ok out := by
  simp only [infer, Outcome.bind_eq_ok_iff, singleInput_eq_ok_iff]

end Operator

end TensorInference
