import TensorInference.Proofs.Shape.Description
import TensorInference.Proofs.Tensor.Element
import TensorInference.Tensor.Kernel

/-!
# Running kernels

A kernel is run only if storage holds its result.  Where the computation agrees with inference on the
result, the number of elements is known beforehand, so a run is the computation or stops for want of
storage (`run_eq_of_compute`).

A kernel that takes the result of another does not run if storage does not hold what stands between
the two, even if what comes out in the end is small.  Whatever kernels make of a tensor one after the
other, `runBoth_eq_of_gives` tells their runs from the run of a kernel that makes it at once.
-/

namespace TensorInference.Kernel

variable {α : Type} [Element α] {k : Kernel} {t u : Tensor α}

/-- Inference tells the number of elements of a result that it knows in full. -/
theorem resultSize?_eq_count? (h : k.operator.infer [t.info] = .ok u.info) :
    k.resultSize? t = u.shape.count? := by
  rw [resultSize?, h]
  show (do (← u.info.shape.toShape?).count?) = _
  rw [Tensor.info, PartialShape.toShape?_ofShape]
  rfl

theorem run_eq_of_compute (hinfer : k.operator.infer [t.info] = .ok u.info)
    (hcompute : k.compute t = .ok u) (hu : u.WellSized) :
    k.run t = if Tensor.fits α u.size then .ok u else .error (.stopped .exhausted) := by
  have hcount : u.shape.count? = some u.size :=
    Shape.count?_eq_some_iff.2 ⟨hu.size_eq.symm, hu.size_le⟩
  rw [run, resultSize?_eq_count? hinfer, hcount, hcompute, Option.all_some]

/-- A kernel makes one tensor of another, unless storage does not hold the result. -/
structure Gives (k : Kernel) (t u : Tensor α) : Prop where
  compute_eq : k.compute t = .ok u
  run_eq : k.run t = if Tensor.fits α u.size then .ok u else .error (.stopped .exhausted)

/-! ## Two kernels -/

/-- The result of the second kernel on the result of the first. -/
def runBoth (k k' : Kernel) (t : Tensor α) : Except Failure (Tensor α) :=
  (k.run t).bind k'.run

variable {k' joint : Kernel} {v w : Tensor α}

/-- Two kernels that make together what one makes at once run like that one, unless storage does not
hold what stands between them. -/
theorem runBoth_eq_of_gives (hk : k.Gives t u) (hk' : k'.Gives u w) (hjoint : joint.Gives t w) :
    k.runBoth k' t =
      if Tensor.fits α u.size then joint.run t else .error (.stopped .exhausted) := by
  rw [runBoth, hk.run_eq]
  split
  · rw [hjoint.run_eq, ← hk'.run_eq]
    rfl
  · rfl

/-- So they do just when storage holds what stands between them, or does not hold the end result
either. -/
theorem runBoth_eq_run_iff (hk : k.Gives t u) (hk' : k'.Gives u w) (hjoint : joint.Gives t w) :
    k.runBoth k' t = joint.run t ↔
      (Tensor.fits α w.size = true → Tensor.fits α u.size = true) := by
  rw [runBoth_eq_of_gives hk hk' hjoint, hjoint.run_eq]
  cases Tensor.fits α u.size with
  | true => simp
  | false => cases Tensor.fits α w.size with
    | true => simp
    | false => simp

/-- Kernels that make the same in either order run alike in both just when storage holds what stands
between them in both or in none, or does not hold the end result. -/
theorem runBoth_eq_runBoth_iff (hk : k.Gives t u) (hk' : k'.Gives u w) (hk₂ : k'.Gives t v)
    (hk₂' : k.Gives v w) (hjoint : joint.Gives t w) :
    k.runBoth k' t = k'.runBoth k t ↔
      (Tensor.fits α w.size = true → Tensor.fits α u.size = Tensor.fits α v.size) := by
  rw [runBoth_eq_of_gives hk hk' hjoint, runBoth_eq_of_gives hk₂ hk₂' hjoint, hjoint.run_eq]
  cases Tensor.fits α w.size with
  | false => simp
  | true =>
    cases Tensor.fits α u.size with
    | true => cases Tensor.fits α v.size with
      | true => simp
      | false => simp
    | false => cases Tensor.fits α v.size with
      | true => simp
      | false => simp

end TensorInference.Kernel
