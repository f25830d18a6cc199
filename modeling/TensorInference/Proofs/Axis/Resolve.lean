import TensorInference.Operator.ReversedAxes
import TensorInference.Proofs.Outcome

/-!
# Resolved axes

What the axes are that a list of requests means at a known rank: those that a request names from the
front or from the back.  A mask means the axes that it marks.

* `AxisSet.ofRequests_eq_ok_iff` --- when the requests are accepted.
* `AxisSet.mem_iff_of_ofRequests`, `AxisSet.mem_iff_of_ofRequests_of_le` --- which axes they mean.
* `ReversedAxes.mem_iff_selects` --- which axes a reversal means, given one way or the other.
-/

namespace TensorInference

/-- A request names an axis from the front, or from the back by a negative number. -/
theorem resolveAxis?_eq_some_iff {rank axis : Nat} {request : Int} (hrank : rank ≤ maxAxis) :
    resolveAxis? rank request = some axis ↔
      axis < rank ∧ (request = axis ∨ request = axis - (rank : Int)) := by
  unfold resolveAxis?
  rw [Nat.min_eq_left hrank]
  dsimp only
  split
  · simp only [reduceCtorEq, false_iff]
    omega
  · split
    · rw [Option.some_inj]
      omega
    · rw [Option.some_inj]
      omega

/-- A rank counts as no more than the largest axis that can be requested. -/
theorem resolveAxis?_min (rank : Nat) : resolveAxis? (min rank maxAxis) = resolveAxis? rank := by
  funext request
  rw [resolveAxis?, resolveAxis?, Nat.min_eq_left (Nat.min_le_right rank maxAxis)]

/-- However large the rank, the axis that a request means is below it. -/
theorem lt_of_resolveAxis? {rank axis : Nat} {request : Int}
    (h : resolveAxis? rank request = some axis) : axis < rank := by
  unfold resolveAxis? at h
  dsimp only at h
  split at h
  · cases h
  · split at h
    · obtain rfl := Option.some.inj h
      omega
    · obtain rfl := Option.some.inj h
      omega

namespace AxisSet

theorem ofRequests_eq_ok_iff {rank : Nat} {requests : List Int} {axes : AxisSet} :
    ofRequests (some rank) requests = .ok axes ↔
      (∀ request ∈ requests, (resolveAxis? rank request).isSome) ∧
        axes = ofList (requests.filterMap (resolveAxis? rank)) := by
  simp only [ofRequests]
  split
  · next h =>
    have hall : ∀ request ∈ requests, (resolveAxis? rank request).isSome := by
      simpa [List.filter_eq_nil_iff, Option.isSome_iff_ne_none] using h
    rw [Except.ok.injEq, eq_comm, iff_and_self]
    exact fun _ => hall
  · next h =>
    simp only [reduceCtorEq, false_iff]
    rintro ⟨hall, -⟩
    apply h
    simpa [List.filter_eq_nil_iff, Option.isSome_iff_ne_none] using hall

theorem mem_iff_of_ofRequests {rank : Nat} {requests : List Int} {axes : AxisSet}
    (h : ofRequests (some rank) requests = .ok axes) {axis : Nat} :
    axis ∈ axes.axes ↔ ∃ request ∈ requests, resolveAxis? rank request = some axis := by
  obtain ⟨-, rfl⟩ := ofRequests_eq_ok_iff.1 h
  rw [ofList, Ascending.mem_ofList, List.mem_filterMap]

/-- The axes that requests mean are those that they name from the front or from the back. -/
theorem mem_iff_of_ofRequests_of_le {rank : Nat} {requests : List Int} {axes : AxisSet}
    (hrank : rank ≤ maxAxis) (h : ofRequests (some rank) requests = .ok axes) {axis : Nat} :
    axis ∈ axes.axes ↔
      axis < rank ∧ ∃ request ∈ requests, request = axis ∨ request = axis - (rank : Int) := by
  simp only [mem_iff_of_ofRequests h, resolveAxis?_eq_some_iff hrank]
  constructor
  · rintro ⟨request, hrequest, hlt, hnamed⟩
    exact ⟨hlt, request, hrequest, hnamed⟩
  · rintro ⟨hlt, request, hrequest, hnamed⟩
    exact ⟨request, hrequest, hlt, hnamed⟩

/-! ## Masks -/

theorem mem_truePositions_iff {start axis : Nat} {mask : List Bool} :
    axis ∈ truePositions start mask ↔ ∃ offset, mask[offset]? = some true ∧ axis = start + offset := by
  induction mask generalizing start with
  | nil => simp [truePositions]
  | cons mark mask ih =>
    have hsplit : (∃ offset, (mark :: mask)[offset]? = some true ∧ axis = start + offset) ↔
        mark = true ∧ axis = start ∨
          ∃ offset, mask[offset]? = some true ∧ axis = start + 1 + offset := by
      constructor
      · rintro ⟨offset, hmark, rfl⟩
        cases offset with
        | zero => exact Or.inl ⟨Option.some.inj hmark, rfl⟩
        | succ offset => exact Or.inr ⟨offset, hmark, by omega⟩
      · rintro (⟨rfl, rfl⟩ | ⟨offset, hmark, rfl⟩)
        · exact ⟨0, rfl, rfl⟩
        · exact ⟨offset + 1, hmark, by omega⟩
    rw [hsplit, ← ih]
    cases mark with
    | false => simp [truePositions]
    | true => simp [truePositions]

theorem mem_ofMask_iff {mask : List Bool} {axis : Nat} :
    axis ∈ (ofMask mask).axes ↔ mask[axis]? = some true := by
  rw [ofMask, mem_truePositions_iff]
  simp only [Nat.zero_add]
  constructor
  · rintro ⟨offset, hmark, rfl⟩
    exact hmark
  · intro hmark
    exact ⟨axis, hmark, rfl⟩

end AxisSet

namespace ReversedAxes

/-- An axis is meant by a request from the front or from the back, or by a mark. -/
def Selects (rank axis : Nat) : ReversedAxes → Prop
  | index requests =>
    axis < rank ∧ ∃ request ∈ requests, request = axis ∨ request = axis - (rank : Int)
  | mask marks => marks[axis]? = some true

/-- A mask is accepted when it has one entry for each axis. -/
theorem resolve_mask_eq_ok_iff {rank : Nat} {marks : List Bool} {chosen : AxisSet} :
    (mask marks).resolve (some rank) = .ok chosen ↔
      rank = marks.length ∧ chosen = AxisSet.ofMask marks := by
  rw [resolve]
  by_cases hlen : rank = marks.length
  · simp [hlen, eq_comm]
  · simp [hlen]

/-- The axes of a reversal are those that it selects. -/
theorem mem_iff_selects {rank : Nat} {axes : ReversedAxes} {chosen : AxisSet}
    (hrank : rank ≤ maxAxis) (h : axes.resolve (some rank) = .ok chosen) {axis : Nat} :
    axis ∈ chosen.axes ↔ axes.Selects rank axis := by
  cases axes with
  | index requests =>
    rw [resolve, Outcome.mapError_eq_ok_iff] at h
    exact AxisSet.mem_iff_of_ofRequests_of_le hrank h
  | mask marks =>
    obtain ⟨-, rfl⟩ := resolve_mask_eq_ok_iff.1 h
    exact AxisSet.mem_ofMask_iff

/-- A reversal means axes of the tensor only. -/
theorem lt_of_resolve {rank : Nat} {axes : ReversedAxes} {chosen : AxisSet}
    (h : axes.resolve (some rank) = .ok chosen) {axis : Nat} (haxis : axis ∈ chosen.axes) :
    axis < rank := by
  cases axes with
  | index requests =>
    rw [resolve, Outcome.mapError_eq_ok_iff] at h
    obtain ⟨request, -, hrequest⟩ := (AxisSet.mem_iff_of_ofRequests h).1 haxis
    exact lt_of_resolveAxis? hrequest
  | mask marks =>
    obtain ⟨rfl, rfl⟩ := resolve_mask_eq_ok_iff.1 h
    exact (List.getElem?_eq_some_iff.1 (AxisSet.mem_ofMask_iff.1 haxis)).1

/-- Whatever axes of a tensor are to be reversed, there is a reversal that means just these. -/
theorem exists_resolve_of_lt {rank : Nat} (p : Nat → Bool) (hp : ∀ axis, p axis = true → axis < rank) :
    ∃ (axes : ReversedAxes) (chosen : AxisSet), axes.resolve (some rank) = .ok chosen ∧
      ∀ axis, axis ∈ chosen.axes ↔ p axis = true := by
  refine ⟨mask ((List.range rank).map p), _, resolve_mask_eq_ok_iff.2 ⟨by simp, rfl⟩, fun axis => ?_⟩
  rw [AxisSet.mem_ofMask_iff, List.getElem?_map, Option.map_eq_some_iff]
  constructor
  · rintro ⟨axis', hrange, hmark⟩
    obtain ⟨hlt, rfl⟩ := List.getElem?_eq_some_iff.1 hrange
    rwa [List.getElem_range] at hmark
  · intro hmark
    exact ⟨axis, List.getElem?_range (hp axis hmark), hmark⟩

end ReversedAxes

end TensorInference
