import TensorInference.Proofs.Axis.Request

/-!
# Requests at ranks past the signed word

A request is a signed word and a rank is an unsigned one.  They are compared as signed words, so a
rank counts as no more than `maxAxis`, the largest of these.  Up to this rank nothing is lost by it:
a request in bounds means the axis that it names, and the two names of an axis mean the same.

Past this rank every request is in bounds, since no signed word is as large.  One that is not negative
still means itself, but for `maxAxis`, which is refused.  A negative one is counted from `maxAxis` and
not from the rank: it means an axis that stands before the one it names, or none at all if it is the
least word.

* `resolveAxis?_eq_some_iff_min` --- what a request means at any rank.
* `resolvesByName_iff` --- when this is what it names.
-/

namespace TensorInference

variable {rank : Nat} {request : Int}

/-- A request as it can be given, a signed word. -/
def IsSignedWord (request : Int) : Prop :=
  -(maxAxis : Int) - 1 ≤ request ∧ request ≤ maxAxis

instance (request : Int) : Decidable (IsSignedWord request) :=
  inferInstanceAs (Decidable (_ ∧ _))

/-- A request on its own is accepted just when it is in bounds.  Then it means the axis that it
names, and it means the same as the number of this axis, where this can be requested. -/
structure ResolvesByName (rank : Nat) (request : Int) : Prop where
  accepted_iff : (∃ s, AxisSet.ofRequests (some rank) [request] = .ok s) ↔ InBounds rank request
  axes_eq : ∀ s, AxisSet.ofRequests (some rank) [request] = .ok s →
    ∃ axis : Nat, s.axes = [axis] ∧ axis < rank ∧
      (0 ≤ request → (axis : Int) = request) ∧ (request < 0 → (axis : Int) = rank + request)
  alias_eq : InBounds rank request → request < 0 → IsSignedWord (rank + request) →
    AxisSet.ofRequests (some rank) [rank + request] = AxisSet.ofRequests (some rank) [request]

/-! ## What a rank counts as -/

/-- At any rank, a request means what it names at the rank that this rank counts as. -/
theorem resolveAxis?_eq_some_iff_min {axis : Nat} :
    resolveAxis? rank request = some axis ↔
      InBounds (min rank maxAxis) request ∧ axisOf (min rank maxAxis) request = axis := by
  rw [← resolveAxis?_min, resolveAxis?_eq_some_iff_axisOf (Nat.min_le_right rank maxAxis)]

/-- Where the rank is a signed word, or the request is the number of an axis before `maxAxis`, the
bounds of a request do not depend on what the rank counts as. -/
theorem inBounds_min_iff (h : rank ≤ maxAxis ∨ 0 ≤ request ∧ request < maxAxis) :
    InBounds (min rank maxAxis) request ↔ InBounds rank request := by
  unfold InBounds
  omega

theorem axisOf_min (h : rank ≤ maxAxis ∨ 0 ≤ request ∧ request < maxAxis) :
    axisOf (min rank maxAxis) request = axisOf rank request := by
  rw [axisOf, axisOf]
  split
  · rfl
  · rw [Nat.min_eq_left (h.resolve_right fun hfront => by omega)]

/-! ## Single requests -/

namespace AxisSet

/-- A request on its own is accepted when it means an axis, and then it means this axis alone. -/
theorem ofRequests_singleton_eq_ok_iff {s : AxisSet} :
    ofRequests (some rank) [request] = .ok s ↔
      ∃ axis, resolveAxis? rank request = some axis ∧ s = .ofList [axis] := by
  rw [ofRequests_eq_ok_iff, List.forall_mem_singleton, Option.isSome_iff_exists]
  constructor
  · rintro ⟨⟨axis, haxis⟩, rfl⟩
    exact ⟨axis, haxis, by rw [List.filterMap_cons_some haxis, List.filterMap_nil]⟩
  · rintro ⟨axis, haxis, rfl⟩
    exact ⟨⟨axis, haxis⟩, by rw [List.filterMap_cons_some haxis, List.filterMap_nil]⟩

theorem exists_ofRequests_singleton_iff :
    (∃ s, ofRequests (some rank) [request] = .ok s) ↔
      InBounds (min rank maxAxis) request := by
  rw [← isSome_resolveAxis?_iff (Nat.min_le_right rank maxAxis), resolveAxis?_min,
    Option.isSome_iff_exists]
  constructor
  · rintro ⟨s, hs⟩
    obtain ⟨axis, haxis, -⟩ := ofRequests_singleton_eq_ok_iff.1 hs
    exact ⟨axis, haxis⟩
  · rintro ⟨axis, haxis⟩
    exact ⟨_, ofRequests_singleton_eq_ok_iff.2 ⟨axis, haxis, rfl⟩⟩

/-- The name of an axis from the back and its number mean the same. -/
theorem ofRequests_alias_eq (hrank : rank ≤ maxAxis) (hbounds : InBounds rank request)
    (hneg : request < 0) :
    ofRequests (some rank) [rank + request] = ofRequests (some rank) [request] := by
  have hge := hbounds.1
  obtain ⟨axis, haxis⟩ := Int.eq_ofNat_of_zero_le (show 0 ≤ (rank : Int) + request by omega)
  have hlt : axis < rank := by omega
  have hback : resolveAxis? rank request = some axis :=
    (resolveAxis?_eq_some_iff hrank).2 ⟨hlt, Or.inr (by omega)⟩
  have hfront : resolveAxis? rank (rank + request) = some axis :=
    (resolveAxis?_eq_some_iff hrank).2 ⟨hlt, Or.inl haxis⟩
  rw [ofRequests_singleton_eq_ok_iff.2 ⟨axis, hback, rfl⟩]
  exact ofRequests_singleton_eq_ok_iff.2 ⟨axis, hfront, rfl⟩

end AxisSet

/-! ## Main result -/

/-- **A request resolves by its name as long as the rank is a signed word**, and past that just when
it is the number of an axis before `maxAxis`. -/
theorem resolvesByName_iff (hrequest : IsSignedWord request) :
    ResolvesByName rank request ↔ rank ≤ maxAxis ∨ 0 ≤ request ∧ request < maxAxis := by
  constructor
  · intro h
    by_contra hpast
    have hbounds : InBounds rank request := by
      unfold IsSignedWord at hrequest
      unfold InBounds
      omega
    obtain ⟨s, hs⟩ := h.accepted_iff.2 hbounds
    obtain ⟨axis, haxis, -, -, hback⟩ := h.axes_eq s hs
    obtain ⟨axis', hresolved, rfl⟩ := AxisSet.ofRequests_singleton_eq_ok_iff.1 hs
    obtain rfl : axis' = axis := List.singleton_inj.1 haxis
    -- Counted from the back, the request means an axis that is not the one it names.
    obtain ⟨⟨-, hlt⟩, hcounted⟩ := resolveAxis?_eq_some_iff_min.1 hresolved
    rw [axisOf, if_neg (by omega)] at hcounted
    omega
  · intro h
    refine ⟨?_, fun s hs => ?_, fun hbounds hneg _ => ?_⟩
    · rw [AxisSet.exists_ofRequests_singleton_iff, inBounds_min_iff h]
    · obtain ⟨axis, hresolved, rfl⟩ := AxisSet.ofRequests_singleton_eq_ok_iff.1 hs
      obtain ⟨-, hnamed⟩ := resolveAxis?_eq_some_iff_min.1 hresolved
      rw [axisOf_min h, axisOf] at hnamed
      refine ⟨axis, rfl, lt_of_resolveAxis? hresolved, fun hfront => ?_, fun hback => ?_⟩
      · rw [← hnamed, if_pos hfront]
      · rw [← hnamed, if_neg (by omega)]
    · exact AxisSet.ofRequests_alias_eq (h.resolve_right fun hfront => by omega) hbounds hneg

/-- At the largest rank that is a signed word, the request that is farthest back means the first
axis. -/
theorem resolvesByName_first_axis :
    IsSignedWord (-maxAxis) ∧ ResolvesByName maxAxis (-maxAxis) ∧
      AxisSet.ofRequests (some maxAxis) [-(maxAxis : Int)] = .ok (.ofList [0]) :=
  have hrequest : IsSignedWord (-maxAxis) := by decide
  ⟨hrequest, (resolvesByName_iff hrequest).2 (Or.inl (Nat.le_refl _)), rfl⟩

/-- At the first rank that is no signed word, the request for the last axis means the one before it,
the number of the last axis is refused, and so is the request for the first axis from the back. -/
theorem not_resolvesByName_past_maxAxis :
    InBounds (maxAxis + 1) (-1) ∧ axisOf (maxAxis + 1) (-1) = maxAxis ∧
      AxisSet.ofRequests (some (maxAxis + 1)) [-1] = .ok (.ofList [maxAxis - 1]) ∧
      AxisSet.ofRequests (some (maxAxis + 1)) [maxAxis] = .error ⟨[maxAxis], maxAxis + 1⟩ ∧
      AxisSet.ofRequests (some (maxAxis + 1)) [-maxAxis - 1] =
        .error ⟨[-maxAxis - 1], maxAxis + 1⟩ ∧
      ¬ResolvesByName (maxAxis + 1) (-1) := by
  have hresolved : AxisSet.ofRequests (some (maxAxis + 1)) [-1] = .ok (.ofList [maxAxis - 1]) := rfl
  refine ⟨by decide, rfl, hresolved, rfl, rfl, fun h => ?_⟩
  obtain ⟨axis, haxis, -, -, hback⟩ := h.axes_eq _ hresolved
  obtain rfl : maxAxis - 1 = axis := List.singleton_inj.1 haxis
  exact absurd (hback (by decide)) (by decide)

end TensorInference
