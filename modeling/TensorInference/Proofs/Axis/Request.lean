import Mathlib.Data.List.Sort
import TensorInference.Proofs.Axis.Resolve

/-!
# Requested axes, accepted and refused

At a rank `n` a request is in bounds from `-n` up to `n - 1`, and then it means itself or, when it
is negative, itself added to `n`.  Requests are accepted when all of them are in bounds; otherwise
the error collects those that are not, as they were given, since an axis that is out of bounds has
no other name.

Both lists ascend strictly and so depend on their members only (`Ascending.ofList_congr`).  This is
why the order of the requests and their repetitions make no difference, whichever way it ends.

* `resolveAxis?_eq_some_iff_axisOf`, `resolveAxis?_eq_none_iff` --- one request.
* `ofRequests_eq_error_iff` --- when requests are refused, and with which error.
* `mem_iff_of_ofRequests_none` --- what they mean while the rank is not known.
* `ofRequests_exact` --- all of it together.
-/

namespace TensorInference

/-- A strictly ascending list depends on its members only. -/
theorem Ascending.ofList_congr {α : Type} [LT α] [DecidableLT α]
    [Std.Trichotomous fun a b : α => a < b]
    [Trans (fun a b : α => a < b) (fun a b : α => a < b) (fun a b : α => a < b)]
    [Std.Antisymm fun a b : α => a < b] [Std.Irrefl fun a b : α => a < b] {l l' : List α}
    (h : ∀ a, a ∈ l ↔ a ∈ l') : ofList l = ofList l' := by
  refine List.Pairwise.eq_of_mem_iff (pairwise_ofList l) (pairwise_ofList l') fun a => ?_
  rw [mem_ofList, mem_ofList]
  exact h a

/-! ## One request -/

/-- A request lies between the first axis counted from the back and the last one. -/
def InBounds (rank : Nat) (request : Int) : Prop :=
  -(rank : Int) ≤ request ∧ request < rank

instance (rank : Nat) (request : Int) : Decidable (InBounds rank request) :=
  inferInstanceAs (Decidable (_ ∧ _))

/-- The axis that a request in bounds means, where a negative one counts from the back. -/
def axisOf (rank : Nat) (request : Int) : Int :=
  if 0 ≤ request then request else rank + request

theorem resolveAxis?_eq_some_iff_axisOf {rank axis : Nat} {request : Int} (hrank : rank ≤ maxAxis) :
    resolveAxis? rank request = some axis ↔ InBounds rank request ∧ axisOf rank request = axis := by
  rw [resolveAxis?_eq_some_iff hrank, InBounds, axisOf]
  split
  · omega
  · omega

theorem resolveAxis?_eq_none_iff {rank : Nat} {request : Int} (hrank : rank ≤ maxAxis) :
    resolveAxis? rank request = none ↔ ¬InBounds rank request := by
  constructor
  · intro h hbounds
    have haxis : axisOf rank request = (axisOf rank request).toNat := by
      unfold InBounds at hbounds
      unfold axisOf
      split
      · omega
      · omega
    rw [(resolveAxis?_eq_some_iff_axisOf hrank).2 ⟨hbounds, haxis⟩] at h
    cases h
  · intro hbounds
    cases haxis : resolveAxis? rank request with
    | none => rfl
    | some axis => exact absurd ((resolveAxis?_eq_some_iff_axisOf hrank).1 haxis).1 hbounds

theorem isSome_resolveAxis?_iff {rank : Nat} {request : Int} (hrank : rank ≤ maxAxis) :
    (resolveAxis? rank request).isSome ↔ InBounds rank request := by
  rw [Option.isSome_iff_ne_none, ne_eq, resolveAxis?_eq_none_iff hrank, Decidable.not_not]

namespace AxisSet

/-! ## Many requests -/

/-- Requests are refused for those among them that name no axis. -/
theorem ofRequests_eq_error_iff {rank : Nat} {requests : List Int} {e : AxisRangeError} :
    ofRequests (some rank) requests = .error e ↔
      (∃ request ∈ requests, resolveAxis? rank request = none) ∧
        e = ⟨Ascending.ofList (requests.filter fun request => (resolveAxis? rank request).isNone),
          rank⟩ := by
  have hempty : (requests.filter fun request => (resolveAxis? rank request).isNone).isEmpty ↔
      ¬∃ request ∈ requests, resolveAxis? rank request = none := by
    simp [List.filter_eq_nil_iff]
  simp only [ofRequests]
  split
  · next h =>
    have hnone := hempty.1 h
    simp [hnone]
  · next h =>
    have hsome := Decidable.not_not.1 (mt hempty.2 h)
    rw [Except.error.injEq, eq_comm, iff_and_self]
    exact fun _ => hsome

theorem exists_ofRequests_iff {rank : Nat} {requests : List Int} (hrank : rank ≤ maxAxis) :
    (∃ s, ofRequests (some rank) requests = .ok s) ↔
      ∀ request ∈ requests, InBounds rank request := by
  simp only [ofRequests_eq_ok_iff, isSome_resolveAxis?_iff hrank, exists_and_left, exists_eq,
    and_true]

theorem mem_iff_axisOf_of_ofRequests {rank : Nat} {requests : List Int} {s : AxisSet}
    (hrank : rank ≤ maxAxis) (h : ofRequests (some rank) requests = .ok s) {axis : Nat} :
    axis ∈ s.axes ↔ ∃ request ∈ requests, axisOf rank request = axis := by
  have hbounds := (exists_ofRequests_iff hrank).1 ⟨s, h⟩
  simp only [mem_iff_of_ofRequests h, resolveAxis?_eq_some_iff_axisOf hrank]
  constructor
  · rintro ⟨request, hrequest, -, haxis⟩
    exact ⟨request, hrequest, haxis⟩
  · rintro ⟨request, hrequest, haxis⟩
    exact ⟨request, hrequest, hbounds request hrequest, haxis⟩

/-- Refused requests are reported as they were given. -/
theorem mem_offending_iff_of_ofRequests {rank : Nat} {requests : List Int} {e : AxisRangeError}
    (hrank : rank ≤ maxAxis) (h : ofRequests (some rank) requests = .error e) {request : Int} :
    request ∈ e.offending ↔ request ∈ requests ∧ ¬InBounds rank request := by
  obtain ⟨-, rfl⟩ := ofRequests_eq_error_iff.1 h
  rw [Ascending.mem_ofList, List.mem_filter, Option.isNone_iff_eq_none,
    resolveAxis?_eq_none_iff hrank]

/-- While the rank is not known, requests that are not negative mean themselves. -/
theorem mem_iff_of_ofRequests_none {requests : List Int} {s : AxisSet}
    (h : ofRequests none requests = .ok s) {axis : Nat} :
    axis ∈ s.axes ↔ (axis : Int) ∈ requests := by
  obtain rfl := Except.ok.inj h
  rw [ofList, Ascending.mem_ofList, List.mem_filterMap]
  constructor
  · rintro ⟨request, hrequest, haxis⟩
    rwa [← Int.mem_toNat?.1 haxis]
  · intro haxis
    exact ⟨axis, haxis, Int.mem_toNat?.2 rfl⟩

/-- The answer depends on what is requested, not on how often or in which order. -/
theorem ofRequests_congr (rank : Option Nat) {requests requests' : List Int}
    (h : ∀ request, request ∈ requests ↔ request ∈ requests') :
    ofRequests rank requests = ofRequests rank requests' := by
  have hset (find : Int → Option Nat) :
      ofList (requests.filterMap find) = ofList (requests'.filterMap find) := by
    refine AxisSet.ext (Ascending.ofList_congr fun axis => ?_)
    simp only [List.mem_filterMap, h]
  have hoffending (bad : Int → Bool) :
      Ascending.ofList (requests.filter bad) = Ascending.ofList (requests'.filter bad) := by
    refine Ascending.ofList_congr fun request => ?_
    rw [List.mem_filter, List.mem_filter, h]
  have hempty (bad : Int → Bool) :
      (requests.filter bad).isEmpty = (requests'.filter bad).isEmpty := by
    rw [Bool.eq_iff_iff]
    simp only [List.isEmpty_iff, List.filter_eq_nil_iff, h]
  cases rank with
  | none => rw [ofRequests, ofRequests, hset]
  | some rank => simp only [ofRequests, hset, hoffending, hempty]

/-- **Requests are judged exactly.**  They are accepted just when all of them are in bounds, and
then they mean the axes that they name from the front or from the back.  Otherwise the error has the
rank and the requests that are out of bounds.  While the rank is not known, all requests are
accepted, those that are not negative mean themselves, and no rank at which they are accepted takes
back any of them.  In all cases the axes and the offending requests ascend strictly, and nothing
depends on the order of the requests or on their repetitions. -/
theorem ofRequests_exact {rank : Nat} (hrank : rank ≤ maxAxis) (requests : List Int) :
    ((∃ s, ofRequests (some rank) requests = .ok s) ↔
      ∀ request ∈ requests, InBounds rank request) ∧
    (∀ s, ofRequests (some rank) requests = .ok s → s.axes.Pairwise (· < ·) ∧
      ∀ axis : Nat, axis ∈ s.axes ↔ ∃ request ∈ requests, axisOf rank request = axis) ∧
    ((¬∀ request ∈ requests, InBounds rank request) →
      ∃ e, ofRequests (some rank) requests = .error e ∧ e.rank = rank ∧
        e.offending.Pairwise (· < ·) ∧
        ∀ request, request ∈ e.offending ↔ request ∈ requests ∧ ¬InBounds rank request) ∧
    (∃ s, ofRequests none requests = .ok s ∧ s.axes.Pairwise (· < ·) ∧
      (∀ axis : Nat, axis ∈ s.axes ↔ (axis : Int) ∈ requests) ∧
      ∀ s', ofRequests (some rank) requests = .ok s' → ∀ axis ∈ s.axes, axis ∈ s'.axes) ∧
    ∀ requests', (∀ request, request ∈ requests ↔ request ∈ requests') →
      ofRequests (some rank) requests = ofRequests (some rank) requests' ∧
        ofRequests none requests = ofRequests none requests' := by
  refine ⟨exists_ofRequests_iff hrank, ?_, ?_, ?_, ?_⟩
  · intro s hs
    exact ⟨s.ascending, fun axis => mem_iff_axisOf_of_ofRequests hrank hs⟩
  · intro hbad
    cases hs : ofRequests (some rank) requests with
    | ok s => exact absurd ((exists_ofRequests_iff hrank).1 ⟨s, hs⟩) hbad
    | error e =>
      obtain ⟨-, he⟩ := ofRequests_eq_error_iff.1 hs
      refine ⟨e, rfl, ?_, ?_, fun request => mem_offending_iff_of_ofRequests hrank hs⟩
      · rw [he]
      · rw [he]
        exact Ascending.pairwise_ofList _
  · refine ⟨_, rfl, AxisSet.ascending _, fun axis => mem_iff_of_ofRequests_none rfl, ?_⟩
    intro s' hs' axis haxis
    have hrequest := (mem_iff_of_ofRequests_none rfl).1 haxis
    refine (mem_iff_axisOf_of_ofRequests hrank hs').2 ⟨axis, hrequest, ?_⟩
    exact if_pos (Int.natCast_nonneg axis)
  · intro requests' h
    exact ⟨ofRequests_congr _ h, ofRequests_congr _ h⟩

/-- Two names of one axis are one axis; requests that are out of bounds are reported once each. -/
theorem ofRequests_exact_aliases :
    (∃ s, ofRequests (some 3) [2, -3, -1, 2] = .ok s ∧ s.axes = [0, 2]) ∧
      ∃ e, ofRequests (some 3) [5, -1, -4, 2, 5] = .error e ∧ e.offending = [-4, 5] := by
  have hrank : 3 ≤ maxAxis := by decide
  obtain ⟨s, hs⟩ := (ofRequests_exact hrank [2, -3, -1, 2]).1.2 (by decide)
  obtain ⟨e, he, -⟩ := (ofRequests_exact hrank [5, -1, -4, 2, 5]).2.2.1 (by decide)
  exact ⟨⟨s, hs, (congrArg AxisSet.axes (Except.ok.inj hs)).symm⟩,
    e, he, (congrArg AxisRangeError.offending (Except.error.inj he)).symm⟩

end AxisSet

end TensorInference
