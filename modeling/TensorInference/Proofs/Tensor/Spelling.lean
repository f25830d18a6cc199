import TensorInference.Proofs.Axis.Request
import TensorInference.Proofs.Tensor.Symmetry

/-!
# Marked and requested axes

A reversal has its axes from a mask or from a list of requests.  The list spells the mask when it
names the marked axes and no others: in any order, each of them once or more often and, where the
rank is known, from the front or from the back.  Both then resolve to the same set, though a mask is
read off in ascending order and requests are put in order one by one: there is only one ascending list
of the same axes.

Kernel and inference know of the axes only the set that they resolve to, so a mask and a list that
spells it reverse every tensor alike.

* `ofRequests_eq_ofMask_iff`, `Spells.resolve_index` --- the set that requests resolve to.
* `Tensor.reverse_congr`, `Kernel.run_reverse_congr` --- axes that resolve to the same set.
* `Tensor.reverse_mask_eq_reverse_index` --- masks and lists.
-/

namespace TensorInference

/-- A set of axes is determined by its members. -/
theorem AxisSet.eq_of_mem_iff {s s' : AxisSet} (h : ∀ axis, axis ∈ s.axes ↔ axis ∈ s'.axes) :
    s = s' :=
  AxisSet.ext (List.Pairwise.eq_of_mem_iff s.ascending s'.ascending h)

namespace ReversedAxes

/-! ## Spelling -/

variable {rank : Option Nat} {marks : List Bool} {requests : List Int}

/-- A request for an axis is its number or, if the rank is known, its number counted from the
back. -/
def Names (rank : Option Nat) (request : Int) (axis : Nat) : Prop :=
  request = axis ∨ ∃ n ∈ rank, request = axis - (n : Int)

/-- Every request names an axis that is marked, and every axis that is marked is named. -/
structure Spells (rank : Option Nat) (marks : List Bool) (requests : List Int) : Prop where
  marked : ∀ request ∈ requests, ∃ axis, marks[axis]? = some true ∧ Names rank request axis
  named : ∀ axis, marks[axis]? = some true → ∃ request ∈ requests, Names rank request axis

theorem names_none_iff {request : Int} {axis : Nat} : Names none request axis ↔ request = axis := by
  simp [Names]

theorem resolveAxis?_eq_some_iff_names {n axis : Nat} {request : Int} (hn : n ≤ maxAxis)
    (hlt : axis < n) : resolveAxis? n request = some axis ↔ Names (some n) request axis := by
  rw [resolveAxis?_eq_some_iff hn, and_iff_right hlt]
  simp [Names]

/-- The marked axes themselves spell a mask, whatever is known of the rank. -/
theorem spells_axes (rank : Option Nat) (marks : List Bool) :
    Spells rank marks ((AxisSet.ofMask marks).axes.map Int.ofNat) where
  marked request hrequest := by
    obtain ⟨axis, haxis, rfl⟩ := List.mem_map.1 hrequest
    exact ⟨axis, AxisSet.mem_ofMask_iff.1 haxis, Or.inl rfl⟩
  named axis haxis :=
    ⟨axis, List.mem_map_of_mem (AxisSet.mem_ofMask_iff.2 haxis), Or.inl rfl⟩

/-- What is spelled without the rank is spelled at every rank. -/
theorem Spells.of_none (h : Spells none marks requests) (rank : Option Nat) :
    Spells rank marks requests where
  marked request hrequest := by
    obtain ⟨axis, haxis, hnames⟩ := h.marked request hrequest
    exact ⟨axis, haxis, Or.inl (names_none_iff.1 hnames)⟩
  named axis haxis := by
    obtain ⟨request, hrequest, hnames⟩ := h.named axis haxis
    exact ⟨request, hrequest, Or.inl (names_none_iff.1 hnames)⟩

theorem resolve_mask_of_rank (hrank : rank = none ∨ rank = some marks.length) :
    (mask marks).resolve rank = .ok (AxisSet.ofMask marks) := by
  rcases hrank with rfl | rfl
  · rfl
  · exact resolve_mask_eq_ok_iff.2 ⟨rfl, rfl⟩

theorem Spells.ofRequests_none (h : Spells none marks requests) :
    AxisSet.ofRequests none requests = .ok (AxisSet.ofMask marks) := by
  refine congrArg Except.ok (AxisSet.eq_of_mem_iff fun axis => ?_)
  rw [AxisSet.mem_iff_of_ofRequests_none rfl, AxisSet.mem_ofMask_iff]
  constructor
  · intro hrequest
    obtain ⟨axis', haxis', hnames⟩ := h.marked axis hrequest
    rwa [Int.ofNat.inj (names_none_iff.1 hnames)]
  · intro haxis
    obtain ⟨request, hrequest, hnames⟩ := h.named axis haxis
    rwa [← names_none_iff.1 hnames]

/-- At a known rank, no other requests mean the marked axes than those that spell the mask. -/
theorem ofRequests_eq_ofMask_iff (hlen : marks.length ≤ maxAxis) :
    AxisSet.ofRequests (some marks.length) requests = .ok (AxisSet.ofMask marks) ↔
      Spells (some marks.length) marks requests := by
  have hmarked {axis : Nat} (haxis : marks[axis]? = some true) {request : Int} :
      resolveAxis? marks.length request = some axis ↔ Names (some marks.length) request axis :=
    resolveAxis?_eq_some_iff_names hlen (List.getElem?_eq_some_iff.1 haxis).1
  constructor
  · intro h
    have hmem {axis : Nat} : marks[axis]? = some true ↔
        ∃ request ∈ requests, resolveAxis? marks.length request = some axis :=
      AxisSet.mem_ofMask_iff.symm.trans (AxisSet.mem_iff_of_ofRequests h)
    refine ⟨fun request hrequest => ?_, fun axis haxis => ?_⟩
    · have hsome := (AxisSet.ofRequests_eq_ok_iff.1 h).1 request hrequest
      obtain ⟨axis, hresolved⟩ := Option.isSome_iff_exists.1 hsome
      have haxis := hmem.2 ⟨request, hrequest, hresolved⟩
      exact ⟨axis, haxis, (hmarked haxis).1 hresolved⟩
    · obtain ⟨request, hrequest, hresolved⟩ := hmem.1 haxis
      exact ⟨request, hrequest, (hmarked haxis).1 hresolved⟩
  · intro h
    refine AxisSet.ofRequests_eq_ok_iff.2 ⟨fun request hrequest => ?_, ?_⟩
    · obtain ⟨axis, haxis, hnames⟩ := h.marked request hrequest
      rw [(hmarked haxis).2 hnames]
      rfl
    · refine AxisSet.eq_of_mem_iff fun axis => ?_
      rw [AxisSet.mem_ofMask_iff, AxisSet.ofList, Ascending.mem_ofList, List.mem_filterMap]
      constructor
      · intro haxis
        obtain ⟨request, hrequest, hnames⟩ := h.named axis haxis
        exact ⟨request, hrequest, (hmarked haxis).2 hnames⟩
      · rintro ⟨request, hrequest, hresolved⟩
        obtain ⟨axis', haxis', hnames⟩ := h.marked request hrequest
        rw [(hmarked haxis').2 hnames, Option.some_inj] at hresolved
        rwa [← hresolved]

/-- Requests that spell a mask resolve to the axes that it marks. -/
theorem Spells.resolve_index (h : Spells rank marks requests)
    (hrank : rank = none ∨ rank = some marks.length) (hlen : marks.length ≤ maxAxis) :
    (index requests).resolve rank = .ok (AxisSet.ofMask marks) := by
  rw [resolve, Outcome.mapError_eq_ok_iff]
  rcases hrank with rfl | rfl
  · exact h.ofRequests_none
  · exact (ofRequests_eq_ofMask_iff hlen).2 h

end ReversedAxes

/-! ## Reversing -/

section Congruence

variable {α : Type} [Element α] {t : Tensor α} {axes axes' : ReversedAxes}

theorem Operator.infer_reverse_congr
    (h : axes.resolve (some t.rank) = axes'.resolve (some t.rank)) :
    (Operator.reverse axes).infer [t.info] = (Operator.reverse axes').infer [t.info] := by
  have hrank : t.info.shape.rank? = some t.rank := PartialShape.rank?_ofShape t.shape
  show inferReverse axes t.info = inferReverse axes' t.info
  rw [inferReverse, inferReverse, hrank, h]

/-- A reversal depends on its axes only through what they resolve to. -/
theorem Tensor.reverse_congr (h : axes.resolve (some t.rank) = axes'.resolve (some t.rank)) :
    t.reverse axes = t.reverse axes' := by
  rw [reverse, reverse, Operator.infer_reverse_congr h, h]

theorem Kernel.run_reverse_congr (h : axes.resolve (some t.rank) = axes'.resolve (some t.rank)) :
    (Kernel.reverse axes).run t = (Kernel.reverse axes').run t := by
  have hsize : (Kernel.reverse axes).resultSize? t = (Kernel.reverse axes').resultSize? t := by
    rw [resultSize?, resultSize?, operator, operator, Operator.infer_reverse_congr h]
  rw [run, run, hsize, compute, compute, Tensor.reverse_congr h]

end Congruence

/-! ## Main result -/

namespace Tensor

open ReversedAxes

/-- **A mask and a list of its axes mean the same reversal.**  At a rank that is not known, and at
the length of the mask, a mask resolves to the axes that it marks, and so do all requests that name
these axes: in any order, repeated at will and, where the rank is known, counted from either end.  On a
tensor of this rank mask and requests have the same outcome, which is a tensor if the input is
addressable.  The bound on the mask is that of a block with a byte for each entry. -/
theorem reverse_mask_eq_reverse_index {rank : Option Nat} {marks : List Bool}
    (hrank : rank = none ∨ rank = some marks.length) (hlen : marks.length ≤ maxAxis) :
    (mask marks).resolve rank = .ok (AxisSet.ofMask marks) ∧
    (∀ axis, axis ∈ (AxisSet.ofMask marks).axes ↔ marks[axis]? = some true) ∧
    Spells rank marks ((AxisSet.ofMask marks).axes.map Int.ofNat) ∧
    ∀ requests, Spells rank marks requests →
      (index requests).resolve rank = .ok (AxisSet.ofMask marks) ∧
      ∀ {α : Type} [Element α] (t : Tensor α), t.rank = marks.length →
        t.reverse (.mask marks) = t.reverse (.index requests) ∧
        (Kernel.reverse (.mask marks)).run t = (Kernel.reverse (.index requests)).run t ∧
        (t.Addressable → ∃ u, (Kernel.reverse (.mask marks)).Gives t u ∧
          (Kernel.reverse (.index requests)).Gives t u) := by
  refine ⟨resolve_mask_of_rank hrank, fun axis => AxisSet.mem_ofMask_iff, spells_axes rank marks,
    fun requests h => ⟨h.resolve_index hrank hlen, fun {α} _ t ht => ?_⟩⟩
  have hmask : (mask marks).resolve (some t.rank) = .ok (AxisSet.ofMask marks) :=
    resolve_mask_of_rank (.inr (congrArg some ht))
  have hindex : (index requests).resolve (some t.rank) = .ok (AxisSet.ofMask marks) := by
    rw [ht]
    rcases hrank with rfl | rfl
    · exact (h.of_none _).resolve_index (.inr rfl) hlen
    · exact h.resolve_index (.inr rfl) hlen
  have hsame := hmask.trans hindex.symm
  exact ⟨reverse_congr hsame, Kernel.run_reverse_congr hsame,
    fun haddressable => ⟨_, gives_reversed haddressable hmask, gives_reversed haddressable hindex⟩⟩

/-- The outer two of three axes are named, each from both ends, and in no particular order. -/
theorem reverse_mask_eq_reverse_index_aliases :
    (index [-1, 0, -3, 2]).resolve (some 3) = (mask [true, false, true]).resolve (some 3) ∧
      ∃ u, (⟨⟨[2, 1, 2]⟩, #[1, 2, 3, 4]⟩ : Tensor Int32).reverse (.index [-1, 0, -3, 2]) = .ok u ∧
        u = ⟨⟨[2, 1, 2]⟩, #[4, 3, 2, 1]⟩ := by
  have hspells : Spells (some 3) [true, false, true] [-1, 0, -3, 2] := by
    refine ⟨fun request hrequest => ?_, fun axis haxis => ?_⟩
    · simp only [List.mem_cons, List.not_mem_nil, or_false] at hrequest
      rcases hrequest with rfl | rfl | rfl | rfl
      · exact ⟨2, rfl, .inr ⟨3, rfl, rfl⟩⟩
      · exact ⟨0, rfl, .inl rfl⟩
      · exact ⟨0, rfl, .inr ⟨3, rfl, rfl⟩⟩
      · exact ⟨2, rfl, .inl rfl⟩
    · match axis with
      | 0 => exact ⟨0, by decide, .inl rfl⟩
      | 1 => cases haxis
      | 2 => exact ⟨2, by decide, .inl rfl⟩
      | _ + 3 => cases haxis
  have ht : (⟨⟨[2, 1, 2]⟩, #[1, 2, 3, 4]⟩ : Tensor Int32).Addressable := ⟨rfl, by decide⟩
  have hrank : some 3 = none ∨ some 3 = some [true, false, true].length := .inr rfl
  obtain ⟨hmask, -, -, hrequests⟩ := reverse_mask_eq_reverse_index hrank (by decide)
  obtain ⟨hindex, hreverse⟩ := hrequests _ hspells
  obtain ⟨-, -, hgives⟩ := hreverse (⟨⟨[2, 1, 2]⟩, #[1, 2, 3, 4]⟩ : Tensor Int32) rfl
  obtain ⟨u, hu, hu'⟩ := hgives ht
  exact ⟨hindex.trans hmask.symm, u, hu'.compute_eq, (Except.ok.inj hu.compute_eq).symm⟩

end Tensor

end TensorInference
