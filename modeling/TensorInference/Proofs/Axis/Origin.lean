import Mathlib.Data.Set.Card
import TensorInference.Proofs.Axis.Request
import TensorInference.Proofs.Document.Faithful

/-!
# Where axis sets come from

There are many ways to a set of axes, and only the one from a list sorts and drops repetitions.  The
others go this way in the end, or they have an order already: that of counting, or that of a mask from
its front.  Whichever way is taken, the list that is stored ascends strictly and holds what was
supplied, so that everything a set answers can be told from what was supplied.

The order is what a search by halves depends on.  It compares with the entry in the middle, goes on in
one half and never comes back to the other, so in a list out of order it can miss an entry.

* `Ascending.bisect_iff_mem` --- searching an ascending list by halves.
* `AxisSet.Origin` --- what sets are made of, with the axes that it supplies.
* `AxisSet.exists_make?_iff` --- when a set is made.
* `AxisSet.made_exact` --- what the sets are that are made.
-/

namespace TensorInference

/-! ## Searching by halves -/

namespace Ascending

/-- Searches a list by comparing with the entry in the middle and going on in one of the halves. -/
def bisect (n : Nat) (l : List Nat) : Bool :=
  if h : l.length < 2 then l.head? == some n
  else if n < l[l.length / 2] then bisect n (l.take (l.length / 2))
  else bisect n (l.drop (l.length / 2))
termination_by l.length

/-- In an ascending list, what is smaller than an entry can only stand before it, and anything else
only at this entry or behind it. -/
theorem mem_iff_of_pairwise {l : List Nat} (h : l.Pairwise (· < ·)) {half n : Nat}
    (hhalf : half < l.length) :
    n ∈ l ↔ if n < l[half] then n ∈ l.take half else n ∈ l.drop half := by
  have hsplit : (l.take half ++ l.drop half).Pairwise (· < ·) := by rwa [List.take_append_drop]
  obtain ⟨-, hback, hacross⟩ := List.pairwise_append.1 hsplit
  rw [List.drop_eq_getElem_cons hhalf] at hback hacross
  have hmem : n ∈ l ↔ n ∈ l.take half ∨ n ∈ l.drop half := by
    rw [← List.mem_append, List.take_append_drop]
  rw [hmem, List.drop_eq_getElem_cons hhalf]
  split
  · next hlt =>
    refine or_iff_left fun hdrop => ?_
    rcases List.mem_cons.1 hdrop with rfl | hlater
    · exact Nat.lt_irrefl _ hlt
    · exact Nat.lt_asymm hlt ((List.pairwise_cons.1 hback).1 n hlater)
  · next hge =>
    exact or_iff_right fun htake => hge (hacross n htake _ List.mem_cons_self)

/-- The search by halves finds the members of an ascending list. -/
theorem bisect_iff_mem {n : Nat} {l : List Nat} (h : l.Pairwise (· < ·)) :
    bisect n l = true ↔ n ∈ l := by
  fun_induction bisect n l with
  | case1 l hshort =>
    match l, hshort with
    | [], _ => exact iff_of_false Bool.false_ne_true List.not_mem_nil
    | [a], _ =>
      rw [List.head?_cons, beq_iff_eq, Option.some.injEq, List.mem_singleton]
      exact eq_comm
  | case2 l hlong hlt ih =>
    have hhalf : l.length / 2 < l.length := by omega
    rw [mem_iff_of_pairwise h hhalf, if_pos hlt]
    exact ih (h.sublist (List.take_sublist _ _))
  | case3 l hlong hge ih =>
    have hhalf : l.length / 2 < l.length := by omega
    rw [mem_iff_of_pairwise h hhalf, if_neg hge]
    exact ih (h.sublist (List.drop_sublist _ _))

end Ascending

namespace AxisSet

/-! ## What sets are made of -/

/-- What a set of axes is made of. -/
inductive Origin where
  /-- Nothing. -/
  | nothing
  /-- All axes below a rank. -/
  | range (rank : Nat)
  /-- The marks of a mask. -/
  | mask (marks : List Bool)
  /-- Axes in any order, repeated at will. -/
  | entries (axes : List Nat)
  /-- Requests at a rank, which may not be known. -/
  | requested (rank : Option Nat) (requests : List Int)
  /-- The axes argument of a reversal. -/
  | reversal (rank : Option Nat) (axes : ReversedAxes)
  /-- A document with a list of axes. -/
  | document (text : String)
  deriving DecidableEq, Repr

/-- An axis is requested by its number or, where the rank is known, counted from the back. -/
def IsRequested (rank : Option Nat) (requests : List Int) (axis : Nat) : Prop :=
  match rank with
  | none => (axis : Int) ∈ requests
  | some rank => ∃ request ∈ requests, axisOf (min rank maxAxis) request = axis

namespace Origin

/-- The set that is made, unless what it is made of is refused. -/
def make? : Origin → Option AxisSet
  | nothing => some empty
  | range rank => all? rank
  | mask marks => some (ofMask marks)
  | entries axes => some (ofList axes)
  | requested rank requests => (ofRequests rank requests).toOption
  | reversal rank axes => (axes.resolve rank).toOption
  | document text => (Document.read Document.readAxisSet text).toOption

/-- The axes that are supplied. -/
def Supplies : Origin → Nat → Prop
  | nothing, _ => False
  | range rank, axis => axis < rank
  | mask marks, axis => marks[axis]? = some true
  | entries axes, axis => axis ∈ axes
  | requested rank requests, axis => IsRequested rank requests axis
  | reversal rank (.index requests), axis => IsRequested rank requests axis
  | reversal _ (.mask marks), axis => marks[axis]? = some true
  | document text, axis =>
    ∃ axes, Document.read (Document.readList Document.readCount) text = .ok axes ∧ axis ∈ axes

/-- Where something can be refused, it is not: all axes below a rank can be stored, requests lie
within what the rank counts as, a mask is as long as the rank, and a document is a list. -/
def IsAccepted : Origin → Prop
  | nothing | mask _ | entries _ | requested none _ | reversal none _ => True
  | range rank => Storage.holds Storage.entryWidth rank = true
  | requested (some rank) requests | reversal (some rank) (.index requests) =>
    ∀ request ∈ requests, InBounds (min rank maxAxis) request
  | reversal (some rank) (.mask marks) => rank = marks.length
  | document text => ∃ axes, Document.read (Document.readList Document.readCount) text = .ok axes

end Origin

/-! ## What sets are made of requests, masks and documents -/

theorem mem_ofList_iff {axes : List Nat} {axis : Nat} : axis ∈ (ofList axes).axes ↔ axis ∈ axes :=
  Ascending.mem_ofList

/-- Requests mean at a rank what they mean where the rank is what it counts as. -/
theorem ofRequests_min_eq_ok_iff {rank : Nat} {requests : List Int} {s : AxisSet} :
    ofRequests (some (min rank maxAxis)) requests = .ok s ↔
      ofRequests (some rank) requests = .ok s := by
  rw [ofRequests_eq_ok_iff, ofRequests_eq_ok_iff, resolveAxis?_min]

/-- So they are accepted when they are in bounds there. -/
theorem exists_ofRequests_iff_min {rank : Nat} {requests : List Int} :
    (∃ s, ofRequests (some rank) requests = .ok s) ↔
      ∀ request ∈ requests, InBounds (min rank maxAxis) request := by
  rw [← exists_ofRequests_iff (Nat.min_le_right rank maxAxis)]
  simp only [ofRequests_min_eq_ok_iff]

theorem mem_iff_isRequested {rank : Option Nat} {requests : List Int} {s : AxisSet}
    (h : ofRequests rank requests = .ok s) {axis : Nat} :
    axis ∈ s.axes ↔ IsRequested rank requests axis := by
  cases rank with
  | none => exact mem_iff_of_ofRequests_none h
  | some rank =>
    exact mem_iff_axisOf_of_ofRequests (Nat.min_le_right rank maxAxis)
      (ofRequests_min_eq_ok_iff.2 h)

/-- A mask that is not refused means the axes that it marks, at whatever rank. -/
theorem eq_ofMask_of_resolve {rank : Option Nat} {marks : List Bool} {s : AxisSet}
    (h : (ReversedAxes.mask marks).resolve rank = .ok s) : s = ofMask marks := by
  cases rank with
  | none => exact (Except.ok.inj h).symm
  | some rank => exact (ReversedAxes.resolve_mask_eq_ok_iff.1 h).2

/-- A document is read as a set by reading it as a list. -/
theorem read_eq_ok_iff {text : String} {s : AxisSet} :
    Document.read Document.readAxisSet text = .ok s ↔
      ∃ axes, Document.read (Document.readList Document.readCount) text = .ok axes ∧
        ofList axes = s := by
  rw [← Outcome.map_eq_ok_iff, ← Document.read_make]
  rfl

/-! ## Which sets are made -/

/-- All axes below a rank make a set when they can be stored. -/
theorem make?_range {rank : Nat} (h : Storage.holds Storage.entryWidth rank = true) :
    (Origin.range rank).make? = some (all rank) :=
  if_pos h

/-- Whether a set is made does not depend on the errors. -/
theorem exists_make?_iff_ok {α : Type} {origin : Origin} {x : Except α AxisSet}
    (h : origin.make? = x.toOption) : (∃ s, origin.make? = some s) ↔ ∃ s, x = .ok s := by
  simp only [h, Outcome.toOption_eq_some_iff]

/-- A set is made unless something is refused. -/
theorem exists_make?_iff {origin : Origin} :
    (∃ s, origin.make? = some s) ↔ origin.IsAccepted := by
  cases origin with
  | nothing => exact iff_of_true ⟨_, rfl⟩ trivial
  | range rank =>
    constructor
    · rintro ⟨s, h⟩
      exact (Option.ite_none_right_eq_some.1 h).1
    · exact fun h => ⟨all rank, make?_range h⟩
  | mask marks => exact iff_of_true ⟨_, rfl⟩ trivial
  | entries axes => exact iff_of_true ⟨_, rfl⟩ trivial
  | requested rank requests =>
    cases rank with
    | none => exact iff_of_true ⟨_, rfl⟩ trivial
    | some rank => exact (exists_make?_iff_ok rfl).trans exists_ofRequests_iff_min
  | reversal rank axes =>
    rw [exists_make?_iff_ok rfl]
    cases rank with
    | none => cases axes with
      | index requests => exact iff_of_true ⟨_, rfl⟩ trivial
      | mask marks => exact iff_of_true ⟨_, rfl⟩ trivial
    | some rank => cases axes with
      | index requests =>
        simp only [ReversedAxes.resolve, Outcome.mapError_eq_ok_iff]
        exact exists_ofRequests_iff_min
      | mask marks =>
        simp only [ReversedAxes.resolve_mask_eq_ok_iff, exists_and_left, exists_eq, and_true]
        rfl
  | document text =>
    rw [exists_make?_iff_ok rfl]
    simp only [read_eq_ok_iff]
    constructor
    · rintro ⟨-, axes, hread, -⟩
      exact ⟨axes, hread⟩
    · rintro ⟨axes, hread⟩
      exact ⟨_, axes, hread, rfl⟩

/-! ## What sets hold -/

/-- A set has what it is made of. -/
theorem mem_iff_supplies {origin : Origin} {s : AxisSet} (h : origin.make? = some s) {axis : Nat} :
    axis ∈ s.axes ↔ origin.Supplies axis := by
  cases origin with
  | nothing =>
    obtain rfl := Option.some.inj h
    exact List.mem_nil_iff axis
  | range rank =>
    obtain rfl := Option.some.inj (Option.ite_none_right_eq_some.1 h).2
    exact List.mem_range
  | mask marks =>
    obtain rfl := Option.some.inj h
    exact mem_ofMask_iff
  | entries axes =>
    obtain rfl := Option.some.inj h
    exact mem_ofList_iff
  | requested rank requests => exact mem_iff_isRequested (Outcome.toOption_eq_some_iff.1 h)
  | reversal rank axes =>
    have h := Outcome.toOption_eq_some_iff.1 h
    cases axes with
    | index requests => exact mem_iff_isRequested (Outcome.mapError_eq_ok_iff.1 h)
    | mask marks =>
      obtain rfl := eq_ofMask_of_resolve h
      exact mem_ofMask_iff
  | document text =>
    obtain ⟨axes, hread, rfl⟩ := read_eq_ok_iff.1 (Outcome.toOption_eq_some_iff.1 h)
    rw [mem_ofList_iff, Origin.Supplies]
    simp only [hread, Except.ok.injEq, exists_eq_left']

/-- No axis is stored twice. -/
theorem nodup_axes (s : AxisSet) : s.axes.Nodup :=
  s.ascending.imp Nat.ne_of_lt

theorem size_eq_ncard {s : AxisSet} {p : Nat → Prop} (h : ∀ axis, axis ∈ s.axes ↔ p axis) :
    s.size = {axis | p axis}.ncard := by
  have hset : {axis | p axis} = (s.axes.toFinset : Set Nat) := by
    ext axis
    rw [Set.mem_ofPred_eq, Finset.mem_coe, List.mem_toFinset, h]
  rw [hset, Set.ncard_coe_finset, List.toFinset_card_of_nodup s.nodup_axes, size]

/-- **A set of axes is what it was made of**, and in order, whichever way it was made.  It is made
unless something is refused; of all axes below a rank, it is so when they can be stored.  Its list
ascends strictly.  It contains the axes that were supplied and no others, as a search by halves finds
too.  Its size is the number of the axes that were supplied, repetitions apart; its list has each of
these axes once; and two sets are the same just when the same axes were supplied for them. -/
theorem made_exact (origin : Origin) :
    ((∃ s, origin.make? = some s) ↔ origin.IsAccepted) ∧
    (∀ rank, Storage.holds Storage.entryWidth rank = true →
      (Origin.range rank).make? = some (all rank)) ∧
    ∀ s, origin.make? = some s →
      s.axes.Pairwise (· < ·) ∧
        (∀ axis, s.contains axis = true ↔ origin.Supplies axis) ∧
        (∀ axis, Ascending.bisect axis s.axes = s.contains axis) ∧
        s.size = {axis | origin.Supplies axis}.ncard ∧
        (∀ axis, origin.Supplies axis → s.axes.count axis = 1) ∧
        ∀ origin' s', Origin.make? origin' = some s' →
          (s = s' ↔ ∀ axis, origin.Supplies axis ↔ origin'.Supplies axis) := by
  refine ⟨exists_make?_iff, fun rank => make?_range, fun s h => ?_⟩
  have hmem (axis : Nat) : axis ∈ s.axes ↔ origin.Supplies axis := mem_iff_supplies h
  refine ⟨s.ascending, fun axis => contains_iff_mem.trans (hmem axis), fun axis => ?_,
    size_eq_ncard hmem, fun axis haxis => ?_, fun origin' s' h' => ?_⟩
  · rw [Bool.eq_iff_iff, Ascending.bisect_iff_mem s.ascending, contains_iff_mem]
  · exact List.count_eq_one_of_mem s.nodup_axes ((hmem axis).2 haxis)
  · constructor
    · rintro rfl axis
      rw [← hmem axis, mem_iff_supplies h']
    · intro hsame
      refine AxisSet.ext (List.Pairwise.eq_of_mem_iff s.ascending s'.ascending fun axis => ?_)
      rw [hmem axis, hsame axis, mem_iff_supplies h']

/-- Three axes of four are requested, one of them from both ends, and the same three are marked.  All
four make a set too, and it contains what is below four. -/
theorem made_exact_three_and_all_of_four :
    (∃ s, (Origin.requested (some 4) [3, -4, 1, -1]).make? = some s ∧
      s.axes.Pairwise (· < ·) ∧ s.contains 3 = true ∧ Ascending.bisect 3 s.axes = s.contains 3 ∧
      (Origin.mask [true, true, false, true]).make? = some s ∧
      ∀ axis, IsRequested (some 4) [3, -4, 1, -1] axis ↔
        [true, true, false, true][axis]? = some true) ∧
    (Origin.range 4).make? = some (all 4) ∧ ∀ axis, (all 4).contains axis = true ↔ axis < 4 := by
  constructor
  · have hrequested :
        (Origin.requested (some 4) [3, -4, 1, -1]).make? = some (ofList [0, 1, 3]) := by
      decide
    have hmarked : (Origin.mask [true, true, false, true]).make? = some (ofList [0, 1, 3]) := by
      decide
    obtain ⟨-, -, hmade⟩ := made_exact (.requested (some 4) [3, -4, 1, -1])
    obtain ⟨hascending, -, hbisect, -, -, hsame⟩ := hmade _ hrequested
    exact ⟨_, hrequested, hascending, by decide, hbisect 3, hmarked, (hsame _ _ hmarked).1 rfl⟩
  · obtain ⟨-, hrange, hmade⟩ := made_exact (.range 4)
    have hall := hrange 4 (by decide)
    obtain ⟨-, hcontains, -⟩ := hmade _ hall
    exact ⟨hall, hcontains⟩

end AxisSet

end TensorInference
