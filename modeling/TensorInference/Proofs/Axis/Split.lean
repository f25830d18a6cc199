import Mathlib.Data.List.Induction
import Mathlib.Data.List.Sort
import TensorInference.Axis.Set

/-!
# Splitting axes

A set of axes splits the axes of a tensor into those outside it and those in it, and everything that
belongs to the axes, extents, strides and coordinates, splits with them.  `AxisSet.along` lists the
entries on given axes, which is what a reader expects of the two parts; `Marks.select` and
`Marks.weave` go through entries and marks side by side, which is what inductions need.

* `AxisSet.collapse_none_eq`, `AxisSet.restrict_eq` --- the two parts, as the entries along the axes
  outside and in the set.
* `AxisSet.collapse_none_eq_select`, `AxisSet.restrict_eq_select` --- the same two parts by marks.
* `AxisSet.collapse_some_eq`, `AxisSet.collapse_some_eq_fill` --- the entries when the set keeps a
  replacement in place.
-/

namespace TensorInference

variable {β γ : Type}

/-! ## Marks -/

namespace Marks

/-- The entries whose mark is `side`. -/
def select (side : Bool) : List Bool → List β → List β
  | mark :: marks, entry :: entries =>
    if mark = side then entry :: select side marks entries else select side marks entries
  | _, _ => []

/-- Puts entries without a mark and entries with one back in their places. -/
def weave : List Bool → List β → List β → List β
  | false :: marks, entry :: free, marked => entry :: weave marks free marked
  | true :: marks, free, entry :: marked => entry :: weave marks free marked
  | _, _, _ => []

/-- Gives the entries with a mark another value. -/
def fill (value : β) : List Bool → List β → List β
  | mark :: marks, entry :: entries =>
    (if mark then value else entry) :: fill value marks entries
  | _, _ => []

@[simp] theorem select_nil (side : Bool) (marks : List Bool) :
    select side marks ([] : List β) = [] := by
  cases marks <;> rfl

@[simp] theorem select_cons_self (side : Bool) (marks : List Bool) (entry : β) (entries : List β) :
    select side (side :: marks) (entry :: entries) = entry :: select side marks entries :=
  if_pos rfl

@[simp] theorem select_false_true (marks : List Bool) (entry : β) (entries : List β) :
    select false (true :: marks) (entry :: entries) = select false marks entries := rfl

@[simp] theorem select_true_false (marks : List Bool) (entry : β) (entries : List β) :
    select true (false :: marks) (entry :: entries) = select true marks entries := rfl

@[simp] theorem weave_false (marks : List Bool) (entry : β) (free marked : List β) :
    weave (false :: marks) (entry :: free) marked = entry :: weave marks free marked := rfl

@[simp] theorem weave_true (marks : List Bool) (free : List β) (entry : β) (marked : List β) :
    weave (true :: marks) free (entry :: marked) = entry :: weave marks free marked := by
  cases free <;> rfl

theorem length_select (side : Bool) {marks : List Bool} {entries : List β}
    (h : entries.length = marks.length) :
    (select side marks entries).length = marks.count side := by
  induction marks generalizing entries with
  | nil => rfl
  | cons mark marks ih =>
    cases entries with
    | nil => cases h
    | cons entry entries =>
      have hrest := ih (Nat.succ.inj h)
      rw [select, List.count_cons]
      by_cases hmark : mark = side
      · simp [hmark, hrest]
      · simp [hmark, hrest]

theorem length_fill (value : β) {marks : List Bool} {entries : List β}
    (h : entries.length = marks.length) : (fill value marks entries).length = entries.length := by
  induction marks generalizing entries with
  | nil => exact h.symm
  | cons mark marks ih =>
    cases entries with
    | nil => rfl
    | cons entry entries => rw [fill, List.length_cons, List.length_cons, ih (Nat.succ.inj h)]

/-- Filling twice is filling what is marked either time. -/
theorem fill_fill (value : β) {marks marks' : List Bool} (h : marks.length = marks'.length)
    (entries : List β) :
    fill value marks' (fill value marks entries) =
      fill value (List.zipWith or marks marks') entries := by
  induction marks generalizing marks' entries with
  | nil => cases marks' <;> rfl
  | cons mark marks ih =>
    obtain ⟨mark', marks', rfl⟩ := List.exists_cons_of_length_eq_add_one h.symm
    cases entries with
    | nil => rfl
    | cons entry entries =>
      rw [List.zipWith_cons_cons, fill, fill, fill, ih (Nat.succ.inj h)]
      cases mark <;> cases mark' <;> rfl

/-- Selecting twice, the second time by what is left of other marks, is selecting what neither
marks. -/
theorem select_false_select_false {marks marks' : List Bool} (h : marks.length = marks'.length)
    (entries : List β) :
    select false (select false marks marks') (select false marks entries) =
      select false (List.zipWith or marks marks') entries := by
  induction marks generalizing marks' entries with
  | nil => cases marks' <;> rfl
  | cons mark marks ih =>
    obtain ⟨mark', marks', rfl⟩ := List.exists_cons_of_length_eq_add_one h.symm
    have hrest := ih (Nat.succ.inj h)
    cases entries with
    | nil => rw [select_nil, select_nil, select_nil]
    | cons entry entries =>
      rw [List.zipWith_cons_cons]
      cases mark with
      | true =>
        rw [select_false_true, select_false_true, Bool.true_or, select_false_true]
        exact hrest entries
      | false =>
        rw [select_cons_self, select_cons_self, Bool.false_or]
        cases mark' with
        | true =>
          rw [select_false_true, select_false_true]
          exact hrest entries
        | false =>
          rw [select_cons_self, select_cons_self, hrest entries]

/-- The two parts are got back from what was woven of them. -/
theorem select_weave {marks : List Bool} {free marked : List β}
    (hfree : free.length = marks.count false) (hmarked : marked.length = marks.count true) :
    select false marks (weave marks free marked) = free ∧
      select true marks (weave marks free marked) = marked := by
  induction marks generalizing free marked with
  | nil =>
    exact ⟨(List.eq_nil_of_length_eq_zero hfree).symm, (List.eq_nil_of_length_eq_zero hmarked).symm⟩
  | cons mark marks ih =>
    cases mark with
    | false =>
      rw [List.count_cons_self] at hfree
      rw [List.count_cons_of_ne (by decide)] at hmarked
      obtain ⟨entry, free, rfl⟩ := List.exists_cons_of_length_eq_add_one hfree
      obtain ⟨ihfree, ihmarked⟩ := ih (Nat.succ.inj hfree) hmarked
      rw [weave_false, select_cons_self, select_true_false, ihfree, ihmarked]
      exact ⟨rfl, rfl⟩
    | true =>
      rw [List.count_cons_of_ne (by decide)] at hfree
      rw [List.count_cons_self] at hmarked
      obtain ⟨entry, marked, rfl⟩ := List.exists_cons_of_length_eq_add_one hmarked
      obtain ⟨ihfree, ihmarked⟩ := ih hfree (Nat.succ.inj hmarked)
      rw [weave_true, select_cons_self, select_false_true, ihfree, ihmarked]
      exact ⟨rfl, rfl⟩

/-- Entries that are parted are woven back. -/
theorem weave_select {marks : List Bool} {entries : List β} (h : entries.length = marks.length) :
    weave marks (select false marks entries) (select true marks entries) = entries := by
  induction marks generalizing entries with
  | nil => exact (List.eq_nil_of_length_eq_zero h).symm
  | cons mark marks ih =>
    obtain ⟨entry, entries, rfl⟩ := List.exists_cons_of_length_eq_add_one h
    cases mark with
    | false =>
      rw [select_cons_self, select_true_false, weave_false, ih (Nat.succ.inj h)]
    | true =>
      rw [select_cons_self, select_false_true, weave_true, ih (Nat.succ.inj h)]

theorem select_sublist (side : Bool) (marks : List Bool) (entries : List β) :
    (select side marks entries).Sublist entries := by
  induction marks generalizing entries with
  | nil => exact List.nil_sublist _
  | cons mark marks ih =>
    cases entries with
    | nil => exact List.nil_sublist _
    | cons entry entries =>
      rw [select]
      split
      · exact (ih entries).cons_cons entry
      · exact (ih entries).cons entry

theorem map_select (f : β → γ) (side : Bool) (marks : List Bool) (entries : List β) :
    (select side marks entries).map f = select side marks (entries.map f) := by
  induction marks generalizing entries with
  | nil => rfl
  | cons mark marks ih =>
    cases entries with
    | nil => rfl
    | cons entry entries =>
      rw [List.map_cons, select, select]
      split
      · rw [List.map_cons, ih]
      · exact ih entries

/-- Selecting by marks is going through entries and positions. -/
theorem filterMap_zipIdx_eq_select (p : Nat → Bool) (side : Bool) (start : Nat)
    (entries : List β) :
    ((entries.zipIdx start).filterMap fun (entry, axis) =>
        if p axis = side then some entry else none) =
      select side ((List.range' start entries.length).map p) entries := by
  induction entries generalizing start with
  | nil => rfl
  | cons entry entries ih =>
    rw [List.zipIdx_cons, List.length_cons, List.range'_succ, List.map_cons, List.filterMap_cons,
      select, ← ih]
    by_cases hstart : p start = side
    · rw [if_pos hstart]
      simp [hstart]
    · rw [if_neg hstart]
      simp [hstart]

/-- So is filling. -/
theorem filterMap_zipIdx_eq_fill (p : Nat → Bool) (value : β) (start : Nat) (entries : List β) :
    ((entries.zipIdx start).filterMap fun (entry, axis) =>
        if p axis then some value else some entry) =
      fill value ((List.range' start entries.length).map p) entries := by
  induction entries generalizing start with
  | nil => rfl
  | cons entry entries ih =>
    rw [List.zipIdx_cons, List.length_cons, List.range'_succ, List.map_cons, List.filterMap_cons,
      fill, ← ih]
    by_cases hstart : p start = true
    · simp [hstart]
    · simp [hstart]

end Marks

namespace AxisSet

variable {axes : AxisSet}

/-! ## Entries along axes -/

/-- A truth value for each axis: whether it is in the set. -/
def marks (axes : AxisSet) (rank : Nat) : List Bool :=
  (List.range rank).map axes.contains

/-- The axes outside the set, in ascending order. -/
def others (axes : AxisSet) (rank : Nat) : List Nat :=
  (List.range rank).filter (· ∉ axes.axes)

/-- The entries that belong to the given axes. -/
def along (axes : List Nat) (entries : List β) : List β :=
  axes.filterMap (entries[·]?)

@[simp] theorem length_marks (axes : AxisSet) (rank : Nat) : (axes.marks rank).length = rank := by
  simp [marks]

/-- Marks are combined as membership is. -/
theorem zipWith_marks {op : Bool → Bool → Bool} {s s' u : AxisSet}
    (h : ∀ axis, op (s.contains axis) (s'.contains axis) = u.contains axis) (rank : Nat) :
    List.zipWith op (s.marks rank) (s'.marks rank) = u.marks rank := by
  rw [marks, marks, marks, List.zipWith_map, List.zipWith_self]
  exact List.map_congr_left fun axis _ => h axis

/-- The marks of the axes that are in one set or in another. -/
theorem zipWith_or_marks {s s' u : AxisSet}
    (h : ∀ axis, axis ∈ u.axes ↔ axis ∈ s.axes ∨ axis ∈ s'.axes) (rank : Nat) :
    List.zipWith or (s.marks rank) (s'.marks rank) = u.marks rank := by
  refine zipWith_marks (fun axis => ?_) rank
  rw [Bool.eq_iff_iff, Bool.or_eq_true]
  simp only [contains_iff_mem]
  exact (h axis).symm

theorem xor_contains_iff {s s' : AxisSet} {axis : Nat} :
    xor (s.contains axis) (s'.contains axis) = true ↔ Xor (axis ∈ s.axes) (axis ∈ s'.axes) := by
  rw [← contains_iff_mem, ← contains_iff_mem]
  cases s.contains axis <;> cases s'.contains axis <;> simp [Xor]

/-- The marks of the axes that are in one of two sets but not in both. -/
theorem zipWith_xor_marks {s s' u : AxisSet}
    (h : ∀ axis, axis ∈ u.axes ↔ Xor (axis ∈ s.axes) (axis ∈ s'.axes)) (rank : Nat) :
    List.zipWith xor (s.marks rank) (s'.marks rank) = u.marks rank := by
  refine zipWith_marks (fun axis => ?_) rank
  rw [Bool.eq_iff_iff, xor_contains_iff, contains_iff_mem]
  exact (h axis).symm

theorem fill_marks_fill_marks {s s' u : AxisSet}
    (h : ∀ axis, axis ∈ u.axes ↔ axis ∈ s.axes ∨ axis ∈ s'.axes) (rank : Nat) (value : β)
    (entries : List β) :
    Marks.fill value (s'.marks rank) (Marks.fill value (s.marks rank) entries) =
      Marks.fill value (u.marks rank) entries := by
  have hlen : (s.marks rank).length = (s'.marks rank).length := by
    rw [length_marks, length_marks]
  rw [Marks.fill_fill value hlen, zipWith_or_marks h]

theorem collapse_none_eq_select (entries : List β) :
    axes.collapse none entries = Marks.select false (axes.marks entries.length) entries := by
  rw [marks, List.range_eq_range', ← Marks.filterMap_zipIdx_eq_select, collapse]
  congr 1
  funext ⟨entry, axis⟩
  cases h : axes.contains axis with
  | false => simp [h]
  | true => simp [h]

theorem collapse_some_eq_fill (replacement : β) (entries : List β) :
    axes.collapse (some replacement) entries =
      Marks.fill replacement (axes.marks entries.length) entries := by
  rw [marks, List.range_eq_range', ← Marks.filterMap_zipIdx_eq_fill, collapse]

theorem restrict_eq_select (entries : List β) :
    axes.restrict entries = Marks.select true (axes.marks entries.length) entries := by
  rw [marks, List.range_eq_range', ← Marks.filterMap_zipIdx_eq_select, restrict]

/-- Going through entries with their positions is going through positions. -/
theorem filterMap_zipIdx_eq_filterMap_range (f : β × Nat → Option γ) (entries : List β) :
    entries.zipIdx.filterMap f =
      (List.range entries.length).filterMap fun axis =>
        entries[axis]?.bind fun entry => f (entry, axis) := by
  induction entries using List.reverseRecOn with
  | nil => rfl
  | append_singleton entries entry ih =>
    rw [List.zipIdx_append, List.filterMap_append, ih, List.length_append, List.length_singleton,
      List.range_succ, List.filterMap_append]
    congr 1
    · refine List.filterMap_congr fun axis haxis => ?_
      rw [List.getElem?_append_left (List.mem_range.1 haxis)]
    · simp [List.filterMap_cons]

/-- What stays is what lies along the axes outside the set. -/
theorem collapse_none_eq (entries : List β) :
    axes.collapse none entries = along (axes.others entries.length) entries := by
  rw [collapse, filterMap_zipIdx_eq_filterMap_range, along, others, List.filterMap_filter]
  refine List.filterMap_congr fun axis _ => ?_
  by_cases h : axis ∈ axes.axes
  · simp [h]
  · simp [h]

/-- The axes of a set below a rank. -/
theorem filter_range_mem_eq (axes : AxisSet) (rank : Nat) :
    (List.range rank).filter (· ∈ axes.axes) = axes.axes.filter (· < rank) := by
  -- Both lists ascend and have the same members.
  refine List.Pairwise.eq_of_mem_iff (List.pairwise_lt_range.filter _)
    (axes.ascending.filter _) ?_
  intro axis
  simp [and_comm]

/-- What is reduced is what lies along the axes in the set. -/
theorem restrict_eq (entries : List β) : axes.restrict entries = along axes.axes entries := by
  calc axes.restrict entries
      = ((List.range entries.length).filter (· ∈ axes.axes)).filterMap (entries[·]?) := by
        rw [restrict, filterMap_zipIdx_eq_filterMap_range, List.filterMap_filter]
        refine List.filterMap_congr fun axis _ => ?_
        by_cases h : axis ∈ axes.axes
        · simp [h]
        · simp [h]
    _ = (axes.axes.filter (· < entries.length)).filterMap (entries[·]?) := by
        rw [filter_range_mem_eq]
    _ = along axes.axes entries := by
        rw [along, List.filterMap_filter]
        refine List.filterMap_congr fun axis _ => ?_
        by_cases h : axis < entries.length
        · simp [h]
        · simp [h]

theorem collapse_map (f : β → γ) (replacement : Option β) (entries : List β) :
    axes.collapse (replacement.map f) (entries.map f) =
      (axes.collapse replacement entries).map f := by
  rw [collapse, collapse, List.zipIdx_map, List.filterMap_map, List.map_filterMap]
  refine List.filterMap_congr fun ⟨entry, axis⟩ _ => ?_
  by_cases h : axis ∈ axes.axes
  · simp [h]
  · simp [h]

/-- With a replacement, every entry keeps its place. -/
theorem collapse_some_eq (replacement : β) (entries : List β) :
    axes.collapse (some replacement) entries =
      entries.mapIdx fun axis entry => if axis ∈ axes.axes then replacement else entry := by
  rw [collapse, List.mapIdx_eq_zipIdx_map, ← List.filterMap_eq_map]
  refine List.filterMap_congr fun ⟨entry, axis⟩ _ => ?_
  by_cases h : axis ∈ axes.axes
  · simp [h]
  · simp [h]

end AxisSet

end TensorInference
