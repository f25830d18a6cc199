import Mathlib.Data.List.Perm.Basic
import TensorInference.Proofs.Tensor.Element

/-!
# Mirrored indices and rearranged tensors

Reversing axes rearranges a tensor: every index of the result takes its element from another index.
`Index.mirror` says which, in terms of a set of axes, and `Index.flip` says it in terms of marks, which
is what inductions need.  A mirror is its own inverse, so no element is lost and none is taken twice.

`Tensor.rearranged` is the tensor that takes its elements from other indices.  It is read by an index
as the original is by the other index (`get?_rearranged`), and if the indices are exchanged in pairs
its data are the original's in another order (`perm_rearranged`).
-/

namespace TensorInference

namespace Index

/-! ## Mirrored indices -/

/-- An index seen from the other end of the axes in a set. -/
def mirror (axes : AxisSet) (dims index : List Nat) : List Nat :=
  (dims.zip index).mapIdx fun axis (size, coordinate) =>
    if axis ∈ axes.axes then size - 1 - coordinate else coordinate

@[simp] theorem flip_nil (marks : List Bool) (index : List Nat) : flip [] marks index = index := by
  cases marks <;> rfl

@[simp] theorem flip_cons (size coordinate : Nat) (mark : Bool) (dims : List Nat)
    (marks : List Bool) (index : List Nat) :
    flip (size :: dims) (mark :: marks) (coordinate :: index) =
      (if mark then size - 1 - coordinate else coordinate) :: flip dims marks index := rfl

/-- Flipping by marks is going through coordinates and positions. -/
theorem flip_map_range'_eq_mapIdx (p : Nat → Bool) (start : Nat) {dims index : List Nat}
    (h : InRange dims index) :
    flip dims ((List.range' start dims.length).map p) index =
      (dims.zip index).mapIdx fun axis (size, coordinate) =>
        if p (axis + start) then size - 1 - coordinate else coordinate := by
  induction dims generalizing start index with
  | nil =>
    obtain rfl := List.eq_nil_of_length_eq_zero (length_of_inRange h)
    rfl
  | cons size dims ih =>
    cases index with
    | nil => exact h.elim
    | cons coordinate index =>
      rw [List.length_cons, List.range'_succ, List.map_cons, flip_cons, ih (start + 1) h.2,
        List.zip_cons_cons, List.mapIdx_cons, Nat.zero_add]
      congr 2
      funext axis entry
      rw [Nat.add_right_comm, Nat.add_assoc]

theorem flip_marks_eq_mirror (axes : AxisSet) {dims index : List Nat} (h : InRange dims index) :
    flip dims (axes.marks dims.length) index = mirror axes dims index := by
  rw [AxisSet.marks, List.range_eq_range', flip_map_range'_eq_mapIdx axes.contains 0 h, mirror]
  congr 1
  funext axis entry
  simp only [Nat.add_zero, AxisSet.contains_iff_mem]

/-- A map of the indices of a shape that is its own inverse. -/
structure IsInvolution (dims : List Nat) (source : List Nat → List Nat) : Prop where
  inRange : ∀ {index}, InRange dims index → InRange dims (source index)
  source_source : ∀ {index}, InRange dims index → source (source index) = index

theorem isInvolution_flip (dims : List Nat) (marks : List Bool) :
    IsInvolution dims (flip dims marks) := by
  refine ⟨fun {index} h => ?_, fun {index} h => ?_⟩
  · induction dims generalizing marks index with
    | nil => rwa [flip_nil]
    | cons size dims ih =>
      cases marks with
      | nil => exact h
      | cons mark marks =>
        cases index with
        | nil => exact h.elim
        | cons coordinate index =>
          have hlt : coordinate < size := h.1
          refine ⟨?_, ih marks h.2⟩
          split
          · omega
          · exact hlt
  · induction dims generalizing marks index with
    | nil => rw [flip_nil, flip_nil]
    | cons size dims ih =>
      cases marks with
      | nil => rfl
      | cons mark marks =>
        cases index with
        | nil => exact h.elim
        | cons coordinate index =>
          have hlt : coordinate < size := h.1
          rw [flip_cons, flip_cons, ih marks h.2]
          cases mark with
          | false => rfl
          | true =>
            rw [if_pos rfl, if_pos rfl]
            congr 1
            omega

/-- Flipping twice is flipping what is marked one of the two times. -/
theorem flip_flip {dims index : List Nat} (h : InRange dims index) {marks marks' : List Bool}
    (hlen : dims.length = marks.length) (hlen' : dims.length = marks'.length) :
    flip dims marks' (flip dims marks index) = flip dims (List.zipWith xor marks marks') index := by
  induction dims generalizing marks marks' index with
  | nil => rw [flip_nil, flip_nil, flip_nil]
  | cons size dims ih =>
    obtain ⟨mark, marks, rfl⟩ := List.exists_cons_of_length_eq_add_one hlen.symm
    obtain ⟨mark', marks', rfl⟩ := List.exists_cons_of_length_eq_add_one hlen'.symm
    cases index with
    | nil => exact h.elim
    | cons coordinate index =>
      have hlt : coordinate < size := h.1
      have hrest := ih h.2 (Nat.succ.inj hlen) (Nat.succ.inj hlen')
      rw [List.zipWith_cons_cons, flip_cons, flip_cons, flip_cons, hrest]
      congr 1
      cases mark with
      | false => rw [Bool.false_xor, if_neg Bool.false_ne_true]
      | true =>
        cases mark' with
        | false => rfl
        | true =>
          show size - 1 - (size - 1 - coordinate) = coordinate
          omega

/-- Coordinates that are cleared are so wherever the index is seen from: the extents are one where
they are cleared. -/
theorem fill_flip {dims index : List Nat} (h : InRange dims index) {marks : List Bool}
    (hlen : dims.length = marks.length) (flipped : List Bool) :
    Marks.fill 0 marks (flip dims flipped index) =
      flip (Marks.fill 1 marks dims) flipped (Marks.fill 0 marks index) := by
  induction dims generalizing marks flipped index with
  | nil =>
    obtain rfl := List.eq_nil_of_length_eq_zero hlen.symm
    rw [flip_nil]
    exact (flip_nil flipped _).symm
  | cons size dims ih =>
    obtain ⟨mark, marks, rfl⟩ := List.exists_cons_of_length_eq_add_one hlen.symm
    cases index with
    | nil => exact h.elim
    | cons coordinate index =>
      cases flipped with
      | nil => rfl
      | cons mark' flipped =>
        have hrest := ih h.2 (Nat.succ.inj hlen) flipped
        rw [Marks.fill, Marks.fill, flip_cons, flip_cons, Marks.fill, hrest]
        cases mark <;> cases mark' <;> rfl

/-- Seen from the other end of axes of extent one, an index is the same. -/
theorem flip_eq_self {dims index : List Nat} (h : InRange dims index) {flipped : List Bool}
    (hone : ∀ size ∈ Marks.select true flipped dims, size = 1) : flip dims flipped index = index := by
  induction dims generalizing flipped index with
  | nil => rw [flip_nil]
  | cons size dims ih =>
    cases flipped with
    | nil => rfl
    | cons mark flipped =>
      cases index with
      | nil => exact h.elim
      | cons coordinate index =>
        rw [flip_cons]
        cases mark with
        | false =>
          rw [Marks.select_true_false] at hone
          rw [ih h.2 hone]
          rfl
        | true =>
          rw [Marks.select_cons_self, List.forall_mem_cons] at hone
          obtain rfl := hone.1
          obtain rfl : coordinate = 0 := Nat.lt_one_iff.1 h.1
          rw [ih h.2 hone.2]
          rfl

/-! ## All indices -/

theorem nodup_all (dims : List Nat) : (all dims).Nodup := by
  rw [← map_digits_range]
  refine List.Nodup.map_on ?_ List.nodup_range
  intro number hnumber number' hnumber' h
  have hposition := congrArg (position dims) h
  rwa [position_digits, position_digits, Nat.mod_eq_of_lt (List.mem_range.1 hnumber),
    Nat.mod_eq_of_lt (List.mem_range.1 hnumber')] at hposition

/-- A map that exchanges indices in pairs makes a list of the indices that it leads into the list. -/
theorem IsInvolution.perm_map {dims : List Nat} {source : List Nat → List Nat}
    (h : IsInvolution dims source) {l l' : List (List Nat)} (hl : l.Nodup) (hl' : l'.Nodup)
    (hrange : ∀ index ∈ l, InRange dims index) (hrange' : ∀ index ∈ l', InRange dims index)
    (hmem : ∀ index, InRange dims index → (index ∈ l' ↔ source index ∈ l)) :
    (l.map source).Perm l' := by
  have hnodup : (l.map source).Nodup := by
    refine List.Nodup.map_on ?_ hl
    intro index hindex index' hindex' heq
    rw [← h.source_source (hrange index hindex), heq, h.source_source (hrange index' hindex')]
  refine (List.perm_ext_iff_of_nodup hnodup hl').2 fun index => ?_
  rw [List.mem_map]
  constructor
  · rintro ⟨index', hindex', rfl⟩
    have hback := h.source_source (hrange index' hindex')
    exact (hmem _ (h.inRange (hrange index' hindex'))).2 (hback.symm ▸ hindex')
  · intro hindex
    have hin := hrange' index hindex
    exact ⟨source index, (hmem index hin).1 hindex, h.source_source hin⟩

/-- Exchanging indices in pairs leaves the same indices. -/
theorem perm_map_all {dims : List Nat} {source : List Nat → List Nat}
    (h : IsInvolution dims source) : ((all dims).map source).Perm (all dims) := by
  have hrange : ∀ index ∈ all dims, InRange dims index := fun _ => mem_all_iff.1
  refine h.perm_map (nodup_all dims) (nodup_all dims) hrange hrange fun index hindex => ?_
  exact iff_of_true (mem_all_iff.2 hindex) (mem_all_iff.2 (h.inRange hindex))

end Index

namespace Tensor

variable {α : Type} {t : Tensor α} {source : List Nat → List Nat}

/-! ## Elements at indices -/

/-- The element at the position of an index, if there is one. -/
def at? (t : Tensor α) (index : List Nat) : Option α :=
  t.data[Index.position t.shape.dims index]?

theorem at?_isSome (hsize : t.data.size = t.shape.dims.prod) {index : List Nat}
    (hindex : Index.InRange t.shape.dims index) : (t.at? index).isSome := by
  rw [at?, Array.getElem?_eq_getElem (position_lt_size hsize hindex), Option.isSome_some]

/-- Where something is found for every entry, it is found in the entry's place. -/
theorem getElem?_filterMap_of_isSome {β γ : Type} {find : β → Option γ} {l : List β}
    (h : ∀ b ∈ l, (find b).isSome) (i : Nat) : (l.filterMap find)[i]? = l[i]?.bind find := by
  induction l generalizing i with
  | nil => rfl
  | cons b l ih =>
    obtain ⟨c, hc⟩ := Option.isSome_iff_exists.1 (h b List.mem_cons_self)
    rw [List.filterMap_cons_some hc]
    cases i with
    | zero => exact hc.symm
    | succ i => exact ih (fun b hb => h b (List.mem_cons_of_mem _ hb)) i

/-- The data are the elements at all indices, in order. -/
theorem filterMap_at?_all (hsize : t.data.size = t.shape.dims.prod) :
    (Index.all t.shape.dims).filterMap t.at? = t.data.toList := by
  have hcount := count_dims hsize
  refine List.ext_getElem? fun i => ?_
  rw [getElem?_filterMap_of_isSome fun index hindex =>
    at?_isSome hsize (Index.mem_all_iff.1 hindex)]
  by_cases hi : i < t.data.size
  · rw [Index.getElem?_all (hcount ▸ hi), Option.bind_some, at?, Index.position_digits, hcount,
      Nat.mod_eq_of_lt hi, Array.getElem?_toList]
  · have hall : (Index.all t.shape.dims)[i]? = none := by
      rw [List.getElem?_eq_none_iff, Index.length_all]
      omega
    rw [hall, Option.bind_none, Array.getElem?_toList, Array.getElem?_eq_none (by omega)]

/-! ## Rearranged tensors -/

/-- The tensor of the same shape that takes the element at an index from the index `source` gives. -/
def rearranged (t : Tensor α) (source : List Nat → List Nat) : Tensor α :=
  ⟨t.shape, ((Index.all t.shape.dims).filterMap fun index => t.at? (source index)).toArray⟩

theorem at?_source_isSome (hsize : t.data.size = t.shape.dims.prod)
    (h : Index.IsInvolution t.shape.dims source) :
    ∀ index ∈ Index.all t.shape.dims, (t.at? (source index)).isSome :=
  fun _ hindex => at?_isSome hsize (h.inRange (Index.mem_all_iff.1 hindex))

theorem at?_rearranged (hsize : t.data.size = t.shape.dims.prod)
    (h : Index.IsInvolution t.shape.dims source) {index : List Nat}
    (hindex : Index.InRange t.shape.dims index) :
    (t.rearranged source).at? index = t.at? (source index) := by
  show ((Index.all t.shape.dims).filterMap fun index => t.at? (source index)).toArray[
    Index.position t.shape.dims index]? = _
  rw [List.getElem?_toArray, getElem?_filterMap_of_isSome (at?_source_isSome hsize h),
    Index.getElem?_all (Index.position_lt_count hindex), Index.digits_position hindex,
    Option.bind_some]

/-- What is taken from indices that are in range is taken in the same places, whatever the map does
elsewhere. -/
theorem rearranged_congr {source' : List Nat → List Nat}
    (h : ∀ index, Index.InRange t.shape.dims index → source index = source' index) :
    t.rearranged source = t.rearranged source' := by
  rw [rearranged, rearranged]
  congr 2
  refine List.filterMap_congr fun index hindex => ?_
  rw [h index (Index.mem_all_iff.1 hindex)]

theorem rearranged_eq_self (hsize : t.data.size = t.shape.dims.prod)
    (h : ∀ index, Index.InRange t.shape.dims index → source index = index) :
    t.rearranged source = t := by
  have hid : t.rearranged source = t.rearranged id := rearranged_congr h
  rw [hid]
  show (⟨t.shape, ((Index.all t.shape.dims).filterMap t.at?).toArray⟩ : Tensor α) = t
  rw [filterMap_at?_all hsize]

/-- Rearranging twice is rearranging once, by one map after the other. -/
theorem rearranged_rearranged {source' : List Nat → List Nat}
    (hsize : t.data.size = t.shape.dims.prod) (h : Index.IsInvolution t.shape.dims source)
    (h' : Index.IsInvolution t.shape.dims source') :
    (t.rearranged source).rearranged source' =
      t.rearranged fun index => source (source' index) := by
  show (⟨t.shape, ((Index.all t.shape.dims).filterMap fun index =>
    (t.rearranged source).at? (source' index)).toArray⟩ : Tensor α) = _
  rw [rearranged]
  congr 2
  refine List.filterMap_congr fun index hindex => ?_
  exact at?_rearranged hsize h (h'.inRange (Index.mem_all_iff.1 hindex))

/-- Exchanging elements in pairs leaves the same elements. -/
theorem perm_rearranged (hsize : t.data.size = t.shape.dims.prod)
    (h : Index.IsInvolution t.shape.dims source) :
    (t.rearranged source).data.toList.Perm t.data.toList := by
  have hmap : (t.rearranged source).data.toList =
      ((Index.all t.shape.dims).map source).filterMap t.at? := by
    rw [List.filterMap_map]
    rfl
  rw [hmap, ← filterMap_at?_all hsize]
  exact (Index.perm_map_all h).filterMap _

theorem size_rearranged (hsize : t.data.size = t.shape.dims.prod)
    (h : Index.IsInvolution t.shape.dims source) :
    (t.rearranged source).data.size = t.data.size := by
  rw [← Array.length_toList, ← Array.length_toList]
  exact (perm_rearranged hsize h).length_eq

theorem WellSized.rearranged (ht : t.WellSized) (h : Index.IsInvolution t.shape.dims source) :
    (t.rearranged source).WellSized := by
  have hsize := size_rearranged ht.size_eq h
  exact ⟨hsize.trans ht.size_eq, hsize ▸ ht.size_le⟩

/-- Reading by an index is reading the original by the other index. -/
theorem get?_rearranged (ht : t.WellSized) (h : Index.IsInvolution t.shape.dims source)
    {index : List Nat} (hindex : Index.InRange t.shape.dims index) :
    (t.rearranged source).get? index = t.get? (source index) := by
  have hat := at?_rearranged ht.size_eq h hindex
  rw [get?_eq (ht.rearranged h) hindex, get?_eq ht (h.inRange hindex)]
  exact congrArg Except.ok hat

end Tensor

end TensorInference
