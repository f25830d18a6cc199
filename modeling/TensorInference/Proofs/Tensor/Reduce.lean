import TensorInference.Proofs.Axis.Resolve
import TensorInference.Proofs.Operator.Inference
import TensorInference.Proofs.Tensor.Fold
import TensorInference.Proofs.Tensor.Kernel

/-!
# What a reduction computes

The tensor that a reduction along given axes should give is `folded`: its shape is the reduced shape,
its elements are the folds of the lanes.  The kernel gives it whenever inference accepts the
reduction and the tensor can be traversed along the axes; that an addressable tensor can be is
`Addressable.traversable`.

* `reduce_eq_ok`, `reduce_eq_rejected`, `reduce_eq_overflow` --- the three ways in which a reduction
  ends.
* `reduce_correct` --- a reduction computes the folds of the lanes.
* `reduce_total` --- a reduction fails as inference does, and besides that only where counting runs
  over.
-/

namespace TensorInference

/-- Reducing what is known in full is knowing in full what is reduced. -/
theorem PartialShape.reduce_ofShape (s : Shape) (axes : AxisSet) (keepDims : Bool) :
    (ofShape s).reduce axes keepDims = ofShape (s.reduce axes keepDims) := by
  rw [ofShape, ofShape, reduce, Shape.reduce, ← AxisSet.collapse_map]
  cases keepDims <;> rfl

namespace Tensor

variable {α : Type} {t : Tensor α} {axes : AxisSet} {keepDims : Bool}

/-! ## The folded tensor -/

/-- The tensor of the folds of all lanes. -/
def folded (t : Tensor α) (c : Combiner α) (axes : AxisSet) (keepDims : Bool) : Tensor α :=
  ⟨t.shape.reduce axes keepDims,
    ((Index.all (t.keptDims axes)).map fun free =>
      c.fold ((t.lane axes free).map Prod.snd)).toArray⟩

/-- The coordinates of an index of the result along the axes that stay. -/
def freeIndex (t : Tensor α) (axes : AxisSet) (keepDims : Bool) (index : List Nat) : List Nat :=
  if keepDims then AxisSet.along (axes.others t.rank) index else index

theorem dims_folded (c : Combiner α) :
    (t.folded c axes keepDims).shape.dims =
      if keepDims then Marks.fill 1 (axes.marks t.rank) t.shape.dims else t.keptDims axes := by
  rw [folded, Shape.reduce]
  cases keepDims with
  | false => exact AxisSet.collapse_none_eq t.shape.dims
  | true => exact AxisSet.collapse_some_eq_fill 1 t.shape.dims

theorem count_dims_folded (c : Combiner α) :
    Index.count (t.folded c axes keepDims).shape.dims = Index.count (t.keptDims axes) := by
  rw [dims_folded]
  cases keepDims with
  | false => rfl
  | true => rw [if_pos rfl, Index.count_fill (length_dims_eq_length_marks t axes),
      keptDims_eq_select]

theorem size_folded (c : Combiner α) :
    (t.folded c axes keepDims).data.size = (t.folded c axes keepDims).shape.dims.prod := by
  rw [← Index.count_eq_prod, count_dims_folded, folded, List.size_toArray, List.length_map,
    Index.length_all]

theorem wellSized_folded (c : Combiner α) (h : t.Traversable axes) :
    (t.folded c axes keepDims).WellSized := by
  refine ⟨size_folded c, ?_⟩
  have hwhole := h.kept_runs (t.keptDims axes).length
  rw [size_folded, ← Index.count_eq_prod, count_dims_folded, Index.count_eq_prod]
  rwa [List.take_length] at hwhole

/-- An index of the result says where its lane is and where its element stands. -/
theorem inRange_freeIndex (c : Combiner α) {index : List Nat}
    (h : Index.InRange (t.folded c axes keepDims).shape.dims index) :
    Index.InRange (t.keptDims axes) (t.freeIndex axes keepDims index) ∧
      Index.position (t.folded c axes keepDims).shape.dims index =
        Index.position (t.keptDims axes) (t.freeIndex axes keepDims index) := by
  rw [dims_folded] at h ⊢
  cases keepDims with
  | false => exact ⟨h, rfl⟩
  | true =>
    have hlen := length_dims_eq_length_marks t axes
    rw [if_pos rfl] at h ⊢
    have hrank : index.length = t.rank := by
      rw [Index.length_of_inRange h, Marks.length_fill 1 hlen]
      rfl
    rw [freeIndex, if_pos rfl, along_others_eq_select hrank, keptDims_eq_select]
    exact ⟨Index.inRange_select_of_fill hlen h, Index.position_fill hlen h⟩

/-- Every element of the result is the fold of its lane. -/
theorem get?_folded (c : Combiner α) (h : t.Traversable axes) {index : List Nat}
    (hindex : Index.InRange (t.folded c axes keepDims).shape.dims index) :
    (t.folded c axes keepDims).get? index =
      .ok (some (c.fold ((t.lane axes (t.freeIndex axes keepDims index)).map Prod.snd))) := by
  obtain ⟨hfree, hposition⟩ := inRange_freeIndex c hindex
  have hall := Index.getElem?_all (Index.position_lt_count hfree)
  rw [get?_eq (wellSized_folded c h) hindex, hposition, folded,
    List.getElem?_toArray, List.getElem?_map, hall, Index.digits_position hfree, Option.map_some]

/-! ## The specification -/

/-- A tensor is the reduction of another along some axes, combined in some way. -/
structure IsReduction (t u : Tensor α) (c : Combiner α) (axes : AxisSet) (keepDims : Bool) :
    Prop where
  /-- The reduced axes are dropped, or keep an extent of one. -/
  dims_eq : u.shape.dims =
    if keepDims then t.shape.dims.mapIdx fun axis size => if axis ∈ axes.axes then 1 else size
    else AxisSet.along (axes.others t.rank) t.shape.dims
  /-- Every element is the fold of the entries that agree with it along the axes that stay. -/
  get?_eq : ∀ index, Index.InRange u.shape.dims index →
    u.get? index =
      .ok (some (c.fold ((t.lane axes (t.freeIndex axes keepDims index)).map Prod.snd)))
  /-- These entries come in row-major order of their coordinates along the reduced axes. -/
  lane_order : ∀ index, Index.InRange u.shape.dims index →
    (t.lane axes (t.freeIndex axes keepDims index)).map
        (fun entry => AxisSet.along axes.axes entry.1) =
      Index.all (AxisSet.along axes.axes t.shape.dims)

theorem isReduction_folded (c : Combiner α) (ht : t.WellSized) (h : t.Traversable axes) :
    t.IsReduction (t.folded c axes keepDims) c axes keepDims where
  dims_eq := by
    cases keepDims with
    | false => exact AxisSet.collapse_none_eq t.shape.dims
    | true => exact AxisSet.collapse_some_eq 1 t.shape.dims
  get?_eq _ hindex := get?_folded c h hindex
  lane_order _ hindex := map_along_lane ht.size_eq (inRange_freeIndex c hindex).1

variable [Element α] {r : Reduction} {requests : List Int}

/-! ## Inference -/

theorem infer_reduce_eq_ok_iff {info : TensorInfo} :
    (Operator.reduce r requests keepDims).infer [t.info] = .ok info ↔
      r.supports (Element.elementType α) = true ∧
        ∃ axes, AxisSet.ofRequests (some t.rank) requests = .ok axes ∧
          info = ⟨Element.elementType α, .ofShape (t.shape.reduce axes keepDims)⟩ := by
  rw [Operator.infer_reduce_eq_ok_iff]
  have hrank : t.info.shape.rank? = some t.rank := PartialShape.rank?_ofShape t.shape
  constructor
  · rintro ⟨info', hinfo', hreduce⟩
    obtain rfl := List.singleton_inj.1 hinfo'
    obtain ⟨hsupports, axes, haxes, rfl⟩ := Operator.inferReduce_eq_ok_iff.1 hreduce
    rw [hrank] at haxes
    refine ⟨hsupports, axes, haxes, ?_⟩
    rw [info, PartialShape.reduce_ofShape]
  · rintro ⟨hsupports, axes, haxes, rfl⟩
    refine ⟨t.info, rfl, Operator.inferReduce_eq_ok_iff.2 ⟨hsupports, axes, ?_, ?_⟩⟩
    · rw [hrank]
      exact haxes
    · rw [info, PartialShape.reduce_ofShape]

/-- A reduction that a type supports has a combiner for it. -/
theorem exists_combiner_of_supports (h : r.supports (Element.elementType α) = true) :
    ∃ c : Combiner α, Element.combiner? r = some c := by
  rw [← Element.combiner?_isSome (α := α) r] at h
  exact Option.isSome_iff_exists.1 h

/-! ## The three outcomes -/

theorem reduce_eq_rejected {e : InferError}
    (h : (Operator.reduce r requests keepDims).infer [t.info] = .error e) :
    t.reduce r requests keepDims = .error (.rejected e) := by
  rw [reduce, h]
  rfl

/-- After inference nothing but the lanes decides. -/
theorem reduce_eq_foldLanes {info : TensorInfo} {c : Combiner α}
    (hinfer : (Operator.reduce r requests keepDims).infer [t.info] = .ok info)
    (haxes : AxisSet.ofRequests (some t.rank) requests = .ok axes)
    (hc : Element.combiner? r = some c) :
    t.reduce r requests keepDims = (do
      return ⟨t.shape.reduce axes keepDims, ← (t.foldLanes c axes).mapError .stopped⟩) := by
  rw [reduce, hinfer, haxes, hc]
  rfl

theorem reduce_eq_ok {info : TensorInfo} {c : Combiner α}
    (ht : t.WellSized)
    (hinfer : (Operator.reduce r requests keepDims).infer [t.info] = .ok info)
    (haxes : AxisSet.ofRequests (some t.rank) requests = .ok axes)
    (hc : Element.combiner? r = some c) (h : t.Traversable axes) :
    t.reduce r requests keepDims = .ok (t.folded c axes keepDims) := by
  rw [reduce_eq_foldLanes hinfer haxes hc, foldLanes_eq_ok c ht h]
  rfl

theorem reduce_eq_overflow {info : TensorInfo} {c : Combiner α}
    (ht : t.WellSized)
    (hinfer : (Operator.reduce r requests keepDims).infer [t.info] = .ok info)
    (haxes : AxisSet.ofRequests (some t.rank) requests = .ok axes)
    (hc : Element.combiner? r = some c) (h : ¬t.Traversable axes) :
    t.reduce r requests keepDims = .error (.stopped .overflow) := by
  rw [reduce_eq_foldLanes hinfer haxes hc, foldLanes_eq_error c ht h]
  rfl

/-- After inference a reduction is not rejected: it completes or runs over. -/
theorem reduce_ne_rejected {info : TensorInfo} (ht : t.WellSized)
    (hinfer : (Operator.reduce r requests keepDims).infer [t.info] = .ok info) (e : InferError) :
    t.reduce r requests keepDims ≠ .error (.rejected e) := by
  obtain ⟨hsupports, axes, haxes, rfl⟩ := infer_reduce_eq_ok_iff.1 hinfer
  obtain ⟨c, hc⟩ := exists_combiner_of_supports hsupports
  by_cases h : t.Traversable axes
  · rw [reduce_eq_ok ht hinfer haxes hc h]
    exact nofun
  · rw [reduce_eq_overflow ht hinfer haxes hc h]
    exact nofun

theorem info_folded (c : Combiner α) :
    (t.folded c axes keepDims).info =
      ⟨Element.elementType α, .ofShape (t.shape.reduce axes keepDims)⟩ := rfl

/-! ## Main results -/

/-- **A reduction computes the folds of the lanes.**  On a tensor that is addressable, whatever
inference accepts is computed, unless storage does not hold it: the result has the reduced axes
dropped or at extent one, each of its elements is the left fold, from the identity, of the elements
that agree with it along the other axes, in row-major order, and its data are the same whether the
reduced axes are dropped or not. -/
theorem reduce_correct {info : TensorInfo} (ht : t.Addressable)
    (hinfer : (Operator.reduce r requests keepDims).infer [t.info] = .ok info) :
    ∃ axes c u,
      (AxisSet.ofRequests (some t.rank) requests = .ok axes ∧
        (t.rank ≤ maxAxis → ∀ axis, axis ∈ axes.axes ↔ axis < t.rank ∧
          ∃ request ∈ requests, request = axis ∨ request = axis - (t.rank : Int))) ∧
      Element.combiner? r = some c ∧
      (t.reduce r requests keepDims = .ok u ∧
        (Kernel.reduce r requests keepDims).run t =
          if fits α u.size then .ok u else .error (.stopped .exhausted)) ∧
      t.IsReduction u c axes keepDims ∧
      ∃ v, t.reduce r requests (!keepDims) = .ok v ∧ v.data = u.data := by
  obtain ⟨hsupports, axes, haxes, rfl⟩ := infer_reduce_eq_ok_iff.1 hinfer
  obtain ⟨c, hc⟩ := exists_combiner_of_supports hsupports
  have htraversable := ht.traversable axes
  have hreduce := reduce_eq_ok ht.wellSized hinfer haxes hc htraversable
  have hother : (Operator.reduce r requests (!keepDims)).infer [t.info] =
      .ok ⟨Element.elementType α, .ofShape (t.shape.reduce axes (!keepDims))⟩ :=
    infer_reduce_eq_ok_iff.2 ⟨hsupports, axes, haxes, rfl⟩
  refine ⟨axes, c, t.folded c axes keepDims, ⟨haxes, ?_⟩, hc, ⟨hreduce, ?_⟩, ?_, ?_⟩
  · intro hrank axis
    exact AxisSet.mem_iff_of_ofRequests_of_le hrank haxes
  · exact Kernel.run_eq_of_compute hinfer hreduce (wellSized_folded c htraversable)
  · exact isReduction_folded c ht.wellSized htraversable
  · exact ⟨_, reduce_eq_ok ht.wellSized hother haxes hc htraversable, rfl⟩

/-- Every row of a matrix is added up, and the matrix keeps both axes. -/
theorem reduce_correct_row_sums :
    ∃ u, (⟨⟨[2, 3]⟩, #[1, 2, 3, 4, 5, 6]⟩ : Tensor Int32).reduce .sum [-1] true = .ok u ∧
      u.shape.dims = [2, 1] ∧ u.get? [1, 0] = .ok (some 15) := by
  have ht : (⟨⟨[2, 3]⟩, #[1, 2, 3, 4, 5, 6]⟩ : Tensor Int32).Addressable := ⟨rfl, by decide⟩
  have hinfer : (Operator.reduce .sum [-1] true).infer
      [(⟨⟨[2, 3]⟩, #[1, 2, 3, 4, 5, 6]⟩ : Tensor Int32).info] =
        .ok ⟨.i32, .ofShape ⟨[2, 1]⟩⟩ := rfl
  obtain ⟨axes, c, u, ⟨haxes, -⟩, hc, ⟨hreduce, -⟩, hspec, -⟩ := reduce_correct ht hinfer
  obtain rfl : AxisSet.ofList [1] = axes := Except.ok.inj haxes
  obtain rfl : ⟨0, fun held value => held + value⟩ = c := Option.some.inj hc
  have hdims : u.shape.dims = [2, 1] := hspec.dims_eq
  refine ⟨u, hreduce, hdims, (hspec.get?_eq [1, 0] ?_).trans rfl⟩
  rw [hdims]
  decide

/-- **A reduction fails as inference does**, with the same error, and besides that exactly when the
tensor is not traversable along the axes: then counting runs over.  Otherwise the result has the info
that was inferred, and the number of its elements is exact and a word.  What keeps a tensor from
being traversable are huge extents beside a zero. -/
theorem reduce_total {shape : Shape} {data : Array α} (ht : ofData shape data = .ok t) :
    (∀ e, t.reduce r requests keepDims = .error (.rejected e) ↔
      (Operator.reduce r requests keepDims).infer [t.info] = .error e) ∧
    (∀ info, (Operator.reduce r requests keepDims).infer [t.info] = .ok info →
      ∃ axes, AxisSet.ofRequests (some t.rank) requests = .ok axes ∧
        (t.Traversable axes → ∃ u, t.reduce r requests keepDims = .ok u ∧ u.info = info ∧
          u.data.size = u.shape.dims.prod ∧ u.data.size ≤ Word.maxValue ∧
          (Kernel.reduce r requests keepDims).run t =
            if fits α u.size then .ok u else .error (.stopped .exhausted)) ∧
        (¬t.Traversable axes → t.reduce r requests keepDims = .error (.stopped .overflow))) ∧
    (0 ∉ t.shape.dims → t.Addressable) ∧ (t.Addressable → ∀ axes, t.Traversable axes) := by
  obtain ⟨rfl, ht⟩ := ofData_eq_ok_iff.1 ht
  refine ⟨?_, ?_, ht.addressable, Addressable.traversable⟩
  · intro e
    constructor
    · intro hreduce
      cases hinfer : (Operator.reduce r requests keepDims).infer [Tensor.info ⟨shape, data⟩] with
      | error e' =>
        rw [reduce_eq_rejected hinfer, Except.error.injEq, Failure.rejected.injEq] at hreduce
        rw [hreduce]
      | ok info => exact absurd hreduce (reduce_ne_rejected ht hinfer e)
    · exact reduce_eq_rejected
  · intro info hinfer
    obtain ⟨hsupports, axes, haxes, rfl⟩ := infer_reduce_eq_ok_iff.1 hinfer
    obtain ⟨c, hc⟩ := exists_combiner_of_supports hsupports
    refine ⟨axes, haxes, ?_, reduce_eq_overflow ht hinfer haxes hc⟩
    intro htraversable
    have hreduce := reduce_eq_ok ht hinfer haxes hc htraversable
    have hu : (Tensor.folded ⟨shape, data⟩ c axes keepDims).WellSized :=
      wellSized_folded c htraversable
    refine ⟨_, hreduce, info_folded c, hu.size_eq, hu.size_le, ?_⟩
    exact Kernel.run_eq_of_compute hinfer hreduce hu

/-- Huge extents beside a zero are no hindrance as long as counting stays in the word. -/
theorem reduce_total_huge_extent :
    ∃ u, (⟨⟨[2 ^ 63, 2, 0]⟩, #[]⟩ : Tensor Int32).reduce .sum [0] false = .ok u ∧
      u.info = ⟨.i32, .ofShape ⟨[2, 0]⟩⟩ := by
  have ht : ofData ⟨[2 ^ 63, 2, 0]⟩ (#[] : Array Int32) = .ok ⟨⟨[2 ^ 63, 2, 0]⟩, #[]⟩ := rfl
  have hinfer : (Operator.reduce .sum [0] false).infer
      [(⟨⟨[2 ^ 63, 2, 0]⟩, #[]⟩ : Tensor Int32).info] = .ok ⟨.i32, .ofShape ⟨[2, 0]⟩⟩ := rfl
  obtain ⟨axes, haxes, hok, -⟩ := (reduce_total ht).2.1 _ hinfer
  obtain rfl : AxisSet.ofList [0] = axes := Except.ok.inj haxes
  have htraversable :
      (⟨⟨[2 ^ 63, 2, 0]⟩, #[]⟩ : Tensor Int32).Traversable (AxisSet.ofList [0]) := by
    refine ⟨?_, ?_, Or.inl ?_⟩
    · show Word.RunsWithin [2, 0]
      exact Word.runsWithin_of_prod_le (by decide)
    · show Word.RunsWithin [2 ^ 63]
      exact Word.runsWithin_of_prod_le (by decide)
    · decide
  obtain ⟨u, hreduce, hinfo, -⟩ := hok htraversable
  exact ⟨u, hreduce, hinfo⟩

/-- A reduction that inference accepts can run over: the two reduced extents cannot be multiplied,
although the tensor has no elements and neither has the result. -/
theorem reduce_overflow_huge_extents :
    ofData ⟨[2 ^ 63, 2, 0]⟩ (#[] : Array Int32) = .ok ⟨⟨[2 ^ 63, 2, 0]⟩, #[]⟩ ∧
      (Operator.reduce .sum [0, 1] false).infer
          [(⟨⟨[2 ^ 63, 2, 0]⟩, #[]⟩ : Tensor Int32).info] = .ok ⟨.i32, .ofShape ⟨[0]⟩⟩ ∧
      (⟨⟨[2 ^ 63, 2, 0]⟩, #[]⟩ : Tensor Int32).reduce .sum [0, 1] false =
        .error (.stopped .overflow) :=
  ⟨rfl, rfl, rfl⟩

end Tensor

end TensorInference
